import DirectoryTables.Proofs.Bootstrap.Course

/-!
# Bootstrap — Convergence

A bootstrap of a database in memory with a reliable log always succeeds, whatever the database
holds (`bootstrap_converges`).  It leaves a catalog that is complete for the plan
(`Compiler.Complete`), and on such a catalog a bootstrap does nothing (`bootstrap_of_complete`), so
a second one never does (`bootstrap_again`).
-/

namespace DirectoryTables

open Bootstrap

namespace Compiler

variable {c : Compiler} {plan : Plan} {τ : Type} {log : Log τ}

/-- The catalog has all that a plan asks for. -/
structure Complete (c : Compiler) (plan : Plan) (catalog : Catalog) : Prop where
  /-- Every planned table is there with every planned column, letter case aside. -/
  tables : ∀ t ∈ plan.tables, catalog.hasTable t.name = true ∧
    ∀ column ∈ t.columns, catalog.hasColumn t.name column.name = true
  /-- Every planned subtable is there with the column of its values. -/
  subtables : ∀ s ∈ plan.subtables, catalog.hasTable s.name = true ∧
    catalog.hasColumn s.name s.valueColumn = true
  /-- The object of every statement of the index plan is there: a shadow column on its table, an
  index under its fitted name. -/
  indexes : ∀ statement ∈ c.indexPlan plan.tables,
    catalog.holds c.config.backend statement = true

theorem complete_iff {catalog : Catalog} :
    c.Complete plan catalog ↔ ∀ x ∈ c.steps plan, x.Settled c.config.backend catalog := by
  constructor
  · intro h x hx
    obtain ⟨t, ht, rfl⟩ | ⟨s, hs, rfl⟩ | ⟨statement, hs, rfl⟩ := mem_steps_iff.mp hx
    · exact h.tables t ht
    · exact (h.subtables s hs).2
    · exact h.indexes statement hs
  · intro h
    refine ⟨fun t ht => ?_, fun s hs => ?_, fun statement hs => ?_⟩
    · exact h _ (mem_steps_iff.mpr (.inl ⟨t, ht, rfl⟩))
    · have hs : catalog.hasColumn s.name s.valueColumn = true :=
        h _ (mem_steps_iff.mpr (.inr (.inl ⟨s, hs, rfl⟩)))
      exact ⟨Catalog.hasTable_of_hasColumn hs, hs⟩
    · exact h _ (mem_steps_iff.mpr (.inr (.inr ⟨statement, hs, rfl⟩)))

/-- The steps of a plan have a pass from every catalog, and it leaves a complete one. -/
theorem exists_pass_steps (hplan : c.plan = .ok plan) (start : Catalog) :
    ∃ ss left, Pass c.config.backend c.config (c.steps plan) start ss left ∧
      c.Complete plan left := by
  have hpass : ∃ ss left, Pass c.config.backend c.config (c.steps plan) start ss left ∧
      ∀ x ∈ c.steps plan, x.Settled c.config.backend left :=
    exists_pass (ordered_steps hplan) fun y hy => by cases hy
  obtain ⟨ss, left, hpass, hset⟩ := hpass
  exact ⟨ss, left, hpass, complete_iff.mpr hset⟩

/-- A bootstrap is the course of its migration, with the log flushed at the end. -/
theorem bootstrap_of_course (hplan : c.plan = .ok plan) (hlog : log.Reliable) {db : Database}
    {ss : List Statement} {schema : SchemaReport} {indexes : IndexReport} {left : Catalog}
    (h : Migration.Course (c.migration plan) db.catalog ss (schema, indexes) left) (t : τ) :
    c.bootstrap Database.session log db t =
      (.ok { schema, indexes, statements := ss.length },
        { session := db.after c.config.backend ss left,
          log := (log.flush (log.recordAll c.config.backend ss t)).2, issued := ss.length }) := by
  have hrun := Migration.run_of_course c.config.backend hlog h
    (p := { session := db, log := t }) rfl
  simp only [bootstrap, hplan, hrun, hlog.flush, Nat.zero_add]

/-- Only a compiler with a plan bootstraps. -/
theorem exists_plan_of_bootstrap {σ : Type} {session : Session σ} {s : σ} {t : τ} {report : Report}
    {p : Progress σ τ} (h : c.bootstrap session log s t = (.ok report, p)) :
    ∃ plan, c.plan = .ok plan := by
  cases hplan : c.plan with
  | error e =>
    simp only [bootstrap, hplan] at h
    cases h
  | ok plan => exact ⟨plan, rfl⟩

/-! ### The first bootstrap -/

/-- What a bootstrap of a database in memory does: its statements are those of a pass, its catalog
is complete, and its report accounts for every statement of the index plan. -/
theorem bootstrap_eq (hplan : c.plan = .ok plan) (hlog : log.Reliable) (db : Database) (t : τ) :
    ∃ report ss left, Pass c.config.backend c.config (c.steps plan) db.catalog ss left ∧
      c.bootstrap Database.session log db t =
        (.ok report,
          { session := db.after c.config.backend ss left,
            log := (log.flush (log.recordAll c.config.backend ss t)).2, issued := ss.length }) ∧
      c.Complete plan left ∧ report.indexes.count = (c.indexPlan plan.tables).length := by
  obtain ⟨ss, left, hpass, hcomplete⟩ := exists_pass_steps hplan db.catalog
  obtain ⟨changes, indexes, hcourse, hcount⟩ := course_of_pass hpass
  exact ⟨_, ss, left, hpass, bootstrap_of_course hplan hlog hcourse t, hcomplete, hcount⟩

/-- **A bootstrap converges.**  Whatever tables, columns and indexes a database in memory has, it
succeeds with a log that never fails, and leaves a catalog that is complete for the plan. -/
theorem bootstrap_converges (hplan : c.plan = .ok plan) (hlog : log.Reliable) (db : Database)
    (t : τ) :
    ∃ report p, c.bootstrap Database.session log db t = (.ok report, p) ∧
      c.Complete plan p.session.catalog := by
  obtain ⟨report, ss, left, -, hrun, hcomplete, -⟩ := bootstrap_eq hplan hlog db t
  exact ⟨report, _, hrun, hcomplete⟩

/-- A compiler for one class, whose mail addresses have a subtable and whose `uid` is indexed. -/
def mailing : Compiler where
  directory :=
    { attributes := Directory.defineAttribute .empty
        { names := ["mail"], subtables := ["gluuPerson"] }
      classes := Directory.defineClass .empty
        { names := ["gluuPerson"], may := ["uid", "mail"] } }
  policy := { mysql := { common := { fields := ["uid"] } } }

/-- The plan for `mailing`. -/
def mailingPlan : Plan where
  tables := [{ name := "gluuPerson", columns := bookkeeping ++ [⟨"uid", .text⟩] }]
  subtables := [{ parent := "gluuPerson", valueColumn := "mail", valueType := .text }]

/-- The table of `mailing` is there without the column `uid`. -/
theorem bootstrap_converges_mailing :
    mailing.plan = .ok mailingPlan ∧ Log.memory.Reliable ∧
      ∃ report p, mailing.bootstrap Database.session Log.memory
          { catalog := Catalog.empty.withTable "gluuPerson" ["doc_id", "DN"] } [] =
        (.ok report, p) ∧ mailing.Complete mailingPlan p.session.catalog :=
  ⟨rfl, Log.memory_reliable, bootstrap_converges rfl Log.memory_reliable _ []⟩

/-! ### The second bootstrap -/

/-- **On a complete catalog a bootstrap does nothing**: no statement reaches the database or the
log, and the report lists every statement of the index plan as skipped. -/
theorem bootstrap_of_complete (hplan : c.plan = .ok plan) (hlog : log.Reliable) {db : Database}
    (h : c.Complete plan db.catalog) (t : τ) :
    c.bootstrap Database.session log db t =
      (.ok { schema := { tables := plan.tables, subtables := plan.subtables },
             indexes := { skipped := (c.indexPlan plan.tables).length }, statements := 0 },
        { session := db, log := (log.flush t).2 }) := by
  rw [bootstrap_of_course hplan hlog (course_of_settled (complete_iff.mp h)) t]
  simp [Database.after, Log.recordAll]

/-- **A second bootstrap does nothing.**  After one that succeeded, it succeeds, hands no statement
to the database, so that the database is the same with its history, and records nothing in its
log.  It reports no change, and as skipped what the first one created or skipped, which is every
statement of the index plan. -/
theorem bootstrap_again {τ' : Type} {log' : Log τ'} {db : Database} {t : τ} {report : Report}
    {p : Progress Database τ} (hlog : log.Reliable) (hlog' : log'.Reliable)
    (h : c.bootstrap Database.session log db t = (.ok report, p)) (t' : τ') :
    ∃ again, c.bootstrap Database.session log' p.session t' =
        (.ok again, { session := p.session, log := (log'.flush t').2 }) ∧
      again.statements = 0 ∧
      again.schema.createdTables = [] ∧ again.schema.addedColumns = [] ∧
      again.indexes.created = [] ∧ again.indexes.shadowColumns = [] ∧
      again.indexes.skipped = report.indexes.created.length +
        report.indexes.shadowColumns.length + report.indexes.skipped ∧
      ∃ plan, c.plan = .ok plan ∧ again.indexes.skipped = (c.indexPlan plan.tables).length := by
  obtain ⟨plan, hplan⟩ := exists_plan_of_bootstrap h
  obtain ⟨first, ss, left, -, hrun, hcomplete, hcount⟩ := bootstrap_eq hplan hlog db t
  cases hrun.symm.trans h
  have hskipped : (c.indexPlan plan.tables).length = report.indexes.created.length +
      report.indexes.shadowColumns.length + report.indexes.skipped := hcount.symm
  refine ⟨_, bootstrap_of_complete hplan hlog' hcomplete t', rfl, rfl, rfl, rfl, rfl, hskipped,
    plan, hplan, rfl⟩

/-- The first bootstrap of a database in which the table of `mailing` lacks two columns. -/
def mailingAfter : Progress Database (List String) :=
  (mailing.bootstrap Database.session Log.memory
    { catalog := Catalog.empty.withTable "gluuPerson" ["doc_id", "DN"] } []).2

theorem bootstrap_again_mailing :
    ∃ again, mailing.bootstrap Database.session Log.memory mailingAfter.session mailingAfter.log =
        (.ok again, { session := mailingAfter.session, log := mailingAfter.log }) ∧
      again.statements = 0 ∧ again.indexes.skipped = 1 := by
  have h : mailing.bootstrap Database.session Log.memory
      { catalog := Catalog.empty.withTable "gluuPerson" ["doc_id", "DN"] } [] =
        (.ok {
          schema := {
            tables := mailingPlan.tables, subtables := mailingPlan.subtables
            createdTables := ["gluuPerson_mail"]
            addedColumns := [("gluuPerson", "objectClass"), ("gluuPerson", "uid")] }
          indexes := { created := ["gluuPerson_uidIdx"] }
          statements := 5 }, mailingAfter) := rfl
  obtain ⟨again, hrun, hstatements, -, -, -, -, hskipped, -⟩ :=
    bootstrap_again Log.memory_reliable Log.memory_reliable h mailingAfter.log
  exact ⟨again, hrun, hstatements, hskipped⟩

end Compiler

end DirectoryTables
