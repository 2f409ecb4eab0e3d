import DirectoryTables.Proofs.Bootstrap.Additive

/-!
# Bootstrap — Report

The report of a bootstrap accounts for every change of the catalog, and for every statement
(`report_accounts`).  It lists what the statements do (`Accounts`), and what statements do is what
changes in the catalog.  One kind of statement is not listed: the index that a new subtable comes
with.  `SchemaReport.createdSubtables` counts these.
-/

namespace DirectoryTables

/-- The created tables that are subtables: those that go by the name of no planned table. -/
def SchemaReport.createdSubtables (r : SchemaReport) : List String :=
  r.createdTables.filter fun name => !r.tables.any (·.name == name)

namespace Bootstrap

variable {b : Backend} {cfg : Config} {c c' : Catalog} {ss : List Statement}

/-! ### What each stage creates -/

/-- Making tables creates no index. -/
theorem Pass.createdIndex?_tables {tables : List Table}
    (h : Pass b cfg (tables.map Step.table) c ss c') :
    ss.filterMap Statement.createdIndex? = [] := by
  refine List.filterMap_eq_nil_iff.mpr fun s hs => ?_
  obtain ⟨t, -, met, hmem⟩ := h.exists_item hs
  obtain ⟨-, added, -, rfl⟩ | ⟨-, rfl⟩ := Step.mem_statements_table.mp hmem <;> rfl

/-- Making tables leaves them the indexes they had. -/
theorem Pass.hasIndex_tables {tables : List Table} {name index : String}
    (h : Pass b cfg (tables.map Step.table) c ss c') :
    c'.hasIndex name index = true ↔ c.hasIndex name index = true := by
  rw [Catalog.hasIndex_of_applyAll_iff h.applyAll, or_iff_left]
  rintro ⟨i, hi, -, -⟩
  have hcreated : i.name ∈ ss.filterMap Statement.createdIndex? :=
    List.mem_filterMap.mpr ⟨_, hi, rfl⟩
  rw [h.createdIndex?_tables] at hcreated
  cases hcreated

/-- Making subtables creates an index with each new one. -/
theorem Pass.createdIndex?_subtables {subtables : List Subtable}
    (h : Pass b cfg (subtables.map Step.subtable) c ss c') :
    (ss.filterMap Statement.createdIndex?).length =
      (ss.filterMap Statement.createdTable?).length := by
  induction subtables generalizing c ss with
  | nil =>
    cases h
    rfl
  | cons s subtables ih =>
    cases h with
    | cons _ hrest =>
      rw [List.filterMap_append, List.filterMap_append, List.length_append, List.length_append,
        ih hrest, Step.statements]
      split
      · simp [Catalog.additions, Function.comp_def, Statement.createdIndex?,
          Statement.createdTable?]
      · rfl

/-- Indexing tables creates none. -/
theorem Pass.createdTable?_indexes {statements : List Statement}
    (h : Pass b cfg (statements.map Step.index) c ss c')
    (hs : ∀ statement ∈ statements, ∃ table, statement.Indexes table) :
    ss.filterMap Statement.createdTable? = [] := by
  refine List.filterMap_eq_nil_iff.mpr fun s hmem => ?_
  obtain ⟨statement, hstatement, met, hmem⟩ := h.exists_item hmem
  obtain ⟨table, hindexes⟩ := hs statement hstatement
  obtain ⟨-, rfl⟩ := Step.mem_statements_index.mp hmem
  cases statement with
  | createTable => exact hindexes.elim
  | addColumn => rfl
  | createIndex => rfl

end Bootstrap

namespace Compiler

open Bootstrap

variable {τ : Type} {c : Compiler} {plan : Plan} {start c₁ c₂ left : Catalog}
  {ss ss₁ ss₂ ss₃ : List Statement}

/-! ### Created subtables -/

/-- Once the tables of a plan are made, they are all there with their columns. -/
theorem settled_of_tables (hplan : c.plan = .ok plan)
    (h₁ : Pass c.config.backend c.config (plan.tables.map Step.table) start ss₁ c₁) {t : Table}
    (ht : t ∈ plan.tables) : (Step.table t).Settled c.config.backend c₁ := by
  have hordered := (ordered_steps hplan).of_append.1.of_append.1
  exact h₁.settled hordered (fun y hy => by cases hy) _ (List.mem_map_of_mem ht)

/-- The created subtables are the tables created in the second stage: those created in the first
one are planned, and planned tables are no longer created in the second one. -/
theorem createdSubtables_eq (hplan : c.plan = .ok plan)
    (h₁ : Pass c.config.backend c.config (plan.tables.map Step.table) start ss₁ c₁)
    (h₂ : Pass c.config.backend c.config (plan.subtables.map Step.subtable) c₁ ss₂ c₂)
    {schema : SchemaReport} (htables : schema.tables = plan.tables)
    (hcreated : schema.createdTables = (ss₁ ++ ss₂).filterMap Statement.createdTable?) :
    schema.createdSubtables = ss₂.filterMap Statement.createdTable? := by
  have hfirst : (ss₁.filterMap Statement.createdTable?).filter
      (fun name => !schema.tables.any (·.name == name)) = [] := by
    refine List.filter_eq_nil_iff.mpr fun name hname => ?_
    obtain ⟨s, hs, hname⟩ := List.mem_filterMap.mp hname
    obtain ⟨x, hx, htarget⟩ := h₁.exists_target hs
    obtain ⟨t, ht, rfl⟩ := List.mem_map.mp hx
    have hplanned : t.name = name := htarget.symm.trans (Statement.table_of_createdTable? hname)
    simpa [htables] using ⟨t, ht, hplanned⟩
  have hsecond : (ss₂.filterMap Statement.createdTable?).filter
      (fun name => !schema.tables.any (·.name == name)) =
        ss₂.filterMap Statement.createdTable? := by
    refine List.filter_eq_self.mpr fun name hname => ?_
    have habsent := ((Catalog.mem_created_iff h₂.applyAll).mp hname).1
    rw [Bool.not_eq_true', List.any_eq_false, htables]
    intro t ht e
    rw [← eq_of_beq e, (settled_of_tables hplan h₁ ht).1] at habsent
    cases habsent
  rw [SchemaReport.createdSubtables, hcreated, List.filterMap_append, List.filter_append, hfirst,
    hsecond, List.nil_append]

/-- A created table that is no planned table is a planned subtable, and has its index. -/
theorem exists_subtable_of_created (hplan : c.plan = .ok plan)
    (h : Pass c.config.backend c.config (c.steps plan) start ss left) {name : String}
    (hname : name ∈ ss.filterMap Statement.createdTable?)
    (htables : ∀ t ∈ plan.tables, t.name ≠ name) :
    ∃ s ∈ plan.subtables, s.name = name ∧
      left.hasIndex name (c.config.backend.fit s.indexName) = true := by
  obtain ⟨habsent, hpresent⟩ := (Catalog.mem_created_iff h.applyAll).mp hname
  obtain ⟨statement, hs, hcreated⟩ := List.mem_filterMap.mp hname
  obtain ⟨x, hx, htarget⟩ := h.exists_target hs
  rw [Statement.table_of_createdTable? hcreated] at htarget
  obtain ⟨plan', hplan', ⟨t, ht, hname⟩ | ⟨s, hs, hname⟩⟩ := plans_target hplan hx
  · cases hplan.symm.trans hplan'
    exact absurd (hname.trans htarget.symm) (htables t ht)
  · cases hplan.symm.trans hplan'
    have hsubtable : s.name = name := hname.trans htarget.symm
    have hindexed : Indexed c.config.backend name left :=
      h.indexed (spares_steps htables) fun hstart => by rw [habsent] at hstart; cases hstart
    exact ⟨s, hs, hsubtable, by rw [Subtable.indexName, hsubtable]; exact hindexed hpresent⟩

/-! ### The report -/

/-- A bootstrap that succeeds has the course of its migration, whatever the log. -/
theorem exists_course_of_bootstrap {log : Log τ} {db : Database} {t : τ} {report : Report}
    {p : Progress Database τ} (hplan : c.plan = .ok plan)
    (h : c.bootstrap Database.session log db t = (.ok report, p)) :
    ∃ ss left, Migration.Course (c.migration plan) db.catalog ss (report.schema, report.indexes)
        left ∧ p.session = db.after c.config.backend ss left ∧ report.statements = ss.length := by
  simp only [bootstrap, hplan] at h
  split at h
  case h_1 => cases h
  case h_2 schema indexes p' hrun =>
    obtain ⟨ss, left, hcourse, hsession, hissued⟩ := Migration.exists_course_of_run hrun
    split at h
    case h_1 => cases h
    case h_2 =>
      cases h
      exact ⟨ss, left, hcourse, hsession, hissued.trans (Nat.zero_add _)⟩

/-- The statements of a bootstrap are those that its reports list, and an index for each created
subtable. -/
theorem length_of_accounts {schema : SchemaReport} {indexes : IndexReport}
    (h₁ : Pass c.config.backend c.config (plan.tables.map Step.table) start ss₁ c₁)
    (h₂ : Pass c.config.backend c.config (plan.subtables.map Step.subtable) c₁ ss₂ c₂)
    (hindexing : ss₃.filterMap Statement.createdTable? = [])
    (ha : Accounts schema indexes (ss₁ ++ ss₂) ss₃)
    (hsubtables : schema.createdSubtables = ss₂.filterMap Statement.createdTable?) :
    (ss₁ ++ ss₂ ++ ss₃).length = schema.createdTables.length + schema.addedColumns.length +
      indexes.created.length + indexes.shadowColumns.length + schema.createdSubtables.length := by
  have htables : ss₁.filterMap Statement.createdIndex? = [] := h₁.createdIndex?_tables
  have hpaired : (ss₂.filterMap Statement.createdIndex?).length =
      (ss₂.filterMap Statement.createdTable?).length := h₂.createdIndex?_subtables
  rw [Statement.length_eq, hsubtables, ha.createdTables, ha.addedColumns, ha.created,
    ha.shadowColumns]
  simp only [List.filterMap_append, List.length_append, List.length_map, htables, hindexing,
    List.length_nil]
  omega

/-- **The report accounts for every change.**  Whatever a database in memory holds, after a
bootstrap that succeeds:

* no created table is listed twice, and they are exactly the tables that were absent and are
  present;
* each table that was present has its columns, followed by those it gained, and each of these is
  listed for the table, or as a shadow column;
* each created subtable is planned, and has its index;
* the number of statements is that of the created tables, added columns, created indexes and shadow
  columns, and of the created subtables once more for their indexes; and as many were handed to the
  database. -/
theorem report_accounts {log : Log τ} {db : Database} {t : τ} {report : Report}
    {p : Progress Database τ} (h : c.bootstrap Database.session log db t = (.ok report, p)) :
    report.schema.createdTables.Nodup ∧
      (∀ name, name ∈ report.schema.createdTables ↔
        db.catalog.hasTable name = false ∧ p.session.catalog.hasTable name = true) ∧
      (∀ name, db.catalog.hasTable name = true →
        ∃ gained, p.session.catalog.columns name = db.catalog.columns name ++ gained ∧
          ∀ column ∈ gained, (name, column) ∈ report.schema.addedColumns ∨
            column ∈ report.indexes.shadowColumns) ∧
      (∀ name ∈ report.schema.createdSubtables, ∃ s ∈ report.schema.subtables, s.name = name ∧
        p.session.catalog.hasIndex name (c.config.backend.fit s.indexName) = true) ∧
      report.statements = report.schema.createdTables.length + report.schema.addedColumns.length +
        report.indexes.created.length + report.indexes.shadowColumns.length +
        report.schema.createdSubtables.length ∧
      p.session.history.length = db.history.length + report.statements := by
  obtain ⟨plan, hplan⟩ := exists_plan_of_bootstrap h
  obtain ⟨ss, left, hcourse, hsession, hstatements⟩ := exists_course_of_bootstrap hplan h
  -- the pass of each stage, with the reports on them
  obtain ⟨ss', left', hpass, -⟩ := exists_pass_steps hplan db.catalog
  obtain ⟨ss₁₂, c₂, ss₃, h₁₂, h₃, rfl⟩ := hpass.of_append
  obtain ⟨ss₁, c₁, ss₂, h₁, h₂, rfl⟩ := h₁₂.of_append
  obtain ⟨changes, indexes, hcourse', -, haccounts⟩ := course_of_passes h₁ h₂ h₃
  obtain ⟨rfl, hreports, rfl⟩ := hcourse.unique hcourse'
  obtain ⟨hschema, hindexes⟩ := Prod.mk.inj hreports
  have htables : report.schema.tables = plan.tables := by rw [hschema]; rfl
  have hplanned : report.schema.subtables = plan.subtables := by rw [hschema]; rfl
  rw [← hschema, ← hindexes] at haccounts
  have hsubtables := createdSubtables_eq hplan h₁ h₂ htables haccounts.createdTables
  have hindexing : ss₃.filterMap Statement.createdTable? = [] :=
    h₃.createdTable?_indexes fun statement hs => by
      obtain ⟨t, -, ht⟩ := Indexing.exists_indexes_of_mem hs
      exact ⟨t.name, ht⟩
  have hcreated : report.schema.createdTables =
      (ss₁ ++ ss₂ ++ ss₃).filterMap Statement.createdTable? := by
    rw [haccounts.createdTables, List.filterMap_append (l := ss₁ ++ ss₂), hindexing,
      List.append_nil]
  have hlength := length_of_accounts h₁ h₂ hindexing haccounts hsubtables
  have happ := hpass.applyAll
  have hleft : p.session.catalog = left := by rw [hsession]; rfl
  refine ⟨?_, fun name => ?_, fun name hname => ?_, fun name hname => ?_, ?_, ?_⟩
  · rw [hcreated]
    exact Catalog.nodup_created happ
  · rw [hcreated, hleft]
    exact Catalog.mem_created_iff happ
  · refine ⟨_, hleft ▸ Catalog.columns_of_applyAll happ hname, fun column hcolumn => ?_⟩
    rw [Statement.mem_addedTo_iff, List.filterMap_append] at hcolumn
    rw [haccounts.addedColumns, haccounts.shadowColumns]
    exact (List.mem_append.mp hcolumn).imp_right (List.mem_map_of_mem (f := Prod.snd))
  · obtain ⟨hmem, hnone⟩ := List.mem_filter.mp hname
    rw [hcreated] at hmem
    rw [Bool.not_eq_true', List.any_eq_false, htables] at hnone
    rw [hplanned, hleft]
    exact exists_subtable_of_created hplan hpass hmem fun t ht e => hnone t ht (beq_iff_eq.mpr e)
  · rw [hstatements, hlength]
  · rw [hsession, hstatements]
    simp [Database.after]

/-- The table of `mailing` is there and lacks two columns, its subtable is not. -/
theorem report_accounts_mailing :
    ∃ report, mailing.bootstrap Database.session Log.memory
        { catalog := Catalog.empty.withTable "gluuPerson" ["doc_id", "DN"] } [] =
          (.ok report, mailingAfter) ∧
      report.schema.createdSubtables = ["gluuPerson_mail"] ∧
      (∀ name, name ∈ ["gluuPerson_mail"] ↔
        (Catalog.empty.withTable "gluuPerson" ["doc_id", "DN"]).hasTable name = false ∧
          mailingAfter.session.catalog.hasTable name = true) ∧
      report.statements = 1 + 2 + 1 + 0 + 1 := by
  have h : mailing.bootstrap Database.session Log.memory
      { catalog := Catalog.empty.withTable "gluuPerson" ["doc_id", "DN"] } [] =
        (.ok {
          schema := {
            tables := mailingPlan.tables, subtables := mailingPlan.subtables
            createdTables := ["gluuPerson_mail"]
            addedColumns := [("gluuPerson", "objectClass"), ("gluuPerson", "uid")] }
          indexes := { created := ["gluuPerson_uidIdx"] }
          statements := 5 }, mailingAfter) := rfl
  obtain ⟨-, hcreated, -, -, hstatements, -⟩ := report_accounts h
  exact ⟨_, h, rfl, hcreated, hstatements⟩

end Compiler

end DirectoryTables
