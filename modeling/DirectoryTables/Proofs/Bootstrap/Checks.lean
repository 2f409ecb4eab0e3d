import DirectoryTables.Proofs.Backend.Fitting
import DirectoryTables.Proofs.Bootstrap.Convergence
import DirectoryTables.Proofs.Migration.Trace

/-!
# Bootstrap — Checks

A bootstrap looks before it acts, on any session whatsoever (`acts_after_checks`).  A statement
that creates a table or an index comes right after the question whether it is there; one that adds
a column comes after the question for the columns of its table, and no column of that name was
added in between (`Checked`).
-/

namespace DirectoryTables

/-- The events before a statement with the given text tell that its object was not there. -/
def Checked (b : Backend) (before : List Event) (sql : String) : Statement → Prop
  | .createTable t =>
    sql = b.createTableSql t ∧ ∃ earlier, before = earlier ++ [.askedTable t.name (.ok false)]
  | .createIndex i =>
    sql = b.indexHead i.kind ++ b.quote i.name ++ " ON " ++ b.quote i.table ++
        b.indexKeySql i.kind i.key ∧
      ∃ earlier, before = earlier ++ [.askedIndex i.table i.name (.ok false)]
  | .addColumn a =>
    sql = b.addColumnSql a ∧ ∃ earlier columns since,
      before = earlier ++ .askedColumns a.table (.ok columns) :: since ∧
      Text.listsName columns a.column.name = false ∧
      (∀ answer, .askedColumns a.table answer ∉ since) ∧
      ∀ sql' a' answer, .executed sql' (.addColumn a') answer ∈ since → a'.table = a.table →
        Text.sameName a'.column.name a.column.name = false

namespace Bootstrap

open Migration

variable {α β ι : Type} {b : Backend}

/-! ### Migrations that check -/

/-- Whatever came before, every statement of the migration is checked. -/
def Checks (b : Backend) (m : Migration α) : Prop :=
  ∀ events, m.Guarded (Checked b) b events fun _ _ => True

theorem checks_pure (a : α) : Checks b (pure a : Migration α) := fun _ => trivial

theorem Checks.bind {m : Migration α} {k : α → Migration β} (h : Checks b m)
    (hk : ∀ a, Checks b (k a)) : Checks b (m >>= k) := fun events =>
  .bind ((h events).mono fun a events' _ => hk a events')

/-- A guarded migration whose result is wrapped up. -/
theorem guarded_map {m : Migration α} {events : List Event} (f : α → β)
    (h : m.Guarded (Checked b) b events fun _ _ => True) :
    (m >>= fun a => pure (f a)).Guarded (Checked b) b events fun _ _ => True :=
  .bind (h.mono fun _ _ _ => trivial)

theorem checks_mapM {f : ι → Migration α} {xs : List ι} (h : ∀ x ∈ xs, Checks b (f x)) :
    Checks b (xs.mapM f) := by
  induction xs with
  | nil => exact checks_pure []
  | cons x xs ih =>
    rw [List.mapM_cons]
    have hxs : Checks b (xs.mapM f) := ih fun y hy => h y (List.mem_cons_of_mem x hy)
    exact (h x List.mem_cons_self).bind fun a => hxs.bind fun as => checks_pure (a :: as)

theorem checks_foldlM {f : α → ι → Migration α} {xs : List ι} (h : ∀ a x, Checks b (f a x))
    (a : α) : Checks b (xs.foldlM f a) := by
  induction xs generalizing a with
  | nil => exact checks_pure a
  | cons x xs ih =>
    rw [List.foldlM_cons]
    exact (h a x).bind ih

/-! ### Single statements -/

theorem checks_createTableIfAbsent (t : CreateTable) : Checks b (createTableIfAbsent t) := by
  intro events present
  cases present with
  | true => trivial
  | false => exact ⟨⟨rfl, events, rfl⟩, trivial⟩

/-- The name in the text is the one asked for, as fitting a fitted name changes nothing. -/
theorem checks_createIndexIfAbsent (i : CreateIndex) : Checks b (createIndexIfAbsent b i) := by
  intro events present
  cases present with
  | true => trivial
  | false =>
    refine ⟨⟨?_, events, rfl⟩, trivial⟩
    rw [Backend.render, Backend.createIndexSql, Backend.fit_fit]

/-- A column that is added right after its table was asked for its columns. -/
theorem checked_addColumn {events : List Event} {a : AddColumn} {columns : List String}
    (h : Text.listsName columns a.column.name = false) :
    Checked b (events ++ [.askedColumns a.table (.ok columns)]) (b.addColumnSql a)
      (.addColumn a) :=
  ⟨rfl, events, columns, [], rfl, h, fun _ => List.not_mem_nil,
    fun _ _ _ hmem => absurd hmem List.not_mem_nil⟩

/-- A migration that adds a column only where the catalog does not list it. -/
theorem checks_hasColumn_bind {table column : String} {k : Bool → Migration α}
    (hpresent : Checks b (k true))
    (habsent : ∀ events columns, Text.listsName columns column = false →
      (k false).Guarded (Checked b) b (events ++ [.askedColumns table (.ok columns)])
        fun _ _ => True) :
    Checks b (Migration.hasColumn table column >>= k) := by
  intro events columns
  change (k (Text.listsName columns column)).Guarded (Checked b) b _ _
  cases h : Text.listsName columns column with
  | true => exact hpresent _
  | false => exact habsent events columns h

theorem checks_applyIfAbsent (s : Statement) : Checks b (applyIfAbsent b s) := by
  cases s with
  | createTable t => exact checks_createTableIfAbsent t
  | addColumn a =>
    refine checks_hasColumn_bind (checks_pure false) fun events columns h => ?_
    exact ⟨checked_addColumn h, trivial⟩
  | createIndex i => exact checks_createIndexIfAbsent i

/-! ### Tables and subtables -/

/-- Columns with different names are added after one question: each is checked against the columns
that were there, and against those added since. -/
theorem guarded_addMissing {table : String} {present : List String} {columns : List Column}
    {earlier since : List Event} (hd : (columns.map fun column => Text.lower column.name).Nodup)
    (hasked : ∀ answer, .askedColumns table answer ∉ since)
    (hadded : ∀ column ∈ columns, ∀ sql a answer,
      .executed sql (.addColumn a) answer ∈ since → a.table = table →
        Text.sameName a.column.name column.name = false) :
    (addMissing table present columns).Guarded (Checked b) b
      (earlier ++ .askedColumns table (.ok present) :: since) fun _ _ => True := by
  induction columns generalizing since with
  | nil => trivial
  | cons column columns ih =>
    rw [List.map_cons, List.nodup_cons] at hd
    have hrest : ∀ other ∈ columns, ∀ sql a answer,
        .executed sql (.addColumn a) answer ∈ since → a.table = table →
          Text.sameName a.column.name other.name = false :=
      fun other ho => hadded other (List.mem_cons_of_mem column ho)
    rw [addMissing]
    cases h : Text.listsName present column.name with
    | true => exact ih hd.2 hasked hrest
    | false =>
      have hchecked : Checked b (earlier ++ .askedColumns table (.ok present) :: since)
          (b.addColumnSql { table, column := column.declaration })
          (.addColumn { table, column := column.declaration }) :=
        ⟨rfl, earlier, present, since, rfl, h, hasked, hadded column List.mem_cons_self⟩
      refine ⟨hchecked, ?_⟩
      -- since the question, only the addition itself is new
      rw [List.append_assoc, List.cons_append]
      change (addMissing table present columns >>= fun added =>
        pure (column.name :: added)).Guarded (Checked b) b _ _
      refine guarded_map _ (ih hd.2 ?_ ?_)
      · intro answer hmem
        obtain hmem | hmem := List.mem_append.mp hmem
        · exact hasked answer hmem
        · cases List.mem_singleton.mp hmem
      · intro other ho sql a answer hmem ht
        obtain hmem | hmem := List.mem_append.mp hmem
        · exact hrest other ho sql a answer hmem ht
        · cases List.mem_singleton.mp hmem
          refine Bool.eq_false_iff.mpr fun hsame => hd.1 ?_
          exact List.mem_map.mpr ⟨other, ho, (Text.sameName_iff.mp hsame).symm⟩

theorem checks_materializeTable {c : Config} {t : Table} (h : t.HasDistinctColumns) :
    Checks b (materializeTable b c t) := by
  refine (checks_createTableIfAbsent _).bind fun created => ?_
  cases created with
  | true => exact checks_pure _
  | false =>
    intro events present
    change (addMissing t.name present t.columns >>= fun added =>
      pure ({ table := t.name, added } : TableChange)).Guarded (Checked b) b _ _
    refine guarded_map _ (guarded_addMissing h (fun _ => List.not_mem_nil) ?_)
    exact fun _ _ _ _ _ hmem => absurd hmem List.not_mem_nil

theorem checks_materializeSubtable (c : Config) (s : Subtable) :
    Checks b (materializeSubtable b c s) := by
  refine (checks_createTableIfAbsent _).bind fun created => ?_
  cases created with
  | true => exact (checks_createIndexIfAbsent _).bind fun _ => checks_pure _
  | false =>
    refine checks_hasColumn_bind (checks_pure _) fun events columns h => ?_
    exact ⟨checked_addColumn (a := { table := s.name, column := s.values.declaration }) h, trivial⟩

end Bootstrap

namespace Compiler

open Bootstrap

variable {σ τ : Type} {c : Compiler} {plan : Plan}

/-- The migration for a plan checks, on any session. -/
theorem checks_migration (hplan : c.plan = .ok plan) :
    Checks c.config.backend (c.migration plan) := by
  have hschema : Checks c.config.backend (c.materialize plan) := by
    refine (checks_mapM fun t ht => ?_).bind fun tables => ?_
    · exact checks_materializeTable (Plan.hasDistinctColumns_of_planned hplan ht)
    · refine (checks_mapM fun s _ => ?_).bind fun subtables => checks_pure _
      exact checks_materializeSubtable c.config s
  have hindexes : ∀ tables, Checks c.config.backend (c.applyIndexes tables) := by
    intro tables
    refine checks_foldlM (fun report s => ?_) _
    exact (checks_applyIfAbsent s).bind fun _ => checks_pure _
  exact hschema.bind fun schema => (hindexes _).bind fun indexes => checks_pure _

/-- The calls that a bootstrap makes of a session, each with its answer. -/
def trace (c : Compiler) (session : Session σ) (log : Log τ) (s : σ) (t : τ) : List Event :=
  (c.bootstrap session.recorded log (s, []) t).2.session.2

/-- A bootstrap is projected with the session and the log that it runs on. -/
theorem bootstrap_of_projects {σ' τ' : Type} {f : σ → σ'} {g : τ → τ'} {session : Session σ}
    {session' : Session σ'} {log : Log τ} {log' : Log τ'}
    (hs : Session.Projects f session session') (hl : Log.Projects g log log') (c : Compiler)
    (s : σ) (t : τ) :
    c.bootstrap session' log' (f s) (g t) =
      ((c.bootstrap session log s t).1, (c.bootstrap session log s t).2.map f g) := by
  cases hplan : c.plan with
  | error e =>
    simp only [bootstrap, hplan]
    rfl
  | ok plan =>
    have hrun := Migration.run_of_projects (b := c.config.backend) hs hl (c.migration plan)
      { session := s, log := t }
    simp only [Progress.map] at hrun
    simp only [bootstrap, hplan, hrun]
    rcases (c.migration plan).run c.config.backend session log { session := s, log := t } with
      ⟨_ | _, p⟩
    · rfl
    · simp only [hl.flush]
      cases (log.flush p.log).1 <;> rfl

/-- Recording the calls changes nothing else of a bootstrap. -/
theorem bootstrap_recorded (c : Compiler) (session : Session σ) (log : Log τ) (s : σ) (t : τ) :
    c.bootstrap session log s t =
      ((c.bootstrap session.recorded log (s, []) t).1,
        (c.bootstrap session.recorded log (s, []) t).2.unrecorded) :=
  bootstrap_of_projects session.recorded_projects log.projects_id c (s, []) t

/-- **A bootstrap looks before it acts.**  On any session, with any log, and whatever they answer,
each statement that it hands to the session is checked by the calls before it. -/
theorem acts_after_checks (c : Compiler) (session : Session σ) (log : Log τ) (s : σ) (t : τ)
    {before after : List Event} {sql : String} {statement : Statement}
    {answer : Except SessionError Unit}
    (h : c.trace session log s t = before ++ .executed sql statement answer :: after) :
    Checked c.config.backend before sql statement := by
  have hall : Migration.AllPermitted (Checked c.config.backend) (c.trace session log s t) := by
    cases hplan : c.plan with
    | error e =>
      simp only [trace, bootstrap, hplan]
      exact Migration.allPermitted_nil
    | ok plan =>
      rw [trace, bootstrap_session hplan]
      exact Migration.run_guarded (checks_migration hplan []) Migration.allPermitted_nil
  exact hall before sql statement answer after h

/-- The second column that is added to the table of `mailing`, after one question for both. -/
theorem acts_after_checks_mailing :
    ∃ before after, mailing.trace Database.session Log.memory
        { catalog := Catalog.empty.withTable "gluuPerson" ["doc_id", "DN"] } [] =
      before ++ .executed "ALTER TABLE `gluuPerson` ADD COLUMN `uid` TEXT"
        (.addColumn { table := "gluuPerson", column := { name := "uid", type := .text } })
        (.ok ()) :: after ∧
      Checked mailing.config.backend before "ALTER TABLE `gluuPerson` ADD COLUMN `uid` TEXT"
        (.addColumn { table := "gluuPerson", column := { name := "uid", type := .text } }) := by
  have h : mailing.trace Database.session Log.memory
        { catalog := Catalog.empty.withTable "gluuPerson" ["doc_id", "DN"] } [] =
      [.askedTable "gluuPerson" (.ok true), .askedColumns "gluuPerson" (.ok ["doc_id", "DN"]),
        .executed "ALTER TABLE `gluuPerson` ADD COLUMN `objectClass` VARCHAR(48)"
          (.addColumn {
            table := "gluuPerson", column := { name := "objectClass", type := .varchar 48 } })
          (.ok ())] ++
      .executed "ALTER TABLE `gluuPerson` ADD COLUMN `uid` TEXT"
        (.addColumn { table := "gluuPerson", column := { name := "uid", type := .text } })
        (.ok ()) ::
      (mailing.trace Database.session Log.memory
        { catalog := Catalog.empty.withTable "gluuPerson" ["doc_id", "DN"] } []).drop 4 := rfl
  exact ⟨_, _, h, acts_after_checks mailing Database.session Log.memory _ _ h⟩

end Compiler

end DirectoryTables
