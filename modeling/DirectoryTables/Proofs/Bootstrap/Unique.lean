import DirectoryTables.Proofs.Bootstrap.Failure
import DirectoryTables.Proofs.Bootstrap.Report
import DirectoryTables.Proofs.Plan.Naming
import DirectoryTables.Proofs.Plan.UniqueIndex

/-!
# Bootstrap — Unique

When a bootstrap makes the `uid` of the person table unique (`uid_unique_iff`).

* Where the backend declares it inline, it does so in the statement that creates the table, and
  nowhere else.  A table that is there gets a column `uid`, but never becomes unique
  (`not_uid_unique`).
* Elsewhere a unique index of its own is created, whether the table is there or not, unless the
  table has an index of that name already, or gets one by the policy
  (`Compiler.TakesUniqueName`).
-/

namespace DirectoryTables

/-- The statement makes a column of a table unique: it creates the table and declares so, or it
creates a unique index whose key is the column. -/
def Statement.MakesUnique (table column : String) : Statement → Prop
  | .createTable t => t.name = table ∧ column ∈ t.unique
  | .addColumn _ => False
  | .createIndex i => i.table = table ∧ i.kind = .unique ∧ i.key = .columns [{ name := column }]

instance (table column : String) : (s : Statement) → Decidable (s.MakesUnique table column)
  | .createTable _ => inferInstanceAs (Decidable (_ ∧ _))
  | .addColumn _ => inferInstanceAs (Decidable False)
  | .createIndex _ => inferInstanceAs (Decidable (_ ∧ _ ∧ _))

namespace Bootstrap

variable {b : Backend} {cfg : Config} {c c' : Catalog} {ss : List Statement} {s : Statement}
  {table column : String}

/-! ### Steps that make a column unique -/

/-- The step of a table makes a column unique only when it creates the table, on a backend that can
declare it. -/
theorem created_of_makesUnique {t : Table} (hs : s ∈ (Step.table t).statements b cfg c)
    (hu : s.MakesUnique table column) :
    b.hasInlineUnique = true ∧ s.createdTable? = some table := by
  obtain ⟨-, added, -, rfl⟩ | ⟨-, rfl⟩ := Step.mem_statements_table.mp hs
  · exact hu.elim
  · obtain ⟨rfl, hcolumn⟩ := hu
    refine ⟨?_, rfl⟩
    rw [Table.create] at hcolumn
    split at hcolumn
    · next hinline => exact (Bool.and_eq_true_iff.mp hinline).1
    · cases hcolumn

/-- The step of a subtable makes no column unique. -/
theorem not_makesUnique_subtable {t : Subtable} (hs : s ∈ (Step.subtable t).statements b cfg c) :
    ¬ s.MakesUnique table column := by
  obtain ⟨-, added, -, rfl⟩ | ⟨-, rfl | rfl⟩ := Step.mem_statements_subtable.mp hs
  · exact id
  · exact fun hu => List.not_mem_nil hu.2
  · exact fun hu => by cases hu.2.1

/-- A statement of an index plan makes a column unique only when it is a unique index. -/
theorem Pass.not_makesUnique {statements : List Statement}
    (h : Pass b cfg (statements.map Step.index) c ss c')
    (hs : ∀ statement ∈ statements, (∃ name, statement.Indexes name) ∧
      ∀ i, statement = .createIndex i → i.table = table → i.kind ≠ .unique) :
    ∀ s ∈ ss, ¬ s.MakesUnique table column := by
  intro s hmem hu
  obtain ⟨statement, hstatement, met, hmem⟩ := h.exists_item hmem
  obtain ⟨⟨name, hindexes⟩, hordinary⟩ := hs statement hstatement
  obtain ⟨-, rfl⟩ := Step.mem_statements_index.mp hmem
  cases statement with
  | createTable => exact hindexes
  | addColumn => exact hu
  | createIndex i => exact hordinary i rfl hu.1 hu.2.1

end Bootstrap

namespace Compiler

open Bootstrap Indexing

variable {σ τ : Type} {c : Compiler} {plan : Plan} {t : Table} {column : Column}
  {start c₁ c₂ met left : Catalog} {ss ss₁ : List Statement}

/-! ### Issued statements -/

/-- The statements that a bootstrap hands to the session. -/
def issued (c : Compiler) (session : Session σ) (log : Log τ) (s : σ) (t : τ) : List Statement :=
  (Event.handed (c.trace session log s t)).map Prod.snd

/-- A bootstrap that succeeds issues the statements of the pass of its steps. -/
theorem issued_eq (hplan : c.plan = .ok plan) {log : Log τ} {db : Database} {t₀ : τ}
    {report : Report} {p : Progress Database τ}
    (h : c.bootstrap Database.session log db t₀ = (.ok report, p))
    (hpass : Pass c.config.backend c.config (c.steps plan) db.catalog ss left) :
    c.issued Database.session log db t₀ = ss := by
  obtain ⟨changes, indexes, hcourse, -⟩ := course_of_pass hpass
  obtain ⟨os, r, hattempt, htrace, -, herror⟩ :=
    exists_attempt hplan Database.session_failsCleanly log db t₀
  cases r with
  | error e =>
    have hfailed := herror e rfl
    rw [h] at hfailed
    cases hfailed
  | ok reports =>
    rw [issued, htrace, hattempt.handed_eq hcourse, List.map_map]
    exact List.map_id ss

/-! ### The stage of the tables -/

/-- Making the tables makes `uid` unique exactly where that is declared inline and the person table
was absent. -/
theorem exists_makesUnique_tables (hplan : c.plan = .ok plan)
    (hnames : ∀ t' ∈ plan.tables, t'.name = t.name → t' = t) (ht : t ∈ plan.tables)
    (hperson : t.name = c.config.personTable) (huid : t.column? uid = some column)
    (h₁ : Pass c.config.backend c.config (plan.tables.map Step.table) start ss₁ c₁) :
    (∃ s ∈ ss₁, s.MakesUnique t.name column.name) ↔
      c.config.backend.hasInlineUnique = true ∧ start.hasTable t.name = false := by
  have hcreated : t.name ∈ ss₁.filterMap Statement.createdTable? ↔
      start.hasTable t.name = false ∧ c₁.hasTable t.name = true :=
    Catalog.mem_created_iff h₁.applyAll
  constructor
  · rintro ⟨s, hs, hu⟩
    obtain ⟨t', -, met, hmem⟩ := h₁.exists_item hs
    obtain ⟨hinline, hname⟩ := created_of_makesUnique hmem hu
    exact ⟨hinline, (hcreated.mp (List.mem_filterMap.mpr ⟨s, hs, hname⟩)).1⟩
  · rintro ⟨hinline, habsent⟩
    obtain ⟨s, hs, hname⟩ :=
      List.mem_filterMap.mp (hcreated.mpr ⟨habsent, (settled_of_tables hplan h₁ ht).1⟩)
    obtain ⟨t', ht', met, hmem⟩ := h₁.exists_item hs
    obtain ⟨-, added, -, rfl⟩ | ⟨-, rfl⟩ := Step.mem_statements_table.mp hmem
    · cases hname
    · obtain rfl := hnames t' ht' (Option.some.inj hname)
      refine ⟨_, hs, rfl, ?_⟩
      simp [Table.create, hinline, hperson, huid]

/-! ### The stage of the indexes -/

/-- An index that the policy asks for in the table goes by the name of the unique index, once both
names are fitted. -/
def TakesUniqueName (c : Compiler) (t : Table) : Prop :=
  ∃ i, .createIndex i ∈ policyIndexes c.directory c.config c.policy t ∧
    c.config.backend.fit i.name = c.config.backend.fit (uniqueName t.name)

theorem not_takesUniqueName
    (hfits : (uniqueName t.name).utf8ByteSize ≤ c.config.backend.maxNameLength) :
    ¬ c.TakesUniqueName t := by
  rintro ⟨i, hi, e⟩
  exact fit_ne_uniqueName (isOrdinary_of_mem hi) hfits e

/-- The index plan with what it has for one table; the rest is about other tables. -/
theorem indexPlan_split (c : Compiler) {tables : List Table}
    (hnames : (tables.map Table.name).Nodup) (ht : t ∈ tables) :
    ∃ before after,
      c.indexPlan tables = before ++ policyIndexes c.directory c.config c.policy t ++
        (uniqueIndexes c.config t ++ after) ∧
      ∀ statement ∈ before ++ after, ∃ name, name ≠ t.name ∧ statement.Indexes name := by
  obtain ⟨l₁, l₂, rfl⟩ := List.append_of_mem ht
  refine ⟨l₁.flatMap (forTable c.directory c.config c.policy),
    l₂.flatMap (forTable c.directory c.config c.policy), ?_, fun statement hs => ?_⟩
  · rw [indexPlan, forTables, List.flatMap_append, List.flatMap_cons, forTable_eq,
      List.append_assoc, List.append_assoc]
  · have hs : statement ∈ forTables c.directory c.config c.policy (l₁ ++ l₂) := by
      rwa [forTables, List.flatMap_append]
    obtain ⟨t', ht', hindexes⟩ := exists_indexes_of_mem hs
    refine ⟨t'.name, fun e => ?_, hindexes⟩
    rw [List.map_append, List.map_cons, List.nodup_middle, List.nodup_cons] at hnames
    exact hnames.1 (by rw [← List.map_append, ← e]; exact List.mem_map_of_mem ht')

/-- What the policy asks for in a planned table is there once its stage is past it. -/
theorem settled_of_policyIndexes {indexing : List Statement}
    (ht : (Step.table t).Settled c.config.backend c₂)
    (h₃ : Pass c.config.backend c.config
      ((policyIndexes c.directory c.config c.policy t).map Step.index) c₂ indexing met) :
    ∀ statement ∈ policyIndexes c.directory c.config c.policy t,
      met.holds c.config.backend statement = true := by
  have hordered : Ordered c.config.backend [Step.table t]
      ((policyIndexes c.directory c.config c.policy t).map Step.index) := by
    have hall := ordered_forTable (b := c.config.backend) (List.mem_singleton.mpr rfl)
      c.directory c.config c.policy (t := t)
    rw [forTable_eq, List.map_append] at hall
    exact hall.of_append.1
  intro statement hs
  exact h₃.settled hordered (fun y hy => by rwa [List.mem_singleton.mp hy])
    (Step.index statement) (List.mem_map_of_mem hs)

/-- When the unique index is about to be created, the table has an index of its name if it had one
at the start, or got one by the policy. -/
theorem hasIndex_uniqueName_iff (hplan : c.plan = .ok plan) (ht : t ∈ plan.tables)
    {before : List Statement} {indexing : List Statement}
    (hbefore : ∀ statement ∈ before, statement.table ≠ t.name)
    (h₁ : Pass c.config.backend c.config (plan.tables.map Step.table) start ss₁ c₁)
    (h₂ : Pass c.config.backend c.config
      (plan.subtables.map Step.subtable ++ before.map Step.index) c₁ ss c₂)
    (h₃ : Pass c.config.backend c.config
      ((policyIndexes c.directory c.config c.policy t).map Step.index) c₂ indexing met) :
    met.hasIndex t.name (c.config.backend.fit (uniqueName t.name)) = true ↔
      start.hasIndex t.name (c.config.backend.fit (uniqueName t.name)) = true ∨
        c.TakesUniqueName t := by
  have htable := settled_of_tables hplan h₁ ht
  generalize hfitted : c.config.backend.fit (uniqueName t.name) = fitted
  -- neither the tables nor the steps in between bring an index of the table
  have hspares : ∀ x ∈ plan.subtables.map Step.subtable ++ before.map Step.index,
      x.Spares t.name := by
    intro x hx
    obtain hx | hx := List.mem_append.mp hx
    · obtain ⟨s, -, rfl⟩ := List.mem_map.mp hx
      trivial
    · obtain ⟨statement, hs, rfl⟩ := List.mem_map.mp hx
      exact hbefore statement hs
  have hmet : met.hasIndex t.name fitted = true ↔ start.hasIndex t.name fitted = true ∨
      ∃ i, .createIndex i ∈ indexing ∧ i.table = t.name ∧ i.name = fitted := by
    rw [Catalog.hasIndex_of_applyAll_iff h₃.applyAll, h₂.hasIndex_of_spares hspares htable.1,
      h₁.hasIndex_tables]
  constructor
  · intro h
    refine (hmet.mp h).imp_right ?_
    rintro ⟨j, hj, -, hname⟩
    obtain ⟨statement, hs, cat, hmem⟩ := h₃.exists_item hj
    obtain ⟨-, e⟩ := Step.mem_statements_index.mp hmem
    cases statement with
    | createTable => cases e
    | addColumn => cases e
    | createIndex i =>
      cases e
      exact ⟨i, hs, hname.trans hfitted.symm⟩
  · rintro (hstart | ⟨i, hi, hname⟩)
    · exact hmet.mpr (.inl hstart)
    · have hthere := settled_of_policyIndexes (htable.mono h₂.grows) h₃ _ hi
      have hitable : i.table = t.name := indexes_of_mem_policyIndexes hi
      rw [Catalog.holds, hitable, hname, hfitted] at hthere
      exact hthere

/-- The stage of the unique index makes `uid` unique exactly if there is such an index and the table
has none of its name. -/
theorem exists_makesUnique_uniqueIndexes (hperson : t.name = c.config.personTable)
    (huid : t.column? uid = some column)
    (h₄ : Pass c.config.backend c.config ((uniqueIndexes c.config t).map Step.index) met ss left) :
    (∃ s ∈ ss, s.MakesUnique t.name column.name) ↔ c.config.backend.hasInlineUnique = false ∧
      met.hasIndex t.name (c.config.backend.fit (uniqueName t.name)) = false := by
  rw [uniqueIndexes_eq hperson huid] at h₄
  cases hinline : c.config.backend.hasInlineUnique with
  | true =>
    rw [hinline] at h₄
    cases h₄
    simp
  | false =>
    rw [hinline] at h₄
    cases h₄ with
    | cons _ hnil =>
      cases hnil
      rw [Step.statements, Catalog.holds, CreateIndex.unique]
      cases met.hasIndex t.name (c.config.backend.fit (uniqueName t.name)) with
      | true => simp
      | false => simp [Statement.fitted, Statement.MakesUnique]

/-- Only making the tables and the unique index of the table makes its `uid` unique. -/
theorem exists_makesUnique_append {before after ss₂ ss₃ ss₄ ss₅ : List Statement}
    {c₄ : Catalog}
    (hothers : ∀ statement ∈ before ++ after, ∃ name, name ≠ t.name ∧ statement.Indexes name)
    (h₂ : Pass c.config.backend c.config
      (plan.subtables.map Step.subtable ++ before.map Step.index) c₁ ss₂ c₂)
    (h₃ : Pass c.config.backend c.config
      ((policyIndexes c.directory c.config c.policy t).map Step.index) c₂ ss₃ met)
    (h₅ : Pass c.config.backend c.config (after.map Step.index) c₄ ss₅ left) :
    (∃ s ∈ ss₁ ++ (ss₂ ++ (ss₃ ++ (ss₄ ++ ss₅))), s.MakesUnique t.name column.name) ↔
      (∃ s ∈ ss₁, s.MakesUnique t.name column.name) ∨
        ∃ s ∈ ss₄, s.MakesUnique t.name column.name := by
  have hother : ∀ statement ∈ before ++ after, (∃ name, statement.Indexes name) ∧
      ∀ i, statement = .createIndex i → i.table = t.name → i.kind ≠ .unique := by
    intro statement hs
    obtain ⟨name, hne, hindexes⟩ := hothers statement hs
    refine ⟨⟨name, hindexes⟩, fun i e htable => ?_⟩
    subst e
    exact absurd (hindexes.symm.trans htable) hne
  have hno₂ : ∀ s ∈ ss₂, ¬ s.MakesUnique t.name column.name := by
    obtain ⟨u, _, v, hu, hv, rfl⟩ := h₂.of_append
    intro s hs
    obtain hs | hs := List.mem_append.mp hs
    · obtain ⟨s', -, cat, hmem⟩ := hu.exists_item hs
      exact not_makesUnique_subtable hmem
    · exact hv.not_makesUnique (fun statement hmem => hother _ (List.mem_append_left _ hmem)) s hs
  have hno₃ : ∀ s ∈ ss₃, ¬ s.MakesUnique t.name column.name := by
    refine h₃.not_makesUnique fun statement hs => ⟨⟨t.name, indexes_of_mem_policyIndexes hs⟩, ?_⟩
    rintro i rfl -
    exact (isOrdinary_of_mem hs).kind
  have hno₅ : ∀ s ∈ ss₅, ¬ s.MakesUnique t.name column.name :=
    h₅.not_makesUnique fun statement hmem => hother _ (List.mem_append_right _ hmem)
  constructor
  · rintro ⟨s, hs, hu⟩
    simp only [List.mem_append] at hs
    obtain hs | hs | hs | hs | hs := hs
    · exact .inl ⟨s, hs, hu⟩
    · exact absurd hu (hno₂ s hs)
    · exact absurd hu (hno₃ s hs)
    · exact .inr ⟨s, hs, hu⟩
    · exact absurd hu (hno₅ s hs)
  · rintro (⟨s, hs, hu⟩ | ⟨s, hs, hu⟩)
    · exact ⟨s, by simp [hs], hu⟩
    · exact ⟨s, by simp [hs], hu⟩

/-! ### The whole bootstrap -/

/-- **When `uid` becomes unique.**  A bootstrap of a database in memory that succeeds issues a
statement that makes the `uid` of the person table unique exactly if the table was absent, where
the backend declares it inline; and exactly if the table has no index of the name of the unique one
by then, at the start or by the policy, where it does not.  No index of the policy has that name if
it is not too long for the backend. -/
theorem uid_unique_iff {docs : List SchemaDocument}
    (hdocs : Directory.ofDocuments docs = .ok c.directory) (hplan : c.plan = .ok plan)
    (ht : t ∈ plan.tables) (hperson : t.name = c.config.personTable)
    (huid : t.column? uid = some column) {log : Log τ} {db : Database} {t₀ : τ} {report : Report}
    {p : Progress Database τ} (h : c.bootstrap Database.session log db t₀ = (.ok report, p)) :
    ((∃ s ∈ c.issued Database.session log db t₀, s.MakesUnique t.name column.name) ↔
      if c.config.backend.hasInlineUnique then db.catalog.hasTable t.name = false
      else db.catalog.hasIndex t.name (c.config.backend.fit (uniqueName t.name)) = false ∧
        ¬ c.TakesUniqueName t) ∧
      ((uniqueName t.name).utf8ByteSize ≤ c.config.backend.maxNameLength →
        ¬ c.TakesUniqueName t) := by
  refine ⟨?_, not_takesUniqueName⟩
  have hnodup : (plan.tables.map Table.name).Nodup := by
    refine List.Nodup.of_map Text.lower ?_
    rw [List.map_map]
    exact Plan.nodup_table_names hdocs (Plan.ofDirectory_eq_ok hplan).1
  -- the passes before the unique index, of the unique index, and after it
  obtain ⟨before, after, hsplit, hothers⟩ := indexPlan_split c hnodup ht
  obtain ⟨ss, left, hpass, -⟩ := exists_pass_steps hplan db.catalog
  have hissued := issued_eq hplan h hpass
  have hsteps : c.steps plan = plan.tables.map Step.table ++
      ((plan.subtables.map Step.subtable ++ before.map Step.index) ++
        ((policyIndexes c.directory c.config c.policy t).map Step.index ++
          ((uniqueIndexes c.config t).map Step.index ++ after.map Step.index))) := by
    rw [steps, hsplit]
    simp only [List.map_append, List.append_assoc]
  rw [hsteps] at hpass
  obtain ⟨ss₁, c₁, _, h₁, hrest₁, rfl⟩ := hpass.of_append
  obtain ⟨ss₂, c₂, _, h₂, hrest₂, rfl⟩ := hrest₁.of_append
  obtain ⟨ss₃, met, _, h₃, hrest₃, rfl⟩ := hrest₂.of_append
  obtain ⟨ss₄, c₄, ss₅, h₄, h₅, rfl⟩ := hrest₃.of_append
  have hname := hasIndex_uniqueName_iff hplan ht
    (fun statement hmem => by
      obtain ⟨name, hne, hindexes⟩ := hothers statement (List.mem_append_left _ hmem)
      rwa [hindexes.table_eq]) h₁ h₂ h₃
  rw [hissued, exists_makesUnique_append hothers h₂ h₃ h₅,
    exists_makesUnique_tables hplan (fun t' ht' e => List.inj_on_of_nodup_map hnodup ht' ht e) ht
      hperson huid h₁,
    exists_makesUnique_uniqueIndexes hperson huid h₄, ← Bool.not_eq_true (met.hasIndex _ _), hname,
    not_or, Bool.not_eq_true]
  cases c.config.backend.hasInlineUnique <;> simp

/-- A document with the person class and its `uid`. -/
def personDocument : SchemaDocument where
  attributes := [{ names := ["uid"], size := some 64 }]
  classes := [{ names := ["gluuPerson"], may := ["uid"] }]

/-- The compiler of `personDocument` for a dialect. -/
def persons (dialect : Dialect) : Compiler where
  config := { dialect }
  directory := .ofDefinitions personDocument.attributes personDocument.classes

/-- The table of `personDocument`. -/
def personTable : Table where
  name := "gluuPerson"
  columns := bookkeeping ++ [⟨"uid", .varchar 64⟩]

/-- A database in which the person table is there without the column `uid`. -/
def withoutUid : Database where
  catalog := Catalog.empty.withTable "gluuPerson" ["doc_id", "objectClass", "dn"]

/-- The `uid` that the table gets becomes unique on Spanner, and does not on MySQL. -/
theorem uid_unique_iff_persons :
    (∀ dialect, Directory.ofDocuments [personDocument] = .ok (persons dialect).directory ∧
      (persons dialect).plan = .ok { tables := [personTable] }) ∧
      personTable.column? uid = some ⟨"uid", .varchar 64⟩ ∧
      (∃ s ∈ (persons .spanner).issued Database.session Log.memory withoutUid [],
        s.MakesUnique "gluuPerson" "uid") ∧
      ¬ ∃ s ∈ (persons .mysql).issued Database.session Log.memory withoutUid [],
        s.MakesUnique "gluuPerson" "uid" := by
  have hcompiler : ∀ dialect,
      Directory.ofDocuments [personDocument] = .ok (persons dialect).directory ∧
        (persons dialect).plan = .ok { tables := [personTable] } :=
    fun dialect => by cases dialect <;> exact ⟨rfl, rfl⟩
  have huid : personTable.column? uid = some ⟨"uid", .varchar 64⟩ := rfl
  have hrun : ∀ dialect, ∃ report p,
      (persons dialect).bootstrap Database.session Log.memory withoutUid [] = (.ok report, p) := by
    intro dialect
    obtain ⟨report, ss, left, -, hrun, -⟩ :=
      bootstrap_eq (hcompiler dialect).2 Log.memory_reliable withoutUid []
    exact ⟨report, _, hrun⟩
  obtain ⟨_, _, hspanner⟩ := hrun .spanner
  obtain ⟨_, _, hmysql⟩ := hrun .mysql
  obtain ⟨hiff, hfree⟩ := uid_unique_iff (hcompiler .spanner).1 (hcompiler .spanner).2
    (List.mem_singleton.mpr rfl) rfl huid hspanner
  obtain ⟨hiff', -⟩ := uid_unique_iff (hcompiler .mysql).1 (hcompiler .mysql).2
    (List.mem_singleton.mpr rfl) rfl huid hmysql
  refine ⟨hcompiler, huid, hiff.mpr ⟨rfl, hfree (by decide)⟩, fun hunique => ?_⟩
  have habsent : withoutUid.catalog.hasTable "gluuPerson" = false := hiff'.mp hunique
  exact absurd habsent (by decide)

/-- A person table that is there without its `uid` need not become unique: on MySQL it gets the
column, and nothing else. -/
theorem not_uid_unique :
    ¬ ∀ (docs : List SchemaDocument) (c : Compiler) plan t column (db : Database) report p,
      Directory.ofDocuments docs = .ok c.directory → c.plan = .ok plan → t ∈ plan.tables →
        t.name = c.config.personTable → t.column? uid = some column →
          (db.catalog.hasTable t.name = false ∨
            db.catalog.hasColumn t.name column.name = false ∧
              db.catalog.hasIndex t.name (c.config.backend.fit (uniqueName t.name)) = false) →
            c.bootstrap Database.session Log.memory db [] = (.ok report, p) →
              ∃ s ∈ c.issued Database.session Log.memory db [],
                s.MakesUnique t.name column.name := by
  intro h
  have hplan : (persons .mysql).plan = .ok { tables := [personTable] } := rfl
  obtain ⟨report, ss, left, -, hrun, -⟩ := bootstrap_eq hplan Log.memory_reliable withoutUid []
  have hunique := h [personDocument] (persons .mysql) _ personTable ⟨"uid", .varchar 64⟩
    withoutUid _ _ rfl hplan (List.mem_singleton.mpr rfl) rfl rfl (.inr ⟨rfl, rfl⟩) hrun
  -- all that is issued is the column
  have hissued : (persons .mysql).issued Database.session Log.memory withoutUid [] =
      [.addColumn { table := "gluuPerson", column := { name := "uid", type := .varchar 64 } }] :=
    rfl
  rw [hissued] at hunique
  exact absurd hunique (by decide)

end Compiler

end DirectoryTables
