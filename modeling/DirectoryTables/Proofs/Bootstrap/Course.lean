import DirectoryTables.Proofs.Bootstrap.Planned
import DirectoryTables.Proofs.Catalog.Changes
import DirectoryTables.Proofs.Plan.Indexes

/-!
# Bootstrap — Course

The migrations of a bootstrap, part by part.  The course of each is the pass of its steps
(`course_of_pass`), and its report lists what the statements of each stage do (`Accounts`); where
every step is settled, it issues nothing and reports that nothing was done (`course_of_settled`).
-/

namespace DirectoryTables

/-! ### Reports -/

/-- What became of a table is what the statements issued for it do. -/
structure TableChange.Tells (change : TableChange) (ss : List Statement) : Prop where
  created : (if change.created then [change.table] else []) =
    ss.filterMap Statement.createdTable?
  added : change.added.map (change.table, ·) = ss.filterMap Statement.addedColumn?

/-- A report on changes lists what the statements of all of them do. -/
theorem SchemaReport.ofChanges_of_tells (plan : Plan) {changes : List TableChange}
    {parts : List (List Statement)} (h : List.Forall₂ TableChange.Tells changes parts) :
    (ofChanges plan changes).createdTables = parts.flatten.filterMap Statement.createdTable? ∧
      (ofChanges plan changes).addedColumns =
        parts.flatten.filterMap Statement.addedColumn? := by
  induction h with
  | nil => exact ⟨rfl, rfl⟩
  | @cons change part _ _ htells _ ih =>
    rw [List.flatten_cons, List.filterMap_append, List.filterMap_append, ← ih.1, ← ih.2,
      ← htells.created, ← htells.added]
    refine ⟨?_, rfl⟩
    simp only [ofChanges, List.filter_cons]
    split <;> rfl

/-- The reports list what the statements do: those that make the tables, and those that index
them. -/
structure Accounts (schema : SchemaReport) (indexes : IndexReport)
    (making indexing : List Statement) : Prop where
  createdTables : schema.createdTables = making.filterMap Statement.createdTable?
  addedColumns : schema.addedColumns = making.filterMap Statement.addedColumn?
  created : indexes.created = indexing.filterMap Statement.createdIndex?
  shadowColumns : indexes.shadowColumns = (indexing.filterMap Statement.addedColumn?).map Prod.snd

/-- Where nothing became of any part, nothing is reported but the plan. -/
theorem SchemaReport.ofChanges_of_unchanged {plan : Plan} {changes : List TableChange}
    (h : ∀ change ∈ changes, change.created = false ∧ change.added = []) :
    ofChanges plan changes = { tables := plan.tables, subtables := plan.subtables } := by
  have hcreated : changes.filter (·.created) = [] :=
    List.filter_eq_nil_iff.mpr fun change hc => by simp [(h change hc).1]
  have hadded : changes.flatMap (fun change => change.added.map (change.table, ·)) = [] :=
    List.flatMap_eq_nil_iff.mpr fun change hc => by simp [(h change hc).2]
  rw [ofChanges, hcreated, hadded]
  rfl

namespace IndexReport

/-- How many statements the report accounts for. -/
def count (r : IndexReport) : Nat :=
  r.created.length + r.shadowColumns.length + r.skipped

theorem count_add {b : Backend} {r : IndexReport} {statement : Statement} {table : String}
    {issued : Bool} (h : statement.Indexes table) :
    (r.add b statement issued).count = r.count + 1 := by
  cases issued with
  | false => rfl
  | true =>
    cases statement with
    | createTable => exact h.elim
    | addColumn =>
      simp only [add, count, if_true, List.length_append, List.length_singleton]
      omega
    | createIndex =>
      simp only [add, count, if_true, List.length_append, List.length_singleton]
      omega

end IndexReport

namespace Bootstrap

open Migration

variable {b : Backend} {cfg : Config} {c c' : Catalog}

/-! ### Single statements -/

theorem course_createTableIfAbsent {t : CreateTable} (h : c.hasTable t.name = false)
    (ht : c.apply (.createTable t) = .ok c') :
    Course (createTableIfAbsent t) c [.createTable t] true c' := by
  refine .askTable ?_
  rw [h]
  exact .issue ht (.done true c')

theorem course_of_hasTable {t : CreateTable} (h : c.hasTable t.name = true) :
    Course (createTableIfAbsent t) c [] false c := by
  refine .askTable ?_
  rw [h]
  exact .done false c

theorem course_createIndexIfAbsent {i : CreateIndex} (h : c.holds b (.createIndex i) = false)
    (hi : c.apply ((Statement.createIndex i).fitted b) = .ok c') :
    Course (createIndexIfAbsent b i) c [(Statement.createIndex i).fitted b] true c' := by
  refine .askIndex ?_
  rw [show c.hasIndex i.table (b.fit i.name) = false from h]
  exact .issue hi (.done true c')

theorem course_hasColumn {table column : String} {present : Bool}
    (h : c.hasColumn table column = present) :
    Course (Migration.hasColumn table column) c [] present c := by
  subst h
  exact .askColumns (.done _ c)

theorem course_applyIfAbsent {statement : Statement}
    (h : c.applyAll ((Step.index statement).statements b cfg c) = .ok c') :
    Course (applyIfAbsent b statement) c ((Step.index statement).statements b cfg c)
      (!c.holds b statement) c' := by
  cases hb : c.holds b statement with
  | true =>
    rw [Step.statements, if_pos hb] at h ⊢
    cases h
    cases statement with
    | createTable t => exact course_of_hasTable hb
    | addColumn a => exact (course_hasColumn hb).bind (.done _ _)
    | createIndex i =>
      refine .askIndex ?_
      rw [show c.hasIndex i.table (b.fit i.name) = true from hb]
      exact .done _ _
  | false =>
    rw [Step.statements, if_neg (by simp [hb])] at h ⊢
    rw [Catalog.applyAll_singleton] at h
    cases statement with
    | createTable t => exact course_createTableIfAbsent hb h
    | addColumn a => exact (course_hasColumn hb).bind (.issue h (.done _ _))
    | createIndex i => exact course_createIndexIfAbsent hb h

/-! ### Tables and subtables -/

/-- What becomes of a table or a subtable with the given columns. -/
def change (c : Catalog) (table : String) (columns : List Column) : TableChange :=
  if c.hasTable table then { table, added := (c.missing table columns).map Column.name }
  else { table, created := true }

theorem tells_additions (table : String) (columns : List Column) :
    TableChange.Tells { table, added := columns.map Column.name }
      (Catalog.additions table columns) where
  created := by simp [Catalog.additions, Function.comp_def, Statement.createdTable?]
  added := by
    simp [Catalog.additions, Function.comp_def, Statement.addedColumn?, Column.declaration]

theorem tells_table (b : Backend) (cfg : Config) (c : Catalog) (t : Table) :
    (change c t.name t.columns).Tells ((Step.table t).statements b cfg c) := by
  rw [change, Step.statements]
  split
  · exact tells_additions _ _
  · exact ⟨rfl, rfl⟩

theorem tells_subtable (b : Backend) (cfg : Config) (c : Catalog) (s : Subtable) :
    (change c s.name [s.values]).Tells ((Step.subtable s).statements b cfg c) := by
  rw [change, Step.statements]
  split
  · exact tells_additions _ _
  · exact ⟨rfl, rfl⟩

theorem change_of_settled {table : String} {columns : List Column} (h : c.hasTable table = true)
    (hc : ∀ column ∈ columns, c.hasColumn table column.name = true) :
    (change c table columns).created = false ∧ (change c table columns).added = [] := by
  rw [change, if_pos h, Catalog.missing_eq_nil_iff.mpr hc]
  exact ⟨rfl, rfl⟩

theorem course_addMissing {table : String} {present : List String} {columns : List Column}
    (h : c.applyAll (Catalog.additions table
      (columns.filter fun column => !Text.listsName present column.name)) = .ok c') :
    Course (addMissing table present columns) c (Catalog.additions table
        (columns.filter fun column => !Text.listsName present column.name))
      ((columns.filter fun column => !Text.listsName present column.name).map Column.name) c' := by
  induction columns generalizing c with
  | nil => cases h; exact .done _ _
  | cons column columns ih =>
    rw [addMissing]
    cases hp : Text.listsName present column.name with
    | true =>
      rw [List.filter_cons_of_neg (by simp [hp])] at h ⊢
      exact ih h
    | false =>
      rw [List.filter_cons_of_pos (by simp [hp])] at h ⊢
      obtain ⟨c₁, h₁, h₂⟩ := Catalog.applyAll_cons_eq_ok_iff.mp h
      exact .issue h₁ ((ih h₂).map (column.name :: ·))

theorem course_materializeTable {t : Table}
    (h : c.applyAll ((Step.table t).statements b cfg c) = .ok c') :
    Course (materializeTable b cfg t) c ((Step.table t).statements b cfg c)
      (change c t.name t.columns) c' := by
  rw [materializeTable]
  cases ht : c.hasTable t.name with
  | true =>
    rw [change, if_pos ht]
    rw [Step.statements, if_pos ht] at h ⊢
    have hask : Course (createTableIfAbsent (t.create b cfg.personTable)) c [] false c :=
      course_of_hasTable ht
    have hadd := (course_addMissing h).map fun added => ({ table := t.name, added } : TableChange)
    exact hask.bind (.askColumns hadd)
  | false =>
    rw [change, if_neg (by simp [ht])]
    rw [Step.statements, if_neg (by simp [ht])] at h ⊢
    rw [Catalog.applyAll_singleton] at h
    have hcreate : Course (createTableIfAbsent (t.create b cfg.personTable)) c
        [.createTable (t.create b cfg.personTable)] true c' := course_createTableIfAbsent ht h
    exact hcreate.bind (.done _ _)

theorem course_materializeSubtable {s : Subtable}
    (h : c.applyAll ((Step.subtable s).statements b cfg c) = .ok c') :
    Course (materializeSubtable b cfg s) c ((Step.subtable s).statements b cfg c)
      (change c s.name [s.values]) c' := by
  rw [materializeSubtable]
  cases hs : c.hasTable s.name with
  | true =>
    rw [change, if_pos hs]
    rw [Step.statements, if_pos hs] at h ⊢
    have hask : Course (createTableIfAbsent s.create) c [] false c := course_of_hasTable hs
    rw [Catalog.missing] at h ⊢
    cases hv : c.hasColumn s.name s.valueColumn with
    | true =>
      rw [List.filter_cons_of_neg (by simp [Subtable.values, hv])] at h ⊢
      cases h
      exact hask.bind ((course_hasColumn hv).bind (.done _ _))
    | false =>
      rw [List.filter_cons_of_pos (by simp [Subtable.values, hv])] at h ⊢
      obtain ⟨c₁, h₁, hnil⟩ := Catalog.applyAll_cons_eq_ok_iff.mp h
      cases hnil
      exact hask.bind ((course_hasColumn hv).bind (.issue h₁ (.done _ _)))
  | false =>
    rw [change, if_neg (by simp [hs])]
    rw [Step.statements, if_neg (by simp [hs])] at h ⊢
    obtain ⟨c₁, h₁, h₂⟩ := Catalog.applyAll_cons_eq_ok_iff.mp h
    rw [Catalog.applyAll_singleton] at h₂
    have hcreate : Course (createTableIfAbsent s.create) c [.createTable s.create] true c₁ :=
      course_createTableIfAbsent hs h₁
    have hno : c₁.holds b (.createIndex (s.index b cfg.textPrefixLength)) = false := by
      obtain ⟨t, ht, hi, -, -⟩ := Catalog.createIndex_eq_ok_iff.mp h₂
      rw [Catalog.holds, Catalog.hasIndex_of_table? ht]
      exact hi
    exact hcreate.bind ((course_createIndexIfAbsent hno h₂).bind (.done _ _))

/-! ### Several parts -/

section Parts

variable {ι α : Type} {f : ι → Migration α} {step : ι → Step} {result : Catalog → ι → α}
  {xs : List ι} {ss : List Statement}

variable (hf : ∀ i c c', c.applyAll ((step i).statements b cfg c) = .ok c' →
  Course (f i) c ((step i).statements b cfg c) (result c i) c')
include hf

/-- Parts whose courses are those of steps, in sequence.  What relates the result of each step to
its statements relates the results to the parts of the statements that were issued. -/
theorem course_mapM {R : α → List Statement → Prop}
    (hR : ∀ c i, R (result c i) ((step i).statements b cfg c))
    (h : Pass b cfg (xs.map step) c ss c') :
    ∃ as parts, Course (xs.mapM f) c ss as c' ∧ ss = parts.flatten ∧ List.Forall₂ R as parts := by
  induction xs generalizing c ss with
  | nil => cases h; exact ⟨[], [], .done [] _, rfl, .nil⟩
  | cons i xs ih =>
    cases h with
    | cons h t =>
      obtain ⟨as, parts, ht, rfl, hrel⟩ := ih t
      rw [List.mapM_cons]
      exact ⟨_, _, (hf i _ _ h).bind (ht.map (result c i :: ·)), List.flatten_cons.symm,
        .cons (hR c i) hrel⟩

theorem course_mapM_of_settled (h : ∀ i ∈ xs, (step i).Settled b c) :
    Course (xs.mapM f) c [] (xs.map (result c)) c := by
  refine Course.mapM_nil fun i hi => ?_
  have hs : (step i).statements b cfg c = [] := Step.statements_of_settled (h i hi)
  have hcourse := hf i c c (by rw [hs]; rfl)
  rwa [hs] at hcourse

end Parts

/-- One more statement is listed as what it does, if it was issued. -/
theorem add_lists (b : Backend) (cfg : Config) (c : Catalog) (r : IndexReport)
    (statement : Statement) :
    (r.add b statement (!c.holds b statement)).created = r.created ++
        ((Step.index statement).statements b cfg c).filterMap Statement.createdIndex? ∧
      (r.add b statement (!c.holds b statement)).shadowColumns = r.shadowColumns ++
        (((Step.index statement).statements b cfg c).filterMap Statement.addedColumn?).map
          Prod.snd := by
  rw [Step.statements]
  cases c.holds b statement with
  | true => exact ⟨(List.append_nil _).symm, (List.append_nil _).symm⟩
  | false =>
    cases statement with
    | createTable => exact ⟨(List.append_nil _).symm, (List.append_nil _).symm⟩
    | addColumn => exact ⟨(List.append_nil _).symm, rfl⟩
    | createIndex => exact ⟨rfl, (List.append_nil _).symm⟩

/-- The reports of the statements of an index plan account for each of them, and list what those
that were issued do. -/
theorem course_indexes {statements ss : List Statement} {r : IndexReport}
    (h : Pass b cfg (statements.map Step.index) c ss c')
    (hs : ∀ statement ∈ statements, ∃ table, statement.Indexes table) :
    ∃ r', Course (statements.foldlM (fun report statement => do
        return report.add b statement (← Migration.applyIfAbsent b statement)) r) c ss r' c' ∧
      r'.count = r.count + statements.length ∧
      r'.created = r.created ++ ss.filterMap Statement.createdIndex? ∧
      r'.shadowColumns = r.shadowColumns ++ (ss.filterMap Statement.addedColumn?).map Prod.snd := by
  induction statements generalizing c ss r with
  | nil => cases h; exact ⟨r, .done r _, rfl, (List.append_nil _).symm, (List.append_nil _).symm⟩
  | cons statement statements ih =>
    cases h with
    | cons h t =>
      obtain ⟨table, ht⟩ := hs statement List.mem_cons_self
      have hstep := (course_applyIfAbsent h).map (r.add b statement ·)
      obtain ⟨hcreated, hshadow⟩ := add_lists b cfg c r statement
      obtain ⟨r', hr', hcount, hcreated', hshadow'⟩ :=
        ih (r := r.add b statement (!c.holds b statement)) t
          fun other ho => hs other (List.mem_cons_of_mem _ ho)
      refine ⟨r', ?_, ?_, ?_, ?_⟩
      · rw [List.foldlM_cons]
        exact hstep.bind hr'
      · rw [hcount, IndexReport.count_add ht, List.length_cons]
        omega
      · rw [hcreated', hcreated, List.filterMap_append, List.append_assoc]
      · rw [hshadow', hshadow, List.filterMap_append, List.map_append, List.append_assoc]

theorem course_indexes_of_settled {statements : List Statement} {r : IndexReport}
    (h : ∀ statement ∈ statements, c.holds b statement = true) :
    Course (statements.foldlM (fun report statement => do
        return report.add b statement (← Migration.applyIfAbsent b statement)) r) c []
      { r with skipped := r.skipped + statements.length } c := by
  induction statements generalizing r with
  | nil => exact .done _ c
  | cons statement statements ih =>
    have hb : c.holds b statement = true := h statement List.mem_cons_self
    have hs : (Step.index statement).statements b {} c = [] := Step.statements_of_settled hb
    have hstep : Course (applyIfAbsent b statement) c ((Step.index statement).statements b {} c)
        (!c.holds b statement) c := course_applyIfAbsent (by rw [hs]; rfl)
    rw [hs, hb] at hstep
    have ht := ih (r := r.add b statement false) fun other ho => h other (List.mem_cons_of_mem _ ho)
    have hr : ({ r.add b statement false with
        skipped := (r.add b statement false).skipped + statements.length } : IndexReport) =
          { r with skipped := r.skipped + (statements.length + 1) } := by
      simp [IndexReport.add, Nat.add_assoc, Nat.add_comm 1]
    rw [hr] at ht
    rw [List.foldlM_cons]
    exact (hstep.map (r.add b statement ·)).bind ht

end Bootstrap

/-! ### The course of a bootstrap -/

namespace Compiler

open Bootstrap

variable {c : Compiler} {plan : Plan} {start left : Catalog} {ss : List Statement}

/-- A bootstrap leaves the session as its migration does; flushing the log comes after. -/
theorem bootstrap_session {σ τ : Type} (hplan : c.plan = .ok plan) (session : Session σ)
    (log : Log τ) (s : σ) (t : τ) :
    (c.bootstrap session log s t).2.session = ((c.migration plan).run c.config.backend session log
      { session := s, log := t }).2.session := by
  simp only [bootstrap, hplan]
  rcases (c.migration plan).run c.config.backend session log { session := s, log := t } with
    ⟨_ | _, p⟩
  · rfl
  · cases h : (log.flush p.log).1 <;> simp [h]

/-- The course of a bootstrap is made of the passes of its three stages, and its reports list what
their statements do. -/
theorem course_of_passes {c₁ c₂ : Catalog} {ss₁ ss₂ ss₃ : List Statement}
    (h₁ : Pass c.config.backend c.config (plan.tables.map Step.table) start ss₁ c₁)
    (h₂ : Pass c.config.backend c.config (plan.subtables.map Step.subtable) c₁ ss₂ c₂)
    (h₃ : Pass c.config.backend c.config ((c.indexPlan plan.tables).map Step.index) c₂ ss₃ left) :
    ∃ changes indexes, Migration.Course (c.migration plan) start (ss₁ ++ ss₂ ++ ss₃)
        (.ofChanges plan changes, indexes) left ∧
      indexes.count = (c.indexPlan plan.tables).length ∧
      Accounts (.ofChanges plan changes) indexes (ss₁ ++ ss₂) ss₃ := by
  obtain ⟨tables, parts₁, htables, hparts₁, htells₁⟩ :=
    course_mapM (fun _ _ _ => course_materializeTable) (fun cat t => tells_table _ _ cat t) h₁
  obtain ⟨subtables, parts₂, hsubtables, hparts₂, htells₂⟩ :=
    course_mapM (fun _ _ _ => course_materializeSubtable) (fun cat s => tells_subtable _ _ cat s) h₂
  obtain ⟨indexes, hindexes, hcount, hcreated, hshadow⟩ :=
    course_indexes (r := {}) h₃ fun statement hs => by
      obtain ⟨t, -, ht⟩ := Indexing.exists_indexes_of_mem hs
      exact ⟨t.name, ht⟩
  have hschema : Migration.Course (c.materialize plan) start (ss₁ ++ ss₂)
      (.ofChanges plan (tables ++ subtables)) c₂ :=
    htables.bind (hsubtables.map fun subtables => SchemaReport.ofChanges plan (tables ++ subtables))
  have hparts : ss₁ ++ ss₂ = (parts₁ ++ parts₂).flatten := by
    rw [List.flatten_append, ← hparts₁, ← hparts₂]
  obtain ⟨hmade, hadded⟩ := SchemaReport.ofChanges_of_tells plan
    (List.rel_append htells₁ htells₂)
  refine ⟨tables ++ subtables, indexes, hschema.bind (hindexes.map (_, ·)), ?_, ?_⟩
  · rw [hcount]
    exact Nat.zero_add _
  · rw [← hparts] at hmade hadded
    exact ⟨hmade, hadded, hcreated, hshadow⟩

/-- **The course of a bootstrap is the pass of its steps**, and its report accounts for every
statement of the index plan. -/
theorem course_of_pass (h : Pass c.config.backend c.config (c.steps plan) start ss left) :
    ∃ changes indexes, Migration.Course (c.migration plan) start ss
        (.ofChanges plan changes, indexes) left ∧
      indexes.count = (c.indexPlan plan.tables).length := by
  obtain ⟨ss₁₂, c₂, ss₃, h₁₂, h₃, rfl⟩ := h.of_append
  obtain ⟨ss₁, c₁, ss₂, h₁, h₂, rfl⟩ := h₁₂.of_append
  obtain ⟨changes, indexes, hcourse, hcount, -⟩ := course_of_passes h₁ h₂ h₃
  exact ⟨changes, indexes, hcourse, hcount⟩

/-- **Where every step is settled, nothing is done**: no statement is issued, and the report lists
nothing but the statements of the index plan, as skipped. -/
theorem course_of_settled (h : ∀ x ∈ c.steps plan, x.Settled c.config.backend start) :
    Migration.Course (c.migration plan) start []
      ({ tables := plan.tables, subtables := plan.subtables },
        { skipped := (c.indexPlan plan.tables).length }) start := by
  have ht : ∀ t ∈ plan.tables, (Step.table t).Settled c.config.backend start := fun t ht =>
    h _ (List.mem_append_left _ (List.mem_append_left _ (List.mem_map_of_mem ht)))
  have hs : ∀ s ∈ plan.subtables, (Step.subtable s).Settled c.config.backend start := fun s hs =>
    h _ (List.mem_append_left _ (List.mem_append_right _ (List.mem_map_of_mem hs)))
  have hi : ∀ statement ∈ c.indexPlan plan.tables, start.holds c.config.backend statement = true :=
    fun statement hs => h _ (List.mem_append_right _ (List.mem_map_of_mem hs))
  have htables : Migration.Course
      (plan.tables.mapM (materializeTable c.config.backend c.config)) start [] _ start :=
    course_mapM_of_settled (fun _ _ _ => course_materializeTable) ht
  have hsubtables : Migration.Course
      (plan.subtables.mapM (materializeSubtable c.config.backend c.config)) start [] _ start :=
    course_mapM_of_settled (fun _ _ _ => course_materializeSubtable) hs
  have hindexes := course_indexes_of_settled (r := {}) hi
  rw [Nat.zero_add] at hindexes
  have hunchanged : ∀ done ∈ plan.tables.map (fun t => change start t.name t.columns) ++
      plan.subtables.map (fun s => change start s.name [s.values]),
      done.created = false ∧ done.added = [] := by
    intro done hdone
    obtain hd | hd := List.mem_append.mp hdone
    · obtain ⟨t, hmem, rfl⟩ := List.mem_map.mp hd
      exact change_of_settled (ht t hmem).1 (ht t hmem).2
    · obtain ⟨s, hmem, rfl⟩ := List.mem_map.mp hd
      refine change_of_settled (Catalog.hasTable_of_hasColumn (hs s hmem)) fun column hc => ?_
      obtain rfl := List.mem_singleton.mp hc
      exact hs s hmem
  have hschema : Migration.Course (c.materialize plan) start [] _ start :=
    htables.bind (hsubtables.map fun subtables => SchemaReport.ofChanges plan (_ ++ subtables))
  rw [SchemaReport.ofChanges_of_unchanged hunchanged] at hschema
  exact hschema.bind (hindexes.map (_, ·))

end Compiler

end DirectoryTables
