import DirectoryTables.Proofs.Backend.Fitting
import DirectoryTables.Proofs.Bootstrap.Course
import DirectoryTables.Proofs.Plan.ShadowColumns

/-!
# Bootstrap — Objects

The objects that statements make (`Statement.object`), as a bootstrap asks for them: a column goes by
its name in any letter case, an index by its fitted name.

* `Pass.issues_all_iff`: a bootstrap issues all statements of an index plan exactly if none of their
  objects is there and each of them has an object of its own.
* `Indexing.nodup_objects_iff`: those of a planned table do exactly if no two names of its indexes
  coincide once they are fitted.
-/

namespace DirectoryTables

/-- An object in a database. -/
inductive CatalogObject where
  | table (name : String)
  | column (table name : String)
  | index (table name : String)
  deriving DecidableEq

/-- The object that a statement makes. -/
def Statement.object (b : Backend) : Statement → CatalogObject
  | createTable t => .table t.name
  | addColumn a => .column a.table (Text.lower a.column.name)
  | createIndex i => .index i.table (b.fit i.name)

/-- The table that is the object or has it. -/
def CatalogObject.holder : CatalogObject → String
  | table name => name
  | column holder _ => holder
  | index holder _ => holder

theorem Statement.holder_object (b : Backend) (s : Statement) : (s.object b).holder = s.table := by
  cases s <;> rfl

/-- Once a statement of an index plan is accepted, the objects that were there are there, and its
own. -/
theorem Catalog.holds_of_apply_iff {b : Backend} {c c' : Catalog} {s s' : Statement}
    {table : String} (hs : s.Indexes table) (h : c.apply (s.fitted b) = .ok c') :
    c'.holds b s' = true ↔ c.holds b s' = true ∨ s.object b = s'.object b := by
  cases s' with
  | createTable t =>
    refine (hasTable_of_apply h).trans (or_congr_right ?_)
    cases s with
    | createTable => exact hs.elim
    | addColumn => exact iff_of_false nofun nofun
    | createIndex => exact iff_of_false nofun nofun
  | addColumn a =>
    refine (hasColumn_of_apply_iff h).trans (or_congr_right ?_)
    cases s with
    | createTable => exact hs.elim
    | addColumn => exact (CatalogObject.column.injEq ..).to_iff.symm
    | createIndex => exact iff_of_false id nofun
  | createIndex i =>
    refine (hasIndex_of_apply_iff h).trans (or_congr_right ?_)
    cases s with
    | createTable => exact hs.elim
    | addColumn => exact iff_of_false nofun nofun
    | createIndex => simp [Statement.fitted, Statement.object]

namespace Bootstrap

variable {b : Backend} {cfg : Config} {c c' : Catalog} {statements ss : List Statement}

/-! ### Passes over an index plan -/

/-- What a pass over an index plan issues are statements of the plan in their order, with the names
of indexes fitted. -/
theorem Pass.sublist_fitted (h : Pass b cfg (statements.map Step.index) c ss c') :
    ss.Sublist (statements.map (Statement.fitted b)) := by
  induction statements generalizing c ss with
  | nil =>
    cases h
    exact .slnil
  | cons s statements ih =>
    cases h with
    | cons _ hrest =>
      rw [Step.statements]
      split
      · exact (ih hrest).cons _
      · exact (ih hrest).cons_cons _

/-- No statement is skipped exactly if all are issued. -/
theorem Pass.skipped_eq_zero_iff {skipped : Nat}
    (h : Pass b cfg (statements.map Step.index) c ss c')
    (hlength : skipped + ss.length = statements.length) :
    skipped = 0 ↔ ss = statements.map (Statement.fitted b) := by
  constructor
  · intro hnone
    refine h.sublist_fitted.eq_of_length ?_
    rw [List.length_map, ← hlength, hnone, Nat.zero_add]
  · intro hall
    rw [hall, List.length_map] at hlength
    exact Nat.add_eq_right.mp hlength

/-- **When an index plan is issued as a whole**: exactly if none of its objects is there at the
start, and no two of its statements make the same object. -/
theorem Pass.issues_all_iff (hs : ∀ s ∈ statements, ∃ table, s.Indexes table)
    (h : Pass b cfg (statements.map Step.index) c ss c') :
    ss = statements.map (Statement.fitted b) ↔
      (∀ s ∈ statements, c.holds b s = false) ∧ (statements.map (Statement.object b)).Nodup := by
  induction statements generalizing c ss with
  | nil =>
    cases h
    simp
  | cons s statements ih =>
    cases h with
    | @cons _ _ _ c₁ _ ss' happ hrest =>
      obtain ⟨⟨table, hindexes⟩, hs⟩ := List.forall_mem_cons.mp hs
      rw [Step.statements] at happ ⊢
      cases hb : c.holds b s with
      | true =>
        -- a statement that is left out is missing in what is issued
        rw [if_pos rfl, List.nil_append, List.map_cons]
        refine iff_of_false (fun e => ?_) fun hfresh => ?_
        · have hlength := hrest.sublist_fitted.length_le
          rw [e, List.length_cons] at hlength
          exact Nat.not_succ_le_self _ hlength
        · exact Bool.noConfusion (hb.symm.trans (hfresh.1 s List.mem_cons_self))
      | false =>
        rw [hb, if_neg Bool.false_ne_true, Catalog.applyAll_singleton] at happ
        have hheld : ∀ s', c₁.holds b s' = false ↔
            c.holds b s' = false ∧ s.object b ≠ s'.object b := fun s' => by
          rw [← Bool.not_eq_true, Catalog.holds_of_apply_iff hindexes happ, not_or,
            Bool.not_eq_true]
        rw [if_neg Bool.false_ne_true, List.singleton_append, List.map_cons, List.map_cons,
          List.cons.injEq, and_iff_right rfl, ih hs hrest, List.nodup_cons, List.forall_mem_cons,
          and_iff_right hb]
        simp only [hheld, List.mem_map, not_exists, not_and, forall_and]
        constructor
        · rintro ⟨⟨hfree, hother⟩, hnodup⟩
          exact ⟨hfree, fun s' hs' e => hother s' hs' e.symm, hnodup⟩
        · rintro ⟨hfree, hother, hnodup⟩
          exact ⟨⟨hfree, fun s' hs' e => hother s' hs' e.symm⟩, hnodup⟩

/-- The statements of an index plan are those that are issued and those that are skipped. -/
theorem skipped_add_length {schema : SchemaReport} {indexes : IndexReport}
    {making indexing : List Statement} (h : Accounts schema indexes making indexing)
    (hnone : indexing.filterMap Statement.createdTable? = []) :
    indexes.skipped + indexing.length = indexes.count := by
  rw [IndexReport.count, h.created, h.shadowColumns, Statement.length_eq, hnone, List.length_map,
    List.length_nil]
  omega

end Bootstrap

namespace Indexing

open Statement

variable {b : Backend} {d : Directory} {c : Config} {policy : Policy} {t : Table}

/-! ### The objects of an index plan -/

/-- Among statements that index one table, a column is added again exactly if another one of its name
is, letter case aside. -/
theorem mem_map_object_addColumn_iff {ss : List Statement} {a : AddColumn}
    (h : ∀ s ∈ ss, s.Indexes a.table) :
    object b (.addColumn a) ∈ ss.map (object b) ↔
      Text.lower a.column.name ∈ (ss.filterMap addedColumn?).map (Text.lower ∘ Prod.snd) := by
  simp only [List.mem_map, List.mem_filterMap]
  constructor
  · rintro ⟨s, hs, e⟩
    cases s with
    | addColumn added => exact ⟨_, ⟨_, hs, rfl⟩, (CatalogObject.column.inj e).2⟩
    | createTable | createIndex => cases e
  · rintro ⟨_, ⟨s, hs, hadded⟩, e⟩
    cases s with
    | addColumn added =>
      cases hadded
      exact ⟨_, hs, congrArg₂ CatalogObject.column (h _ hs) e⟩
    | createTable | createIndex => cases hadded

/-- Among statements that index one table, an index is created again exactly if another one of its
fitted name is. -/
theorem mem_map_object_createIndex_iff {ss : List Statement} {i : CreateIndex}
    (h : ∀ s ∈ ss, s.Indexes i.table) :
    object b (.createIndex i) ∈ ss.map (object b) ↔
      b.fit i.name ∈ (ss.filterMap createdIndex?).map b.fit := by
  simp only [List.mem_map, List.mem_filterMap]
  constructor
  · rintro ⟨s, hs, e⟩
    cases s with
    | createIndex created => exact ⟨_, ⟨_, hs, rfl⟩, (CatalogObject.index.inj e).2⟩
    | createTable | addColumn => cases e
  · rintro ⟨_, ⟨s, hs, hcreated⟩, e⟩
    cases s with
    | createIndex created =>
      cases hcreated
      exact ⟨_, hs, congrArg₂ CatalogObject.index (h _ hs) e⟩
    | createTable | addColumn => cases hcreated

/-- The objects of statements that index one table are different if its new columns are, letter case
aside, and its new indexes, under their fitted names. -/
theorem nodup_map_object_iff {ss : List Statement} {table : String}
    (h : ∀ s ∈ ss, s.Indexes table) :
    (ss.map (object b)).Nodup ↔
      ((ss.filterMap addedColumn?).map (Text.lower ∘ Prod.snd)).Nodup ∧
        ((ss.filterMap createdIndex?).map b.fit).Nodup := by
  induction ss with
  | nil => simp
  | cons s ss ih =>
    obtain ⟨hs, hss⟩ := List.forall_mem_cons.mp h
    rw [List.map_cons, List.nodup_cons, ih hss]
    cases s with
    | createTable => exact hs.elim
    | addColumn a =>
      obtain rfl : a.table = table := hs
      have hcons : (Statement.addColumn a :: ss).filterMap addedColumn? =
          (a.table, a.column.name) :: ss.filterMap addedColumn? := rfl
      rw [mem_map_object_addColumn_iff hss, hcons, List.map_cons, List.nodup_cons]
      exact and_assoc.symm
    | createIndex i =>
      obtain rfl : i.table = table := hs
      have hcons : (Statement.createIndex i :: ss).filterMap createdIndex? =
          i.name :: ss.filterMap createdIndex? := rfl
      rw [mem_map_object_createIndex_iff hss, hcons, List.map_cons, List.nodup_cons]
      exact and_left_comm

/-- **The objects of a table's index plan are different** exactly if no two names of its indexes
coincide once they are fitted. -/
theorem nodup_objects_iff (h : t.HasDistinctColumns) :
    ((forTable d c policy t).map (object b)).Nodup ↔
      ∀ x ∈ indexNames d c policy t, ∀ y ∈ indexNames d c policy t, ¬ b.Coincide x y := by
  have hshadows := nodup_shadowNames d c policy h
  rw [shadowNames, List.map_map] at hshadows
  rw [nodup_map_object_iff fun _ => indexes_of_mem_forTable, and_iff_right hshadows, ← indexNames,
    List.nodup_map_iff_inj_on ((nodup_indexNames d c policy h).of_map _)]
  refine forall₂_congr fun x _ => forall₂_congr fun y _ => ?_
  rw [Backend.fit_eq_fit_iff]
  exact ⟨fun hfit hcoincide => hcoincide.ne (hfit (.inr hcoincide)),
    fun hapart h => h.resolve_right hapart⟩

/-- Statements that index different tables make different objects. -/
theorem nodup_objects_forTables_iff {tables : List Table} (h : (tables.map Table.name).Nodup) :
    ((forTables d c policy tables).map (object b)).Nodup ↔
      ∀ t ∈ tables, ((forTable d c policy t).map (object b)).Nodup := by
  rw [forTables, List.map_flatMap, List.nodup_flatMap, and_iff_left]
  refine (List.pairwise_map.mp h).imp fun {t t'} hne => ?_
  intro made hmade hmade'
  obtain ⟨s, hs, rfl⟩ := List.mem_map.mp hmade
  obtain ⟨s', hs', e⟩ := List.mem_map.mp hmade'
  have htable : s'.table = s.table := by rw [← holder_object b, e, holder_object]
  rw [(indexes_of_mem_forTable hs).table_eq, (indexes_of_mem_forTable hs').table_eq] at htable
  exact hne htable.symm

end Indexing

end DirectoryTables
