import DirectoryTables.Proofs.Bootstrap.Pass

/-!
# Bootstrap — Planned

The steps of a plan (`Compiler.steps`), in the order in which a bootstrap takes them.  Whatever the
directory and the policy, they are in order (`ordered_steps`): a subtable comes after its parent,
and an index after the columns of its key.
-/

namespace DirectoryTables

open Bootstrap

/-- The steps for a plan: its tables, its subtables, and the statements that index its tables. -/
def Compiler.steps (c : Compiler) (plan : Plan) : List Step :=
  plan.tables.map Step.table ++ plan.subtables.map Step.subtable ++
    (c.indexPlan plan.tables).map Step.index

/-- A step of a plan is for one of its tables, for one of its subtables, or for a statement that
indexes its tables. -/
theorem Compiler.mem_steps_iff {c : Compiler} {plan : Plan} {x : Step} :
    x ∈ c.steps plan ↔ (∃ t ∈ plan.tables, Step.table t = x) ∨
      (∃ s ∈ plan.subtables, Step.subtable s = x) ∨
      ∃ statement ∈ c.indexPlan plan.tables, Step.index statement = x := by
  simp only [steps, List.mem_append, List.mem_map, or_assoc]

/-! ### The statements that index a table -/

namespace Indexing

variable {b : Backend} {before : List Step} {t : Table}

theorem ordered_functionalIndexes (h : Step.table t ∈ before) (b' : Backend) (p : DialectPolicy)
    (column : String) :
    Ordered b before ((functionalIndexes b' p t.name column).map Step.index) := by
  refine .of_forall fun x hx c hc => ?_
  obtain ⟨statement, hs, rfl⟩ := List.mem_map.mp hx
  obtain ⟨⟨template, position⟩, -, rfl⟩ := List.mem_map.mp hs
  exact Catalog.supports_expression (hc _ h).1

/-- A shadow column relies on its table, and its index on the shadow column, which is the step
before. -/
theorem ordered_shadowIndexes (h : Step.table t ∈ before) (b' : Backend) (c : Config)
    (column : String) :
    Ordered b before ((shadowIndexes b' c t.name column).map Step.index) := by
  rw [shadowIndexes, List.map_flatMap]
  refine .flatMap fun position _ => ?_
  refine ⟨fun c hc => (hc _ h).1, fun c hc => ?_, trivial⟩
  exact Catalog.supports_plain (hc _ List.mem_cons_self)

theorem ordered_columnIndexes (h : Step.table t ∈ before) (d : Directory) (c : Config)
    (p : DialectPolicy) {column : Column} (hcolumn : column ∈ t.columns) :
    Ordered b before ((columnIndexes d c p t.name column).map Step.index) := by
  rw [columnIndexes]
  split
  · trivial
  · split
    · rw [jsonIndexes]
      split
      · exact ordered_functionalIndexes h _ _ _
      · exact ordered_shadowIndexes h _ _ _
      · trivial
    · exact ⟨fun c hc => Catalog.supports_plain ((hc _ h).2 column hcolumn), trivial⟩

theorem ordered_customIndexes (h : Step.table t ∈ before) (p : DialectPolicy) :
    Ordered b before ((customIndexes p t.name).map Step.index) := by
  refine .of_forall fun x hx c hc => ?_
  obtain ⟨statement, hs, rfl⟩ := List.mem_map.mp hx
  obtain ⟨⟨sql, position⟩, -, rfl⟩ := List.mem_map.mp hs
  exact Catalog.supports_expression (hc _ h).1

theorem ordered_uniqueIndexes (h : Step.table t ∈ before) (c : Config) :
    Ordered b before ((uniqueIndexes c t).map Step.index) := by
  rw [uniqueIndexes]
  split
  · cases hu : t.column? uid with
    | none => trivial
    | some column =>
      have hcolumn : column ∈ t.columns := List.mem_of_find?_eq_some hu
      exact ⟨fun c hc => Catalog.supports_unique ((hc _ h).2 column hcolumn), trivial⟩
  · trivial

theorem ordered_forTable (h : Step.table t ∈ before) (d : Directory) (c : Config)
    (policy : Policy) : Ordered b before ((forTable d c policy t).map Step.index) := by
  rw [forTable, List.map_append, List.map_append, List.map_flatMap]
  have hcolumns : Ordered b before (t.columns.flatMap fun column =>
      (columnIndexes d c (policy.forDialect c.dialect) t.name column).map Step.index) :=
    .flatMap fun column hcolumn => ordered_columnIndexes h d c _ hcolumn
  have hcustom := ordered_customIndexes (b := b) h (policy.forDialect c.dialect)
  have hunique := ordered_uniqueIndexes (b := b) h c
  exact (hcolumns.append (hcustom.mono (List.subset_append_right _ _))).append
    (hunique.mono (List.subset_append_right _ _))

end Indexing

/-! ### All steps -/

namespace Compiler

variable {c : Compiler} {plan : Plan}

/-- **The steps of a plan are in order.**  Each table has distinct columns, each subtable comes
after its parent, and each statement of the index plan after what it names. -/
theorem ordered_steps (h : c.plan = .ok plan) : Ordered c.config.backend [] (c.steps plan) := by
  have htables : Ordered c.config.backend [] (plan.tables.map Step.table) := by
    refine .of_forall fun x hx _ _ => ?_
    obtain ⟨t, ht, rfl⟩ := List.mem_map.mp hx
    exact Plan.hasDistinctColumns_of_planned h ht
  have hsubtables : Ordered c.config.backend (plan.tables.map Step.table)
      (plan.subtables.map Step.subtable) := by
    refine .of_forall fun x hx cat hcat => ?_
    obtain ⟨s, hs, rfl⟩ := List.mem_map.mp hx
    obtain ⟨t, ht, e⟩ := Plan.exists_parent_of_planned h hs
    rw [Step.Ready, ← e]
    exact (hcat _ (List.mem_map_of_mem ht)).1
  have hindexes : Ordered c.config.backend (plan.tables.map Step.table)
      ((c.indexPlan plan.tables).map Step.index) := by
    rw [indexPlan, Indexing.forTables, List.map_flatMap]
    exact .flatMap fun t ht => Indexing.ordered_forTable (List.mem_map_of_mem ht) _ _ _
  rw [steps]
  refine (htables.append (hsubtables.mono ?_)).append (hindexes.mono ?_)
  · exact List.subset_append_left _ _
  · exact fun y hy => List.mem_append_left _ (List.mem_append_left _ hy)

end Compiler

end DirectoryTables
