import DirectoryTables.Proofs.Bootstrap.Pass
import DirectoryTables.Proofs.Catalog.OneIndex

/-!
# Bootstrap — Interruption

What becomes of a pass that stops midway and is then started again on the catalog it left.

A step that was interrupted issues the rest of its statements (`Step.resume`), with one exception:
a subtable that was created, but whose index was not.  It is not asked for its index again, so the
index stays missing, and everything that follows is done as if it were there
(`Pass.exists_of_addsIndex`).  `Pass.resume` says this of a whole pass.
-/

namespace DirectoryTables

namespace Catalog

variable {c m : Catalog} {table : String} {columns added rest : List Column}

/-- Once the first of the missing columns were added, the others are missing. -/
theorem missing_of_additions (h : c.hasTable table = true)
    (hd : (columns.map fun column => Text.lower column.name).Nodup)
    (hm : c.missing table columns = added ++ rest)
    (happ : c.applyAll (additions table added) = .ok m) : m.missing table columns = rest := by
  obtain ⟨t, ht⟩ := hasTable_iff.mp h
  have hd' : ((added ++ rest).map fun column => Text.lower column.name).Nodup := by
    rw [← hm]
    exact hd.sublist (List.filter_sublist.map _)
  rw [List.map_append, List.nodup_append] at hd'
  obtain ⟨hadded, -, hdisjoint⟩ := hd'
  have hn : ∀ column ∈ added, t.hasColumn column.name = false := by
    intro column hcolumn
    have hmem : column ∈ c.missing table columns := hm ▸ List.mem_append_left rest hcolumn
    have := (List.mem_filter.mp hmem).2
    rwa [hasColumn_of_table? ht, Bool.not_eq_true'] at this
  obtain ⟨m', happ', ht'⟩ := applyAll_additions ht hadded hn
  cases happ.symm.trans happ'
  have hfilter : m.missing table columns = (c.missing table columns).filter
      fun column => !Text.listsName (added.map Column.name) column.name := by
    rw [missing, missing, List.filter_filter]
    refine List.filter_congr fun column _ => ?_
    rw [hasColumn_of_table? ht', hasColumn_of_table? ht, CatalogTable.hasColumn,
      CatalogTable.hasColumn, Text.listsName, List.any_append, Bool.not_or, Bool.and_comm]
    rfl
  have hgone : added.filter (fun column => !Text.listsName (added.map Column.name) column.name) =
      [] := by
    refine List.filter_eq_nil_iff.mpr fun column hcolumn => ?_
    simp [Text.listsName_iff.mpr ⟨column.name, List.mem_map_of_mem hcolumn, rfl⟩]
  have hkept : rest.filter (fun column => !Text.listsName (added.map Column.name) column.name) =
      rest := by
    refine List.filter_eq_self.mpr fun column hcolumn => ?_
    rw [Bool.not_eq_true', Text.listsName_eq_false_iff, List.map_map]
    intro hmem
    obtain ⟨other, ho, e⟩ := List.mem_map.mp hmem
    exact hdisjoint _ (List.mem_map_of_mem ho) _ (List.mem_map_of_mem hcolumn) e
  rw [hfilter, hm, List.filter_append, hgone, hkept, List.nil_append]

end Catalog

namespace Bootstrap

variable {b : Backend} {cfg : Config} {c c' m : Catalog} {name : String}

/-! ### One step -/

namespace Step

variable {x : Step} {u v : List Statement}

/-- The statements of a step are about its table. -/
theorem table_of_mem {s : Statement} (h : s ∈ x.statements b cfg c) : s.table = x.target := by
  cases x with
  | table t => obtain ⟨-, column, -, rfl⟩ | ⟨-, rfl⟩ := mem_statements_table.mp h <;> rfl
  | subtable t =>
    obtain ⟨-, column, -, rfl⟩ | ⟨-, rfl | rfl⟩ := mem_statements_subtable.mp h <;> rfl
  | index statement =>
    obtain ⟨-, rfl⟩ := mem_statements_index.mp h
    cases statement <;> rfl

/-- Where the columns of a table are added, an interruption leaves the others to add. -/
theorem resume_additions {columns : List Column} (h : c.hasTable name = true)
    (hd : (columns.map fun column => Text.lower column.name).Nodup)
    (hx : Catalog.additions name (c.missing name columns) = u ++ v)
    (hu : c.applyAll u = .ok m) : Catalog.additions name (m.missing name columns) = v := by
  obtain ⟨added, rest, hm, rfl, rfl⟩ := List.map_eq_append_iff.mp hx
  rw [Catalog.missing_of_additions h hd hm hu]
  rfl

/-- **An interrupted step** issues the rest of its statements when it is taken again.  The
exception is a subtable that was created without its index: it issues nothing, and one index is
missing. -/
theorem resume (hready : x.Ready c) (hx : x.statements b cfg c = u ++ v)
    (hu : c.applyAll u = .ok m) (hv : m.applyAll v = .ok c') :
    x.statements b cfg m = v ∨
      ∃ s, x = subtable s ∧ c.hasTable s.name = false ∧ x.statements b cfg m = [] ∧
        Catalog.AddsIndex s.name (b.fit s.indexName) m c' := by
  rcases u with _ | ⟨first, u⟩
  · -- nothing was issued
    cases hu
    exact .inl hx
  rcases v with _ | ⟨last, v⟩
  · -- everything was issued
    rw [List.append_nil] at hx
    rw [← hx] at hu
    exact .inl (statements_of_settled (settled_of_applyAll hready hu))
  -- something was issued and something is left, so the step has two statements or more
  cases x with
  | table t =>
    left
    by_cases ht : c.hasTable t.name = true
    · rw [statements, if_pos ht] at hx
      rw [statements, if_pos ((Catalog.grows_of_applyAll hu).hasTable ht)]
      exact resume_additions ht hready hx hu
    · rw [statements, if_neg ht] at hx
      simp at hx
  | subtable s =>
    by_cases hs : c.hasTable s.name = true
    · left
      rw [statements, if_pos hs] at hx
      rw [statements, if_pos ((Catalog.grows_of_applyAll hu).hasTable hs)]
      exact resume_additions hs (List.nodup_singleton _) hx hu
    · right
      rw [statements, if_neg hs] at hx
      obtain ⟨rfl, rfl, rfl, rfl⟩ : first = .createTable s.create ∧ u = [] ∧
          last = (Statement.createIndex (s.index b cfg.textPrefixLength)).fitted b ∧ v = [] := by
        cases u with
        | nil => simpa [eq_comm] using hx
        | cons => simp at hx
      obtain ⟨m₁, happ, hset, -⟩ := exists_apply_subtable (b := b) (Bool.not_eq_true _ ▸ hs) hready
      rw [Catalog.applyAll_singleton] at hu hv
      cases happ.symm.trans hu
      exact ⟨s, rfl, Bool.not_eq_true _ ▸ hs, statements_of_settled hset, .of_createIndex hv⟩
  | index statement =>
    rw [statements] at hx
    split at hx
    · simp at hx
    · simp at hx

/-- The step is about another table, or is a subtable: only a new subtable gets an index with
it. -/
def Spares (name : String) : Step → Prop
  | table t => t.name ≠ name
  | subtable _ => True
  | index statement => statement.table ≠ name

/-- A step that spares a table that is there creates no index on it. -/
theorem Spares.sparesIndexes (hx : x.Spares name) (ht : c.hasTable name = true) {s : Statement}
    (h : s ∈ x.statements b cfg c) : s.SparesIndexes name := by
  cases s with
  | createTable => trivial
  | addColumn => trivial
  | createIndex i =>
    have hi : i.table = x.target := table_of_mem h
    cases x with
    | table t => exact fun e => hx (hi.symm.trans e)
    | index statement => exact fun e => hx (hi.symm.trans e)
    | subtable s =>
      intro e
      have hs : c.hasTable s.name = true := by rw [show s.name = name from hi.symm.trans e, ht]
      rw [statements, if_pos hs] at h
      obtain ⟨column, -, he⟩ := List.mem_map.mp h
      cases he

/-- A step that spares a table issues the same whether one of its indexes is there or not. -/
theorem statements_of_addsIndex {i : String} (h : Catalog.AddsIndex name i m c)
    (hx : x.Spares name) : x.statements b cfg m = x.statements b cfg c := by
  have hmissing : ∀ other columns, m.missing other columns = c.missing other columns :=
    fun other columns => List.filter_congr fun column _ => by rw [h.hasColumn]
  cases x with
  | table t => rw [statements, statements, h.hasTable, hmissing]
  | subtable s => rw [statements, statements, h.hasTable, hmissing]
  | index statement =>
    have hholds : m.holds b statement = c.holds b statement := by
      cases statement with
      | createTable create => exact h.hasTable _
      | addColumn add => exact h.hasColumn _ _
      | createIndex create =>
        have ht : c.table? create.table = m.table? create.table := h.others _ hx
        rw [Catalog.holds, Catalog.holds, Catalog.hasIndex, Catalog.hasIndex, ht]
    rw [statements, statements, hholds]

end Step

/-! ### Several steps -/

namespace Pass

variable {before steps : List Step} {ss : List Statement}

/-- Steps that spare a table do the same whether one of its indexes is there or not. -/
theorem exists_of_addsIndex {i : String} (h : Catalog.AddsIndex name i m c)
    (hs : ∀ x ∈ steps, x.Spares name) (hpass : Pass b cfg steps c ss c') :
    ∃ m', Pass b cfg steps m ss m' ∧ Catalog.AddsIndex name i m' c' := by
  induction hpass generalizing m with
  | nil => exact ⟨m, .nil m, h⟩
  | @cons x steps c c₁ c' ss happ _ ih =>
    have hx : x.Spares name := hs x List.mem_cons_self
    have ht : c.hasTable name = true := h.hasTable name ▸ h.hasTable_table
    obtain ⟨m₁, hm₁, h₁⟩ := h.exists_applyAll (fun s hmem => hx.sparesIndexes ht hmem) happ
    obtain ⟨m', hm', h'⟩ := ih h₁ fun y hy => hs y (List.mem_cons_of_mem x hy)
    rw [← Step.statements_of_addsIndex h hx] at hm₁ ⊢
    exact ⟨m', .cons hm₁ hm', h'⟩

/-- **An interrupted pass**, started again on the catalog it left, ends where the whole pass does;
or it was interrupted where a subtable was created without its index, and ends without that
index. -/
theorem resume (ho : Ordered b before steps) (hb : ∀ y ∈ before, y.Settled b c)
    (hspares : ∀ s, Step.subtable s ∈ steps → c.hasTable s.name = false →
      ∀ x ∈ steps, x.Spares s.name)
    (h : Pass b cfg steps c ss c') (hm : c.Midway ss m) :
    ∃ ss' m', Pass b cfg steps m ss' m' ∧
      (m' = c' ∨ ∃ s, Step.subtable s ∈ steps ∧ c.hasTable s.name = false ∧
        m.hasTable s.name = true ∧ Catalog.AddsIndex s.name (b.fit s.indexName) m' c') := by
  induction steps generalizing before c ss with
  | nil =>
    cases h
    obtain ⟨ss₁, hpre, happ⟩ := hm
    obtain rfl := List.prefix_nil.mp hpre
    cases happ
    exact ⟨[], _, .nil _, .inl rfl⟩
  | cons x steps ih =>
    cases h with
    | @cons _ _ _ c₁ _ ss hx t =>
      have g : c.Grows c₁ := Catalog.grows_of_applyAll hx
      have hsettled : x.Settled b c₁ := Step.settled_of_applyAll (ho.1 c hb) hx
      obtain ⟨u, ⟨v, hv⟩, hu⟩ | hm₁ := hm.of_append hx
      · -- interrupted in this step
        rw [← hv] at hx
        obtain ⟨m₁, hm₁, hrest⟩ := Catalog.applyAll_append_eq_ok_iff.mp hx
        cases hu.symm.trans hm₁
        obtain hsame | ⟨s, rfl, hno, hnil, hadds⟩ := Step.resume (ho.1 c hb) hv.symm hu hrest
        · rw [← hsame] at hrest
          exact ⟨_, c', .cons hrest t, .inl rfl⟩
        · have hrestSpares : ∀ y ∈ steps, y.Spares s.name := fun y hy =>
            hspares s List.mem_cons_self hno y (List.mem_cons_of_mem _ hy)
          obtain ⟨m', hm', hadds'⟩ := exists_of_addsIndex hadds hrestSpares t
          exact ⟨_, m', .skip hnil hm',
            .inr ⟨s, List.mem_cons_self, hno, hadds.hasTable_table, hadds'⟩⟩
      · -- interrupted after this step
        have hrestSpares : ∀ s, Step.subtable s ∈ steps → c₁.hasTable s.name = false →
            ∀ y ∈ steps, y.Spares s.name := fun s hs hno y hy =>
          hspares s (List.mem_cons_of_mem x hs) (g.hasTable_eq_false hno) y
            (List.mem_cons_of_mem x hy)
        obtain ⟨ss', m', hm', hend⟩ :=
          ih ho.2 (Step.settled_cons hsettled hb g) hrestSpares t hm₁
        have hnil : x.statements b cfg m = [] :=
          Step.statements_of_settled (hsettled.mono hm₁.start_grows)
        refine ⟨ss', m', .skip hnil hm', hend.imp_right ?_⟩
        rintro ⟨s, hs, hno, ht, hadds⟩
        exact ⟨s, List.mem_cons_of_mem x hs, g.hasTable_eq_false hno, ht, hadds⟩

end Pass

end Bootstrap

end DirectoryTables
