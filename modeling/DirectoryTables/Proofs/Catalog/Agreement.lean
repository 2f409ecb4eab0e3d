import DirectoryTables.Proofs.Catalog.Growth

/-!
# Catalogs — Agreement

What a statement reads of a catalog.  Two catalogs agree on some names if they have the same tables
under them (`AgreesOn`).  A statement that names no others (`Statement.Within`) is then accepted on
both or on neither, and they agree again afterwards (`AgreesOn.applyAll`), whatever else they hold.
-/

namespace DirectoryTables

/-- The statement names only these tables: its own, and the parent of a table it creates. -/
def Statement.Within (names : String → Prop) : Statement → Prop
  | .createTable t => names t.name ∧ ∀ parent, t.parent = some parent → names parent
  | .addColumn a => names a.table
  | .createIndex i => names i.table

namespace Catalog

variable {names : String → Prop} {c c' d : Catalog} {name : String}

/-- The catalogs have the same tables under the names. -/
def AgreesOn (names : String → Prop) (c d : Catalog) : Prop :=
  ∀ name, names name → c.table? name = d.table? name

namespace AgreesOn

/-! ### Questions -/

theorem hasTable (h : AgreesOn names c d) (hn : names name) :
    c.hasTable name = d.hasTable name := by
  rw [Catalog.hasTable, Catalog.hasTable, h name hn]

theorem hasColumn (h : AgreesOn names c d) (hn : names name) (column : String) :
    c.hasColumn name column = d.hasColumn name column := by
  rw [Catalog.hasColumn, Catalog.hasColumn, columns, columns, h name hn]

theorem hasIndex (h : AgreesOn names c d) (hn : names name) (index : String) :
    c.hasIndex name index = d.hasIndex name index := by
  rw [Catalog.hasIndex, Catalog.hasIndex, h name hn]

theorem holds {b : Backend} {s : Statement} (h : AgreesOn names c d) (hs : s.Within names) :
    c.holds b s = d.holds b s := by
  cases s with
  | createTable t => exact h.hasTable hs.1
  | addColumn a => exact h.hasColumn hs _
  | createIndex i => exact h.hasIndex hs _

/-! ### Statements -/

theorem set (h : AgreesOn names c d) (name : String) (t : CatalogTable) :
    AgreesOn names (c.set name t) (d.set name t) := by
  intro other hn
  rw [table?_set, table?_set, h other hn]

/-- A statement that is accepted on a catalog is accepted on one that agrees with it on all that
the statement names, and they agree afterwards. -/
theorem apply {s : Statement} (h : AgreesOn names c d) (hs : s.Within names)
    (happ : c.apply s = .ok c') : ∃ d', d.apply s = .ok d' ∧ AgreesOn names c' d' := by
  cases s with
  | createTable t =>
    obtain ⟨hnew, hparent, rfl⟩ := createTable_eq_ok_iff.mp happ
    refine ⟨_, createTable_eq_ok_iff.mpr ⟨?_, fun parent hp => ?_, rfl⟩, h.set _ _⟩
    · rw [← h.hasTable hs.1, hnew]
    · rw [← h.hasTable (hs.2 parent hp), hparent parent hp]
  | addColumn a =>
    obtain ⟨t, ht, hlacks, rfl⟩ := addColumn_eq_ok_iff.mp happ
    exact ⟨_, addColumn_eq_ok_iff.mpr ⟨t, h _ hs ▸ ht, hlacks, rfl⟩, h.set _ _⟩
  | createIndex i =>
    obtain ⟨t, ht, hlacks, hkey, rfl⟩ := createIndex_eq_ok_iff.mp happ
    exact ⟨_, createIndex_eq_ok_iff.mpr ⟨t, h _ hs ▸ ht, hlacks, hkey, rfl⟩, h.set _ _⟩

/-- **Statements read only what they name.**  They are accepted on every catalog that agrees on
that, and lead to catalogs that agree again. -/
theorem applyAll {ss : List Statement} (h : AgreesOn names c d) (hs : ∀ s ∈ ss, s.Within names)
    (happ : c.applyAll ss = .ok c') : ∃ d', d.applyAll ss = .ok d' ∧ AgreesOn names c' d' := by
  induction ss generalizing c d with
  | nil => cases happ; exact ⟨d, rfl, h⟩
  | cons s ss ih =>
    obtain ⟨c₁, h₁, h₂⟩ := applyAll_cons_eq_ok_iff.mp happ
    obtain ⟨d₁, hd₁, hagree⟩ := h.apply (hs s List.mem_cons_self) h₁
    obtain ⟨d', hd', hagree'⟩ := ih hagree (fun s' hs' => hs s' (List.mem_cons_of_mem s hs')) h₂
    exact ⟨d', applyAll_cons_eq_ok_iff.mpr ⟨d₁, hd₁, hd'⟩, hagree'⟩

end AgreesOn

end Catalog

end DirectoryTables
