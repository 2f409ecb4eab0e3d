import DirectoryTables.Proofs.Plan.IndexPlan
import DirectoryTables.Proofs.Plan.ShadowColumns

/-!
# Plans — Keys

The columns that statements are keyed on (`Statement.keyParts`): those of a primary key, those that
are declared unique, and those of the key of an index.

Of the index plan of a table these are the selected columns without JSON, the shadow columns, and
the `uid` of the person table on Spanner (`Indexing.mem_keyParts_forTable_iff`).  Only the first are
chosen by their type, so only for them the type says how they are keyed
(`Indexing.forall_keys_forTable_iff`).
-/

namespace DirectoryTables

namespace Statement

/-- The columns in the keys of the statement.  Keys that are declared with a table have no
prefixes. -/
def keyParts : Statement → List KeyPart
  | createTable t => (t.primaryKey ++ t.unique).map fun name => { name }
  | addColumn _ => []
  | createIndex i =>
    match i.key with
    | .columns parts => parts
    | .expression _ => []

/-- The part of a key of the statement names one of the columns, letter case aside. -/
structure Keys (s : Statement) (columns : List Column) (part : KeyPart) (column : Column) :
    Prop where
  keyed : part ∈ s.keyParts
  listed : column ∈ columns
  named : Text.lower column.name = Text.lower part.name

end Statement

namespace Indexing

open Statement

variable {d : Directory} {c : Config} {policy : Policy} {p : DialectPolicy} {t : Table}
  {part : KeyPart}

/-- The index plan of the table has an index with the part in its key. -/
inductive Keyed (d : Directory) (c : Config) (policy : Policy) (t : Table) : KeyPart → Prop
  /-- A selected column without JSON has an index of its own. -/
  | plain {column : Column} (hcolumn : column ∈ t.columns)
      (h : Selects d c (policy.forDialect c.dialect) t.name column.name)
      (htype : column.type.isJsonCapable = false) :
      Keyed d c policy t (column.keyPart c.backend c.textPrefixLength)
  /-- Each shadow column has an index. -/
  | shadow {name : String} (h : name ∈ shadowNames d c policy t) : Keyed d c policy t { name }
  /-- On Spanner the `uid` of the person table has one. -/
  | unique {column : Column} (hdialect : c.dialect = .spanner) (hperson : t.name = c.personTable)
      (hcolumn : t.column? uid = some column) : Keyed d c policy t { name := column.name }

theorem keyParts_functionalIndexes (b : Backend) (p : DialectPolicy) (table column : String) :
    (functionalIndexes b p table column).flatMap keyParts = [] := by
  rw [functionalIndexes, List.flatMap_map]
  exact List.flatMap_eq_nil_iff.mpr fun _ _ => rfl

/-- The indexes of shadow columns are keyed on these. -/
theorem keyParts_shadowIndexes (b : Backend) (c : Config) (table column : String) :
    (shadowIndexes b c table column).flatMap keyParts =
      (((shadowIndexes b c table column).filterMap addedColumn?).map Prod.snd).map
        fun name => { name } := by
  rw [shadowIndexes, List.flatMap_assoc, List.filterMap_flatMap, List.map_flatMap,
    List.map_flatMap]
  rfl

/-- The keys of what a column gets: the column itself, or its shadow columns. -/
theorem mem_keyParts_columnIndexes_iff {table : String} {column : Column} :
    part ∈ (columnIndexes d c p table column).flatMap keyParts ↔
      (Selects d c p table column.name ∧ column.type.isJsonCapable = false ∧
        part = column.keyPart c.backend c.textPrefixLength) ∨
      ∃ name ∈ ((columnIndexes d c p table column).filterMap addedColumn?).map Prod.snd,
        { name } = part := by
  rw [selects_iff, columnIndexes]
  split
  · next h => simp [h]
  · next h =>
    split
    · next htype =>
      rw [jsonIndexes]
      split
      · rw [keyParts_functionalIndexes]
        simp [htype, functionalIndexes, addedColumn?]
      · rw [keyParts_shadowIndexes, List.mem_map]
        simp [htype]
      · simp [htype]
    · next htype =>
      rw [List.flatMap_singleton]
      simp [h, htype, keyParts, CreateIndex.plain, addedColumn?]

theorem keyParts_customIndexes (p : DialectPolicy) (table : String) :
    (customIndexes p table).flatMap keyParts = [] := by
  rw [customIndexes, List.flatMap_map]
  exact List.flatMap_eq_nil_iff.mpr fun _ _ => rfl

theorem mem_keyParts_uniqueIndexes_iff :
    part ∈ (uniqueIndexes c t).flatMap keyParts ↔ c.dialect = .spanner ∧
      t.name = c.personTable ∧ ∃ column, t.column? uid = some column ∧
        part = { name := column.name } := by
  have h := indexesPerson_uniqueIndexes c t
  generalize uniqueIndexes c t = uniques at h ⊢
  cases h with
  | unique hdialect hperson hcolumn =>
    simp [hdialect, hperson, hcolumn, keyParts, CreateIndex.unique]
  | nothing h =>
    simp only [List.flatMap_nil, List.not_mem_nil, false_iff]
    rintro ⟨hdialect, hperson, column, hcolumn, -⟩
    rw [h hdialect hperson] at hcolumn
    cases hcolumn

/-- **The keys of the index plan of a table** are those of its selected columns without JSON, of its
shadow columns, and on Spanner that of the `uid` of the person table. -/
theorem mem_keyParts_forTable_iff :
    part ∈ (forTable d c policy t).flatMap keyParts ↔ Keyed d c policy t part := by
  rw [forTable, List.flatMap_append, List.flatMap_append, keyParts_customIndexes, List.append_nil,
    List.mem_append, mem_keyParts_uniqueIndexes_iff, List.flatMap_assoc, List.mem_flatMap]
  constructor
  · rintro (⟨column, hcolumn, h⟩ | ⟨hdialect, hperson, column, hcolumn, rfl⟩)
    · obtain ⟨hselects, htype, rfl⟩ | ⟨name, hname, rfl⟩ := mem_keyParts_columnIndexes_iff.mp h
      · exact .plain hcolumn hselects htype
      · refine .shadow ?_
        rw [shadowNames_eq, List.mem_flatMap]
        exact ⟨column, hcolumn, hname⟩
    · exact .unique hdialect hperson hcolumn
  · intro h
    cases h with
    | plain hcolumn h htype =>
      exact .inl ⟨_, hcolumn, mem_keyParts_columnIndexes_iff.mpr (.inl ⟨h, htype, rfl⟩)⟩
    | shadow h =>
      rw [shadowNames_eq, List.mem_flatMap] at h
      obtain ⟨column, hcolumn, h⟩ := h
      exact .inl ⟨column, hcolumn, mem_keyParts_columnIndexes_iff.mpr (.inr ⟨_, h, rfl⟩)⟩
    | unique hdialect hperson hcolumn => exact .inr ⟨hdialect, hperson, _, hcolumn, rfl⟩

/-- What holds of all columns that the index plan of a table is keyed on. -/
theorem forall_keys_forTable_iff (h : t.HasDistinctColumns) {P : KeyPart → Column → Prop} :
    (∀ s ∈ forTable d c policy t, ∀ part column, s.Keys t.columns part column → P part column) ↔
      (∀ column ∈ t.columns, Selects d c (policy.forDialect c.dialect) t.name column.name →
        column.type.isJsonCapable = false →
          P (column.keyPart c.backend c.textPrefixLength) column) ∧
      (∀ name ∈ shadowNames d c policy t, ∀ column ∈ t.columns,
        Text.lower column.name = Text.lower name → P { name } column) ∧
      (c.dialect = .spanner → t.name = c.personTable → ∀ column ∈ t.column? uid,
        P { name := column.name } column) := by
  have hkeyed : (∀ s ∈ forTable d c policy t, ∀ part column,
      s.Keys t.columns part column → P part column) ↔
      ∀ part, Keyed d c policy t part → ∀ column ∈ t.columns,
        Text.lower column.name = Text.lower part.name → P part column := by
    simp only [← mem_keyParts_forTable_iff, List.mem_flatMap]
    constructor
    · rintro hall part ⟨s, hs, hpart⟩ column hcolumn e
      exact hall s hs part column ⟨hpart, hcolumn, e⟩
    · intro hall s hs part column hkeys
      exact hall part ⟨s, hs, hkeys.keyed⟩ column hkeys.listed hkeys.named
  rw [hkeyed]
  constructor
  · intro hall
    refine ⟨fun column hcolumn hselects htype => ?_, fun name hname => ?_, ?_⟩
    · exact hall _ (.plain hcolumn hselects htype) column hcolumn rfl
    · exact hall { name } (.shadow hname)
    · intro hdialect hperson column hcolumn
      exact hall _ (.unique hdialect hperson hcolumn) column (List.mem_of_find?_eq_some hcolumn) rfl
  · rintro ⟨hplain, hshadow, hunique⟩ part hpart other hother e
    cases hpart with
    | plain hcolumn hselects htype =>
      obtain rfl := h.eq hother hcolumn e
      exact hplain other hcolumn hselects htype
    | shadow hname => exact hshadow _ hname other hother e
    | unique hdialect hperson hcolumn =>
      obtain rfl := h.eq hother (List.mem_of_find?_eq_some hcolumn) e
      exact hunique hdialect hperson other hcolumn

end Indexing

end DirectoryTables
