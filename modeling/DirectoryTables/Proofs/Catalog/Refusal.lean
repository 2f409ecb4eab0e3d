import DirectoryTables.Proofs.Catalog.Growth
import DirectoryTables.Session

/-!
# Catalogs — Refusal

Which statements a database refuses, why, and what it does with the others.  A statement is refused
as a whole or carried out as a whole (`execute_atomic`): a refused one leaves the catalog as it was,
and an accepted one adds its object and nothing else (`Adds`).

* `Refusal c s e`: the statement `s` is refused on `c` with the error `e`, for the first of its
  faults in the order they are looked for.
* `apply_eq_error_iff`: these are all the errors there are.
* `exists_refusal_iff`: a statement has a fault exactly if it asks for what it cannot have
  (`Refuses`), in whatever order that is looked at.
-/

namespace DirectoryTables

namespace Catalog

variable {c c' : Catalog} {s : Statement} {e : SessionError}

/-! ### Refused statements -/

/-- Why a statement is refused, with the error. -/
inductive Refusal (c : Catalog) : Statement → SessionError → Prop where
  | tablePresent {t : CreateTable} (h : c.hasTable t.name = true) :
      Refusal c (.createTable t) (.duplicate t.name)
  | parentAbsent {t : CreateTable} {parent : String} (hnew : c.hasTable t.name = false)
      (hparent : t.parent = some parent) (h : c.hasTable parent = false) :
      Refusal c (.createTable t) (.noSuchTable parent)
  | noTableToExtend {a : AddColumn} (h : c.table? a.table = none) :
      Refusal c (.addColumn a) (.noSuchTable a.table)
  | columnPresent {a : AddColumn} {t : CatalogTable} (ht : c.table? a.table = some t)
      (h : t.hasColumn a.column.name = true) :
      Refusal c (.addColumn a) (.duplicate (a.table ++ "." ++ a.column.name))
  | noTableToIndex {i : CreateIndex} (h : c.table? i.table = none) :
      Refusal c (.createIndex i) (.noSuchTable i.table)
  | indexPresent {i : CreateIndex} {t : CatalogTable} (ht : c.table? i.table = some t)
      (h : t.hasIndex i.name = true) : Refusal c (.createIndex i) (.duplicate i.name)
  | columnAbsent {i : CreateIndex} {t : CatalogTable} {part : KeyPart}
      (ht : c.table? i.table = some t) (hnew : t.hasIndex i.name = false)
      (h : t.missingPart? i.key = some part) :
      Refusal c (.createIndex i) (.database ("unknown column " ++ part.name ++ " in " ++ i.table))

theorem hasTable_eq_false_iff {name : String} : c.hasTable name = false ↔ c.table? name = none :=
  Option.isSome_eq_false_iff.trans Option.isNone_iff_eq_none

theorem createTable_eq_error_iff {t : CreateTable} :
    c.apply (.createTable t) = .error e ↔ Refusal c (.createTable t) e := by
  rw [apply, createTable]
  constructor
  · intro h
    split at h
    · next hpresent =>
      cases h
      exact .tablePresent hpresent
    · next hnew =>
      split at h
      · next parent hparent =>
        obtain ⟨hparent, habsent⟩ := Option.filter_eq_some_iff.mp hparent
        cases h
        refine .parentAbsent (Bool.eq_false_iff.mpr hnew) hparent ?_
        rwa [Bool.not_eq_true'] at habsent
      · cases h
  · intro h
    cases h with
    | tablePresent h => rw [if_pos h]
    | parentAbsent hnew hparent h =>
      rw [hnew, hparent, Option.filter_some, h]
      rfl

theorem addColumn_eq_error_iff {a : AddColumn} :
    c.apply (.addColumn a) = .error e ↔ Refusal c (.addColumn a) e := by
  rw [apply, addColumn]
  constructor
  · intro h
    split at h
    · next habsent =>
      cases h
      exact .noTableToExtend habsent
    · next t ht =>
      split at h
      · next hpresent =>
        cases h
        exact .columnPresent ht hpresent
      · cases h
  · intro h
    cases h with
    | noTableToExtend h => rw [h]
    | columnPresent ht h =>
      rw [ht]
      exact if_pos h

theorem createIndex_eq_error_iff {i : CreateIndex} :
    c.apply (.createIndex i) = .error e ↔ Refusal c (.createIndex i) e := by
  rw [apply, createIndex]
  constructor
  · intro h
    split at h
    · next habsent =>
      cases h
      exact .noTableToIndex habsent
    · next t ht =>
      split at h
      · next hpresent =>
        cases h
        exact .indexPresent ht hpresent
      · next hnew =>
        split at h
        · next part hpart =>
          cases h
          exact .columnAbsent ht (Bool.eq_false_iff.mpr hnew) hpart
        · cases h
  · intro h
    cases h with
    | noTableToIndex h => rw [h]
    | indexPresent ht h =>
      rw [ht]
      exact if_pos h
    | columnAbsent ht hnew h =>
      rw [ht]
      simp only [hnew, h]
      rfl

/-- **The errors of a statement** are those of its faults. -/
theorem apply_eq_error_iff : c.apply s = .error e ↔ Refusal c s e := by
  cases s with
  | createTable t => exact createTable_eq_error_iff
  | addColumn a => exact addColumn_eq_error_iff
  | createIndex i => exact createIndex_eq_error_iff

/-- The statement asks for what it cannot have: its object is there, or what it needs is not. -/
def Refuses (c : Catalog) : Statement → Prop
  | .createTable t =>
    c.hasTable t.name = true ∨ ∃ parent, t.parent = some parent ∧ c.hasTable parent = false
  | .addColumn a => c.hasTable a.table = false ∨ c.hasColumn a.table a.column.name = true
  | .createIndex i => c.hasTable i.table = false ∨ c.hasIndex i.table i.name = true ∨
      ∃ parts, i.key = .columns parts ∧ ∃ p ∈ parts, c.hasColumn i.table p.name = false

theorem exists_missingPart?_iff {t : CatalogTable} {key : IndexKey} :
    (∃ part, t.missingPart? key = some part) ↔
      ∃ parts, key = .columns parts ∧ ∃ p ∈ parts, t.hasColumn p.name = false := by
  cases key with
  | expression sql => simp [CatalogTable.missingPart?]
  | columns parts =>
    rw [← Option.isSome_iff_exists, CatalogTable.missingPart?, List.find?_isSome]
    simp

theorem exists_refusal_iff : (∃ e, Refusal c s e) ↔ c.Refuses s := by
  constructor
  · rintro ⟨e, h⟩
    cases h with
    | tablePresent h => exact .inl h
    | parentAbsent _ hparent h => exact .inr ⟨_, hparent, h⟩
    | noTableToExtend h | noTableToIndex h => exact .inl (hasTable_eq_false_iff.mpr h)
    | columnPresent ht h => exact .inr ((hasColumn_of_table? ht _).trans h)
    | indexPresent ht h => exact .inr (.inl ((hasIndex_of_table? ht _).trans h))
    | columnAbsent ht _ h =>
      obtain ⟨parts, hkey, p, hp, hlacks⟩ := exists_missingPart?_iff.mp ⟨_, h⟩
      exact .inr (.inr ⟨parts, hkey, p, hp, (hasColumn_of_table? ht _).trans hlacks⟩)
  · cases s with
    | createTable t =>
      rintro (h | ⟨parent, hparent, h⟩)
      · exact ⟨_, .tablePresent h⟩
      · cases hnew : c.hasTable t.name with
        | true => exact ⟨_, .tablePresent hnew⟩
        | false => exact ⟨_, .parentAbsent hnew hparent h⟩
    | addColumn a =>
      rintro (h | h)
      · exact ⟨_, .noTableToExtend (hasTable_eq_false_iff.mp h)⟩
      · obtain ⟨t, ht⟩ := hasTable_iff.mp (hasTable_of_hasColumn h)
        exact ⟨_, .columnPresent ht ((hasColumn_of_table? ht _).symm.trans h)⟩
    | createIndex i =>
      intro h
      cases ht : c.table? i.table with
      | none => exact ⟨_, .noTableToIndex ht⟩
      | some t =>
        cases hnew : t.hasIndex i.name with
        | true => exact ⟨_, .indexPresent ht hnew⟩
        | false =>
          obtain h | h | ⟨parts, hkey, p, hp, hlacks⟩ := h
          · exact absurd (hasTable_of_table? ht) (Bool.eq_false_iff.mp h)
          · rw [hasIndex_of_table? ht, hnew] at h
            cases h
          · rw [hasColumn_of_table? ht] at hlacks
            obtain ⟨part, hpart⟩ := exists_missingPart?_iff.mpr ⟨parts, hkey, p, hp, hlacks⟩
            exact ⟨_, .columnAbsent ht hnew hpart⟩

/-! ### Accepted statements -/

/-- The object of a statement is new in `c'`: a table with the given columns and without indexes,
a column after all others, or one index more. -/
def Makes (c c' : Catalog) : Statement → Prop
  | .createTable t => c.table? t.name = none ∧
      c'.table? t.name = some { columns := t.columns.map ColumnDef.name, indexes := .empty }
  | .addColumn a => ∃ t, c.table? a.table = some t ∧ t.hasColumn a.column.name = false ∧
      c'.table? a.table = some { t with columns := t.columns ++ [a.column.name] }
  | .createIndex i => ∃ t t', c.table? i.table = some t ∧ c'.table? i.table = some t' ∧
      t'.columns = t.columns ∧ t.hasIndex i.name = false ∧
      ∀ name, t'.hasIndex name = true ↔ t.hasIndex name = true ∨ name = i.name

/-- `c'` is `c` with the object of a statement, and nothing else. -/
structure Adds (s : Statement) (c c' : Catalog) : Prop where
  makes : c.Makes c' s
  others : ∀ name, name ≠ s.table → c'.table? name = c.table? name

theorem adds_of_apply (h : c.apply s = .ok c') : Adds s c c' := by
  refine ⟨?_, fun name => table?_of_apply h⟩
  cases s with
  | createTable t =>
    obtain ⟨hnew, -, rfl⟩ := createTable_eq_ok_iff.mp h
    exact ⟨hasTable_eq_false_iff.mp hnew, table?_set_self _ _ _⟩
  | addColumn a =>
    obtain ⟨t, ht, hnew, rfl⟩ := addColumn_eq_ok_iff.mp h
    exact ⟨t, ht, hnew, table?_set_self _ _ _⟩
  | createIndex i =>
    obtain ⟨t, ht, hnew, -, rfl⟩ := createIndex_eq_ok_iff.mp h
    refine ⟨t, _, ht, table?_set_self _ _ _, rfl, hnew, fun name => ?_⟩
    rw [CatalogTable.hasIndex_withIndex, Bool.or_eq_true, decide_eq_true_iff, or_comm]

end Catalog

namespace Database

/-- A statement that the catalog accepts. -/
theorem execute_of_ok {db : Database} {s : Statement} {c' : Catalog}
    (h : db.catalog.apply s = .ok c') (sql : String) :
    db.execute sql s =
      (.ok (), { db with catalog := c', history := db.history ++ [(s.verb, sql)] }) := by
  simp only [execute, h]

/-- A statement that the catalog refuses. -/
theorem execute_of_error {db : Database} {s : Statement} {e : SessionError}
    (h : db.catalog.apply s = .error e) (sql : String) :
    db.execute sql s = (.error e, { db with history := db.history ++ [(s.verb, sql)] }) := by
  simp only [execute, h]

/-- **Statements are atomic.**  A database in memory refuses a statement exactly if it asks for
what it cannot have.  A refused statement leaves the catalog as it was, and an accepted one adds its
object and nothing else.  Either way the history has one more entry, for the statement. -/
theorem execute_atomic (db : Database) (sql : String) (s : Statement) :
    ((∃ e, (db.execute sql s).1 = .error e) ↔ db.catalog.Refuses s) ∧
      ((∃ e, Catalog.Refusal db.catalog s e ∧
          db.execute sql s = (.error e, { db with history := db.history ++ [(s.verb, sql)] })) ∨
        ∃ c', Catalog.Adds s db.catalog c' ∧
          db.execute sql s =
            (.ok (), { db with catalog := c', history := db.history ++ [(s.verb, sql)] })) := by
  rw [← Catalog.exists_refusal_iff]
  cases happ : db.catalog.apply s with
  | error e =>
    have hrefusal := Catalog.apply_eq_error_iff.mp happ
    rw [execute_of_error happ]
    exact ⟨⟨fun _ => ⟨e, hrefusal⟩, fun _ => ⟨e, rfl⟩⟩, .inl ⟨e, hrefusal, rfl⟩⟩
  | ok c' =>
    rw [execute_of_ok happ]
    refine ⟨⟨?_, ?_⟩, .inr ⟨c', Catalog.adds_of_apply happ, rfl⟩⟩
    · rintro ⟨e, h⟩
      cases h
    · rintro ⟨e, h⟩
      cases happ.symm.trans (Catalog.apply_eq_error_iff.mpr h)

/-- An index on a column that its table has in other letter case is accepted, one on a column that
it lacks is not. -/
example :
    let db : Database := { catalog := Catalog.empty.withTable "gluuPerson" ["doc_id", "Mail"] }
    db.catalog.Refuses (.createIndex (.plain "person_uid" "gluuPerson" { name := "uid" })) ∧
      (db.execute "" (.createIndex (.plain "person_mail" "gluuPerson" { name := "mail" }))).1 =
        .ok () :=
  ⟨.inr (.inr ⟨_, rfl, _, List.mem_singleton_self _, rfl⟩), rfl⟩

end Database

end DirectoryTables
