import DirectoryTables.Proofs.Backend.Fitting
import DirectoryTables.Proofs.Plan.Indexes

/-!
# Plans — The unique index

The unique index of the person table among the statements that index it.  What the policy asks for
comes first (`policyIndexes`), then the unique index where the backend has to have one
(`uniqueIndexes_eq`).  No index of the policy is unique, and none has the name of the unique one
(`IsOrdinary`), not even once both are fitted, as long as the latter is short enough
(`fit_ne_uniqueName`).
-/

namespace DirectoryTables

/-! ### Ordinary indexes -/

/-- The text ends in `x` or in a digit. -/
def Text.EndsOrdinarily (s : String) : Prop :=
  s.toList.getLast?.any (fun c => c == 'x' || c.isDigit) = true

instance (s : String) : Decidable (Text.EndsOrdinarily s) :=
  inferInstanceAs (Decidable (_ = true))

theorem Text.EndsOrdinarily.append {t : String} (h : EndsOrdinarily t) (s : String) :
    EndsOrdinarily (s ++ t) := by
  obtain ⟨last, hlast, hends⟩ := (Option.any_eq_true _ _).mp h
  rw [EndsOrdinarily, String.toList_append, List.getLast?_append, hlast]
  exact hends

theorem Text.endsOrdinarily_decimal (n : Nat) : EndsOrdinarily (decimal n) := by
  rw [EndsOrdinarily, decimal, String.toList_ofList,
    List.getLast?_eq_some_getLast Nat.toDigits_ne_nil]
  have hdigit : ((Nat.toDigits 10 n).getLast Nat.toDigits_ne_nil).isDigit = true :=
    Nat.isDigit_of_mem_toDigits (by decide) (by decide) (List.getLast_mem _)
  rw [Option.any_some, hdigit, Bool.or_true]

/-- What tells the indexes that a policy asks for from the unique index: they are not unique, and
their names end in `x` or in a digit. -/
structure CreateIndex.IsOrdinary (i : CreateIndex) : Prop where
  kind : i.kind ≠ .unique
  name : Text.EndsOrdinarily i.name

namespace Indexing

variable {d : Directory} {c : Config} {policy : Policy} {p : DialectPolicy} {t : Table}
  {table : String} {i : CreateIndex} {statement : Statement}

/-- What the policy asks for in a table: indexes of columns and indexes over expressions. -/
def policyIndexes (d : Directory) (c : Config) (policy : Policy) (t : Table) : List Statement :=
  t.columns.flatMap (columnIndexes d c (policy.forDialect c.dialect) t.name) ++
    customIndexes (policy.forDialect c.dialect) t.name

/-- The name of the unique index of a table. -/
def uniqueName (table : String) : String :=
  table ++ "_unique_uuid"

theorem forTable_eq (d : Directory) (c : Config) (policy : Policy) (t : Table) :
    forTable d c policy t = policyIndexes d c policy t ++ uniqueIndexes c t := rfl

/-- The unique index of the person table, on a backend that cannot declare it inline. -/
theorem uniqueIndexes_eq {column : Column} (hperson : t.name = c.personTable)
    (huid : t.column? uid = some column) :
    uniqueIndexes c t = if c.backend.hasInlineUnique then []
      else [.createIndex (.unique (uniqueName t.name) t.name column.name)] := by
  rw [uniqueIndexes, huid, hperson]
  cases c.backend.hasInlineUnique <;> simp [uniqueName]

/-! ### The indexes of the policy -/

theorem isOrdinary_of_mem_jsonIndexes {b : Backend} {column : String}
    (h : .createIndex i ∈ jsonIndexes b c p table column) : i.IsOrdinary := by
  rw [jsonIndexes] at h
  split at h
  · obtain ⟨⟨template, position⟩, -, e⟩ := List.mem_map.mp h
    cases e
    exact ⟨IndexKind.noConfusion, (Text.endsOrdinarily_decimal _).append _⟩
  · obtain ⟨position, -, h⟩ := List.mem_flatMap.mp h
    obtain e | h := List.mem_cons.mp h
    · cases e
    · cases List.mem_singleton.mp h
      exact ⟨IndexKind.noConfusion, ((Text.endsOrdinarily_decimal _).append _).append _⟩
  · cases h

/-- The indexes that a policy asks for are ordinary. -/
theorem isOrdinary_of_mem (h : .createIndex i ∈ policyIndexes d c policy t) : i.IsOrdinary := by
  obtain h | h := List.mem_append.mp h
  · obtain ⟨column, -, h⟩ := List.mem_flatMap.mp h
    rw [columnIndexes] at h
    split at h
    · cases h
    · split at h
      · exact isOrdinary_of_mem_jsonIndexes h
      · cases List.mem_singleton.mp h
        exact ⟨IndexKind.noConfusion, Text.EndsOrdinarily.append (by decide) _⟩
  · obtain ⟨⟨sql, position⟩, -, e⟩ := List.mem_map.mp h
    cases e
    exact ⟨IndexKind.noConfusion, (Text.endsOrdinarily_decimal _).append _⟩

theorem indexes_of_mem_policyIndexes (h : statement ∈ policyIndexes d c policy t) :
    statement.Indexes t.name := by
  obtain h | h := List.mem_append.mp h
  · obtain ⟨column, -, h⟩ := List.mem_flatMap.mp h
    exact indexes_of_mem_columnIndexes h
  · exact indexes_of_mem_customIndexes h

/-! ### Fitted names -/

/-- No digit of a digest is a `q`. -/
theorem digitChar_ne_q (n : Nat) : Nat.digitChar n ≠ 'q' := by
  by_cases h : n < 16
  · have hdigit : ∀ d : Fin 16, Nat.digitChar d ≠ 'q' := by decide
    exact hdigit ⟨n, h⟩
  · rw [Nat.digitChar_eq_star.mpr (Nat.le_of_not_lt h)]
    decide

/-- A unique index whose name is not too long shares it with no index of the policy, even where
that has a name that is too long. -/
theorem fit_ne_uniqueName {b : Backend} (hi : i.IsOrdinary)
    (hfits : (uniqueName table).utf8ByteSize ≤ b.maxNameLength) :
    b.fit i.name ≠ b.fit (uniqueName table) := by
  rw [show b.fit (uniqueName table) = uniqueName table from Backend.fitWith_of_le hfits]
  by_cases hlong : i.name.utf8ByteSize ≤ b.maxNameLength
  · -- the names end differently
    rw [show b.fit i.name = i.name from Backend.fitWith_of_le hlong]
    intro e
    have hends := hi.name
    have hlast : "_unique_uuid".toList.getLast? = some 'd' := by decide
    rw [e, uniqueName, Text.EndsOrdinarily, String.toList_append, List.getLast?_append, hlast,
      Option.some_or] at hends
    exact absurd hends (by decide)
  · -- the last eight characters of a shortened name are digits
    intro e
    obtain ⟨kept, digits, hkept, hlength, hdigits⟩ :=
      Backend.exists_digits_of_fit (Nat.lt_of_not_le hlong)
    rw [e, uniqueName, String.toList_append] at hkept
    have hsplit : table.toList ++ "_uni".toList ++ "que_uuid".toList = kept ++ digits := by
      rw [← hkept, List.append_assoc]
      rfl
    obtain ⟨-, htail⟩ := List.append_inj' hsplit (by rw [hlength]; rfl)
    obtain ⟨n, hn⟩ := hdigits 'q' (htail ▸ by decide)
    exact digitChar_ne_q n hn.symm

end Indexing

end DirectoryTables
