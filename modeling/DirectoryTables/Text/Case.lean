/-!
# Text — Case

Letter case of names.  Directories and catalogs compare names without regard to the case of the
twenty-six letters `A` to `Z`; every other character, accented letters included, stands for itself.
Two names are the same name when their lower-case forms are equal (`sameName_iff`).
-/

namespace DirectoryTables.Text

/-- The text with the letters `A` to `Z` made small. -/
def lower (s : String) : String :=
  String.ofList (s.toList.map Char.toLower)

/-- The characters with the letters `a` to `z` made capital. -/
def upperChars (cs : List Char) : List Char :=
  cs.map Char.toUpper

/-- The text with the letters `a` to `z` made capital. -/
def upper (s : String) : String :=
  String.ofList (upperChars s.toList)

/-- Whether two names differ at most in letter case. -/
def sameName (a b : String) : Bool :=
  lower a == lower b

/-- Whether some name of a list is the given name, letter case aside. -/
def listsName (names : List String) (name : String) : Bool :=
  names.any (sameName · name)

/-- The names of a list without those that an earlier one equals, letter case aside. -/
def distinctNames : List String → List String
  | [] => []
  | n :: ns => n :: (distinctNames ns).filter fun m => !sameName m n

/-! ### Names as classes of texts -/

theorem sameName_iff {a b : String} : sameName a b = true ↔ lower a = lower b := by
  simp [sameName]

@[simp] theorem sameName_self (a : String) : sameName a a = true := by
  simp [sameName]

theorem sameName_comm (a b : String) : sameName a b = sameName b a := by
  rw [Bool.eq_iff_iff, sameName_iff, sameName_iff, eq_comm]

theorem sameName_trans {a b c : String} (hab : sameName a b = true) (hbc : sameName b c = true) :
    sameName a c = true := by
  rw [sameName_iff] at *
  exact hab.trans hbc

theorem listsName_iff {names : List String} {name : String} :
    listsName names name = true ↔ ∃ n ∈ names, lower n = lower name := by
  simp [listsName, sameName]

end DirectoryTables.Text
