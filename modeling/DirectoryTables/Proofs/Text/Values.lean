import DirectoryTables.Text.Blank
import DirectoryTables.Text.Case
import DirectoryTables.Text.Numeral
import Mathlib

/-!
# Text — Values

Texts of values as they are read: without the blanks around them, in capital letters, as numbers.

* `trim_trim`: a trimmed text is left as it is; `trim_eq_self` says which texts are.
* `InCapitals`: a text without small letters, which is left as it is in capital letters.
* `ofSigned?_toDigits`: the digits of a number are read as the number.
-/

namespace DirectoryTables.Text

/-! ### Blanks at the ends -/

theorem trim_sublist (cs : List Char) : (trim cs).Sublist cs :=
  (List.rdropWhile_prefix isBlank (trimStart cs)).sublist.trans (List.dropWhile_sublist isBlank)

theorem trimStart_trim (cs : List Char) : trimStart (trim cs) = trim cs := by
  refine List.dropWhile_eq_self_iff.mpr fun hpos => ?_
  -- What is trimmed at its end begins as it did before.
  have hpre : trim cs <+: trimStart cs := List.rdropWhile_prefix isBlank (trimStart cs)
  have hlt : 0 < (trimStart cs).length := Nat.lt_of_lt_of_le hpos hpre.length_le
  rw [hpre.getElem hpos]
  exact List.dropWhile_get_zero_not isBlank cs hlt

theorem trim_trim (cs : List Char) : trim (trim cs) = trim cs := by
  rw [trim, trimStart_trim]
  exact List.rdropWhile_idempotent isBlank (trimStart cs)

/-- A text is left as it is that has no blank at its ends. -/
theorem trim_eq_self {cs : List Char} (hfirst : ∀ c ∈ cs.head?, isBlank c = false)
    (hlast : ∀ c ∈ cs.getLast?, isBlank c = false) : trim cs = cs := by
  have hstart : trimStart cs = cs := by
    cases cs with
    | nil => rfl
    | cons c cs => exact trimStart_eq_self (hfirst c rfl)
  rw [trim, hstart]
  refine List.rdropWhile_eq_self_iff.mpr fun hne => ?_
  rw [hlast _ (List.getLast?_eq_some_getLast hne)]
  exact Bool.false_ne_true

/-- So is one that is enclosed in texts without blanks at the outer ends. -/
theorem trim_enclosed {p q : List Char} (hp : p.head?.any (!isBlank ·) = true)
    (hq : q.getLast?.any (!isBlank ·) = true) (cs : List Char) :
    trim (p ++ cs ++ q) = p ++ cs ++ q := by
  obtain ⟨first, hfirst, hsolid⟩ := (Option.any_eq_true _ _).mp hp
  obtain ⟨last, hlast, hsolid'⟩ := (Option.any_eq_true _ _).mp hq
  refine trim_eq_self (fun c hc => ?_) fun c hc => ?_
  · rw [List.append_assoc, List.head?_append, hfirst] at hc
    cases hc
    exact Bool.not_eq_true' _ ▸ hsolid
  · rw [List.getLast?_append, hlast] at hc
    cases hc
    exact Bool.not_eq_true' _ ▸ hsolid'

/-! ### Capital letters -/

/-- There is no small letter in the text. -/
def InCapitals (cs : List Char) : Prop :=
  ∀ c ∈ cs, c.isLower = false

instance (cs : List Char) : Decidable (InCapitals cs) :=
  List.decidableBAll (fun c : Char => c.isLower = false) cs

theorem InCapitals.upperChars {cs : List Char} (h : InCapitals cs) : upperChars cs = cs := by
  have hsame : ∀ c ∈ cs, c.toUpper = c := fun c hc =>
    Char.toUpper_eq_of_not_isLower (Bool.eq_false_iff.mp (h c hc))
  rw [Text.upperChars, List.map_congr_left hsame, List.map_id']

theorem inCapitals_upperChars (cs : List Char) : InCapitals (upperChars cs) :=
  List.forall_mem_map.mpr fun c _ => Char.isLower_toUpper_eq_false c

theorem InCapitals.append {cs ds : List Char} (h : InCapitals cs) (h' : InCapitals ds) :
    InCapitals (cs ++ ds) :=
  List.forall_mem_append.mpr ⟨h, h'⟩

theorem InCapitals.of_sublist {cs ds : List Char} (h : InCapitals ds) (hsub : cs.Sublist ds) :
    InCapitals cs :=
  fun c hc => h c (hsub.subset hc)

/-! ### Numbers -/

theorem isBlank_of_isDigit {c : Char} (h : c.isDigit = true) : isBlank c = false := by
  obtain ⟨hge, hle⟩ := Char.isDigit_iff_toNat.mp h
  have hge' : 48 ≤ c.toNat := hge
  have hle' : c.toNat ≤ 57 := hle
  simp only [isBlank, Bool.or_eq_false_iff, Bool.and_eq_false_iff, decide_eq_false_iff_not,
    beq_eq_false_iff_ne]
  omega

theorem isLower_of_isDigit {c : Char} (h : c.isDigit = true) : c.isLower = false := by
  simp only [Char.isDigit, Bool.and_eq_true, decide_eq_true_eq] at h
  simp only [Char.isLower, Bool.and_eq_false_iff, decide_eq_false_iff_not]
  exact .inl fun hlower => absurd (UInt32.le_trans hlower h.2) (by decide)

theorem isDigit_of_mem_toDigits {n : Nat} {c : Char} (h : c ∈ Nat.toDigits 10 n) :
    c.isDigit = true :=
  Nat.isDigit_of_mem_toDigits (by decide) (by decide) h

theorem inCapitals_toDigits (n : Nat) : InCapitals (Nat.toDigits 10 n) :=
  fun _ hc => isLower_of_isDigit (isDigit_of_mem_toDigits hc)

theorem trim_toDigits (n : Nat) : trim (Nat.toDigits 10 n) = Nat.toDigits 10 n :=
  trim_eq_self
    (fun _ hc => isBlank_of_isDigit (isDigit_of_mem_toDigits (List.mem_of_head? hc)))
    fun _ hc => isBlank_of_isDigit (isDigit_of_mem_toDigits (List.mem_of_getLast? hc))

theorem decimalValue_toDigits (n : Nat) : decimalValue (Nat.toDigits 10 n) = n :=
  Nat.ofDigitChars_ten_toDigits

theorem ofDigits?_toDigits (n : UInt32) : ofDigits? (Nat.toDigits 10 n.toNat) = some n := by
  rw [ofDigits?, if_pos, decimalValue_toDigits, UInt32.ofNat_toNat]
  refine ⟨Nat.toDigits_ne_nil, List.all_eq_true.mpr fun c hc => isDigit_of_mem_toDigits hc, ?_⟩
  rw [decimalValue_toDigits]
  exact n.toNat_lt_size

/-- **The digits of a number are read as the number.** -/
theorem ofSigned?_toDigits (n : UInt32) : ofSigned? (Nat.toDigits 10 n.toNat) = some n := by
  rw [ofSigned?]
  · exact ofDigits?_toDigits n
  · -- No sign is a digit.
    intro cs h
    have hdigit := isDigit_of_mem_toDigits (h ▸ List.mem_cons_self)
    exact absurd hdigit (by decide)

end DirectoryTables.Text
