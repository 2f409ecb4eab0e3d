import DirectoryTables.Proofs.Backend.Collisions
import Mathlib.Data.Nat.Find

/-!
# Backends — Boundaries

Where a name that is too long is cut.  The search for the place goes back byte by byte, from the
last byte that leaves room for an underscore and eight digits to the first position between two
characters (`boundaryBefore`).

* `IsLongestPrefix.utf8ByteSize_eq`: what precedes that position is the longest prefix of whole
  characters with room for the rest.
* `IsLongestPrefix.le_add_three`: a character has at most four bytes, so the search goes back by at
  most three.
* `isCut_fitWith`: a name that is too long is cut there, and falls short of the limit by at most
  three bytes.
-/

namespace DirectoryTables

namespace Text

/-- The last position between characters up to the given one, found by going back from that one
byte by byte. -/
def boundaryBefore (s : String) (n : Nat) : Nat :=
  Nat.findGreatest (fun i => String.Pos.Raw.IsValid s ⟨i⟩) n

/-- `kept` is the longest prefix of whole characters that takes at most `n` bytes. -/
structure IsLongestPrefix (n : Nat) (kept s : String) : Prop where
  isPrefix : kept.toList <+: s.toList
  fits : kept.utf8ByteSize ≤ n
  longest : ∀ other : String, other.toList <+: s.toList → other.utf8ByteSize ≤ n →
    other.toList <+: kept.toList

/-! ### Prefixes and positions -/

theorem exists_append_of_isPrefix {p s : String} (h : p.toList <+: s.toList) :
    ∃ rest, s = p ++ rest := by
  obtain ⟨rest, h⟩ := h
  refine ⟨String.ofList rest, String.toList_inj.mp ?_⟩
  rw [String.toList_append, String.toList_ofList, h]

theorem prefix_append (p rest : String) : p.toList <+: (p ++ rest).toList := by
  rw [String.toList_append]
  exact List.prefix_append _ _

theorem utf8ByteSize_le_of_isPrefix {p s : String} (h : p.toList <+: s.toList) :
    p.utf8ByteSize ≤ s.utf8ByteSize := by
  obtain ⟨rest, rfl⟩ := exists_append_of_isPrefix h
  rw [String.utf8ByteSize_append]
  exact Nat.le_add_right _ _

/-- The positions between characters are the lengths of prefixes. -/
theorem isValid_iff_exists_prefix {s : String} {n : Nat} :
    String.Pos.Raw.IsValid s ⟨n⟩ ↔ ∃ p : String, p.toList <+: s.toList ∧ p.utf8ByteSize = n := by
  rw [String.Pos.Raw.isValid_iff_exists_append]
  constructor
  · rintro ⟨p, rest, rfl, h⟩
    exact ⟨p, prefix_append p rest, (congrArg String.Pos.Raw.byteIdx h).symm⟩
  · rintro ⟨p, hp, rfl⟩
    obtain ⟨rest, rfl⟩ := exists_append_of_isPrefix hp
    exact ⟨p, rest, rfl, rfl⟩

/-! ### The longest prefix -/

theorem prefix_takeBytes {p cs : List Char} {n : Nat} (h : p <+: cs) (hn : byteLength p ≤ n) :
    p <+: takeBytes n cs := by
  induction cs generalizing p n with
  | nil => simpa [takeBytes] using h
  | cons c cs ih =>
    cases p with
    | nil => exact List.nil_prefix
    | cons d p =>
      obtain ⟨rfl, hp⟩ := List.cons_prefix_cons.mp h
      rw [byteLength] at hn
      have hd : d.utf8Size ≤ n := Nat.le_trans (Nat.le_add_right _ _) hn
      rw [takeBytes, if_pos hd, List.cons_prefix_cons]
      exact ⟨rfl, ih hp (by omega)⟩

theorem isLongestPrefix_takeBytes (n : Nat) (s : String) :
    IsLongestPrefix n (String.ofList (takeBytes n s.toList)) s where
  isPrefix := by
    rw [String.toList_ofList]
    exact takeBytes_prefix n s.toList
  fits := by
    rw [utf8ByteSize_ofList]
    exact byteLength_takeBytes_le n s.toList
  longest p hp hn := by
    rw [String.toList_ofList]
    refine prefix_takeBytes hp ?_
    rwa [← utf8ByteSize_ofList, String.ofList_toList]

namespace IsLongestPrefix

variable {n : Nat} {kept s : String}

/-- The search stops where the longest prefix ends. -/
theorem utf8ByteSize_eq (h : IsLongestPrefix n kept s) :
    kept.utf8ByteSize = boundaryBefore s n := by
  refine (Nat.findGreatest_eq_iff.mpr ⟨h.fits, fun _ => ?_, fun m hm hmn hvalid => ?_⟩).symm
  · exact isValid_iff_exists_prefix.mpr ⟨kept, h.isPrefix, rfl⟩
  · obtain ⟨p, hp, rfl⟩ := isValid_iff_exists_prefix.mp hvalid
    exact Nat.not_le.mpr hm (utf8ByteSize_le_of_isPrefix (h.longest p hp hmn))

/-- With the next character it would be too long, and that has at most four bytes. -/
theorem le_add_three (h : IsLongestPrefix n kept s) (hn : n ≤ s.utf8ByteSize) :
    n ≤ kept.utf8ByteSize + 3 := by
  obtain ⟨rest, hs⟩ := exists_append_of_isPrefix h.isPrefix
  cases hrest : rest.toList with
  | nil =>
    rw [String.toList_eq_nil_iff.mp hrest, String.append_empty] at hs
    subst hs
    exact Nat.le_add_right_of_le hn
  | cons c cs =>
    have hnext : (kept ++ String.singleton c).toList <+: s.toList := by
      rw [hs, String.toList_append, String.toList_append, hrest, String.toList_singleton]
      exact (List.prefix_append_right_inj _).mpr ⟨cs, rfl⟩
    by_contra hlt
    -- it would fit, and so be part of itself
    have hsize : (kept ++ String.singleton c).utf8ByteSize = kept.utf8ByteSize + c.utf8Size := by
      rw [String.utf8ByteSize_append, String.utf8ByteSize_singleton]
    have hfour := c.utf8Size_le_four
    have hpos := c.utf8Size_pos
    have hle := utf8ByteSize_le_of_isPrefix (h.longest _ hnext (by omega))
    omega

end IsLongestPrefix

theorem isValid_boundaryBefore (s : String) (n : Nat) :
    String.Pos.Raw.IsValid s ⟨boundaryBefore s n⟩ := by
  have h := isLongestPrefix_takeBytes n s
  exact isValid_iff_exists_prefix.mpr ⟨_, h.isPrefix, h.utf8ByteSize_eq⟩

end Text

namespace Backend

open Text

/-- What a name that is too long is cut to: what precedes the boundary that the search finds, an
underscore, and eight digits. -/
structure IsCut (digest : String → List Char) (limit : Nat) (name cut : String) : Prop where
  /-- The search stops between two characters. -/
  boundary : String.Pos.Raw.IsValid name ⟨boundaryBefore name (limit - 9)⟩
  /-- It has gone back by at most three bytes. -/
  near : limit - 12 ≤ boundaryBefore name (limit - 9)
  parts : ∃ kept digits : String, cut = kept ++ "_" ++ digits ∧
    IsLongestPrefix (limit - 9) kept name ∧
    kept.utf8ByteSize = boundaryBefore name (limit - 9) ∧
    digits.toList = (digest name).take 8 ∧ digits.length = 8
  size_ge : limit - 3 ≤ cut.utf8ByteSize
  size_le : cut.utf8ByteSize ≤ limit

variable {digest : String → List Char} {limit : Nat} {name : String}

theorem fitWith_eq_append (h : limit < name.utf8ByteSize) :
    fitWith digest limit name =
      String.ofList (takeBytes (limit - 9) name.toList) ++ "_" ++
        String.ofList ((digest name).take 8) := by
  rw [← String.toList_inj, toList_fitWith_of_lt h, String.toList_append, String.toList_append,
    List.append_assoc]
  simp only [String.toList_ofList]
  rfl

/-- **What a name that is too long is fitted to.** -/
theorem isCut_fitWith (hdigest : IsDigest digest) (hlimit : 9 ≤ limit)
    (h : limit < name.utf8ByteSize) : IsCut digest limit name (fitWith digest limit name) := by
  have hkept := isLongestPrefix_takeBytes (limit - 9) name
  have hnear := hkept.le_add_three (by omega)
  have hdigits : (String.ofList ((digest name).take 8)).utf8ByteSize = 8 := by
    rw [utf8ByteSize_ofList, byteLength_eq_length, hdigest.length_take]
    exact fun c hc => hdigest.utf8Size name c (List.mem_of_mem_take hc)
  have hsize : (fitWith digest limit name).utf8ByteSize =
      (String.ofList (takeBytes (limit - 9) name.toList)).utf8ByteSize + 9 := by
    rw [fitWith_eq_append h, String.utf8ByteSize_append, String.utf8ByteSize_append, hdigits]
    rfl
  refine ⟨isValid_boundaryBefore name _, ?_, ⟨_, _, fitWith_eq_append h, hkept,
    hkept.utf8ByteSize_eq, String.toList_ofList, ?_⟩, ?_, ?_⟩
  · rw [← hkept.utf8ByteSize_eq]
    omega
  · rw [String.length_ofList, hdigest.length_take]
  · omega
  · exact utf8ByteSize_fitWith_le hlimit (hdigest.utf8Size name)

end Backend

end DirectoryTables
