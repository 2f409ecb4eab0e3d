import DirectoryTables.Backend

/-!
# Backends — Fitting

A fitted name is never longer than the backend allows (`utf8ByteSize_fit_le`), so fitting it again
changes nothing (`fit_fit`).  One that was too long ends in digits (`exists_digits_of_fit`).
Different names are fitted to different ones, unless one of them is too long and they coincide
(`fit_eq_fit_iff`).
-/

namespace DirectoryTables

namespace Text

theorem utf8ByteSize_ofList (cs : List Char) : (String.ofList cs).utf8ByteSize = byteLength cs := by
  induction cs with
  | nil => rfl
  | cons c cs ih =>
    rw [String.ofList_cons, String.utf8ByteSize_append, String.utf8ByteSize_singleton, ih]
    rfl

theorem byteLength_append (cs ds : List Char) :
    byteLength (cs ++ ds) = byteLength cs + byteLength ds := by
  rw [← utf8ByteSize_ofList, String.ofList_append, String.utf8ByteSize_append,
    utf8ByteSize_ofList, utf8ByteSize_ofList]

/-- Characters of one byte each take as many bytes as there are. -/
theorem byteLength_eq_length {cs : List Char} (h : ∀ c ∈ cs, c.utf8Size = 1) :
    byteLength cs = cs.length := by
  induction cs with
  | nil => rfl
  | cons c cs ih =>
    rw [byteLength, h c List.mem_cons_self, ih fun d hd => h d (List.mem_cons_of_mem c hd),
      List.length_cons, Nat.add_comm]

end Text

namespace Digest

theorem utf8Size_digitChar (n : Nat) : (Nat.digitChar n).utf8Size = 1 := by
  by_cases h : n < 16
  · have hdigit : ∀ d : Fin 16, (Nat.digitChar d).utf8Size = 1 := by decide
    exact hdigit ⟨n, h⟩
  · rw [Nat.digitChar_eq_star.mpr (Nat.le_of_not_lt h)]
    rfl

theorem exists_digitChar_of_mem_hexDigest {name : String} {c : Char} (h : c ∈ hexDigest name) :
    ∃ n, c = Nat.digitChar n := by
  obtain ⟨w, -, hw⟩ := List.mem_flatMap.mp h
  simp only [wordDigits, byteDigits, List.cons_append, List.nil_append, List.mem_cons,
    List.not_mem_nil, or_false] at hw
  rcases hw with rfl | rfl | rfl | rfl | rfl | rfl | rfl | rfl <;> exact ⟨_, rfl⟩

/-- The digits of a digest take one byte each. -/
theorem utf8Size_of_mem_hexDigest {name : String} {c : Char} (h : c ∈ hexDigest name) :
    c.utf8Size = 1 := by
  obtain ⟨n, rfl⟩ := exists_digitChar_of_mem_hexDigest h
  exact utf8Size_digitChar n

end Digest

namespace Backend

theorem fitWith_of_le {digest : String → List Char} {limit : Nat} {name : String}
    (h : name.utf8ByteSize ≤ limit) : fitWith digest limit name = name :=
  if_pos h

/-- What is left of a longer name, an underscore and eight digits fit in the limit. -/
theorem utf8ByteSize_fitWith_le {digest : String → List Char} {limit : Nat} {name : String}
    (hlimit : 9 ≤ limit) (hdigest : ∀ c ∈ digest name, c.utf8Size = 1) :
    (fitWith digest limit name).utf8ByteSize ≤ limit := by
  by_cases h : name.utf8ByteSize ≤ limit
  · rwa [fitWith_of_le h]
  · have hkept := Text.byteLength_takeBytes_le (limit - 9) name.toList
    have hdigits : Text.byteLength ((digest name).take 8) ≤ 8 := by
      rw [Text.byteLength_eq_length fun c hc => hdigest c (List.mem_of_mem_take hc)]
      exact List.length_take_le 8 _
    have hmark : Text.byteLength ('_' :: (digest name).take 8) =
        1 + Text.byteLength ((digest name).take 8) := rfl
    rw [fitWith, if_neg h, Text.utf8ByteSize_ofList, Text.byteLength_append, hmark]
    omega

theorem nine_le_maxNameLength (b : Backend) : 9 ≤ b.maxNameLength := by
  cases hd : b.dialect <;> simp [maxNameLength, hd]

/-- **A fitted name is not too long** for the backend. -/
theorem utf8ByteSize_fit_le (b : Backend) (name : String) :
    (b.fit name).utf8ByteSize ≤ b.maxNameLength :=
  utf8ByteSize_fitWith_le b.nine_le_maxNameLength fun _ hc => Digest.utf8Size_of_mem_hexDigest hc

/-- **Fitting is idempotent.** -/
theorem fit_fit (b : Backend) (name : String) : b.fit (b.fit name) = b.fit name :=
  fitWith_of_le (utf8ByteSize_fit_le b name)

/-- A name that was too long ends in eight digits of its digest. -/
theorem exists_digits_of_fit {b : Backend} {name : String}
    (h : b.maxNameLength < name.utf8ByteSize) :
    ∃ kept digits, (b.fit name).toList = kept ++ digits ∧ digits.length = 8 ∧
      ∀ c ∈ digits, ∃ n, c = Nat.digitChar n := by
  refine ⟨Text.takeBytes (b.maxNameLength - 9) name.toList ++ ['_'],
    (Digest.hexDigest name).take 8, ?_, by simp, fun c hc => ?_⟩
  · rw [fit, fitWith, if_neg (Nat.not_le.mpr h), String.toList_ofList, List.append_assoc]
    rfl
  · exact Digest.exists_digitChar_of_mem_hexDigest (List.mem_of_mem_take hc)

/-- Different names, one of them too long, that are fitted to the same one. -/
structure Coincide (b : Backend) (x y : String) : Prop where
  ne : x ≠ y
  long : b.maxNameLength < x.utf8ByteSize ∨ b.maxNameLength < y.utf8ByteSize
  fit : b.fit x = b.fit y

theorem fit_eq_fit_iff {b : Backend} {x y : String} :
    b.fit x = b.fit y ↔ x = y ∨ b.Coincide x y := by
  constructor
  · intro h
    by_cases hne : x = y
    · exact .inl hne
    · refine .inr ⟨hne, Decidable.byContradiction fun hlong => hne ?_, h⟩
      obtain ⟨hx, hy⟩ := not_or.mp hlong
      rwa [Backend.fit, Backend.fit, fitWith_of_le (Nat.le_of_not_lt hx),
        fitWith_of_le (Nat.le_of_not_lt hy)] at h
  · rintro (rfl | h)
    · rfl
    · exact h.fit

end Backend

end DirectoryTables
