import DirectoryTables.Proofs.Backend.Fitting
import Mathlib.Logic.ExistsUnique

/-!
# Backends — Collisions

Which names are fitted to the same one, whatever digest the digits at the end of a cut name are
taken from.

What a name is cut to is a name within the limit, and one that is fitted to itself.  So each name
that is too long collides with exactly one name that is not, and no digest keeps all names apart
(`fitted_eq_iff`).  Two names that are too long collide if they begin alike and the first digits of
their digests are the same.

* `IsDigest`: what is needed of a digest.
* `CutAlike`: names that are cut to the same one.
* `fitWith_eq_fitWith_iff`: when fitted names are the same, for any limit.
-/

namespace DirectoryTables.Backend

/-- The digest gives eight digits or more for every name, of one byte each. -/
structure IsDigest (digest : String → List Char) : Prop where
  length_ge : ∀ name, 8 ≤ (digest name).length
  utf8Size : ∀ name, ∀ c ∈ digest name, c.utf8Size = 1

theorem isDigest_hexDigest : IsDigest Digest.hexDigest where
  length_ge name := by rw [Digest.length_hexDigest]; decide
  utf8Size _ _ hc := Digest.utf8Size_of_mem_hexDigest hc

/-- What is kept of the two names is the same, and so are the digits after it. -/
structure CutAlike (digest : String → List Char) (limit : Nat) (x y : String) : Prop where
  kept : Text.takeBytes (limit - 9) x.toList = Text.takeBytes (limit - 9) y.toList
  digits : (digest x).take 8 = (digest y).take 8

section

variable {digest : String → List Char} {limit : Nat} {x y : String}

theorem IsDigest.length_take (h : IsDigest digest) (name : String) :
    ((digest name).take 8).length = 8 :=
  List.length_take_of_le (h.length_ge name)

theorem toList_fitWith_of_lt (h : limit < x.utf8ByteSize) :
    (fitWith digest limit x).toList =
      Text.takeBytes (limit - 9) x.toList ++ '_' :: (digest x).take 8 := by
  rw [fitWith, if_neg (Nat.not_le.mpr h), String.toList_ofList]

theorem fitWith_fitWith (hdigest : IsDigest digest) (hlimit : 9 ≤ limit) (name : String) :
    fitWith digest limit (fitWith digest limit name) = fitWith digest limit name :=
  fitWith_of_le (utf8ByteSize_fitWith_le hlimit (hdigest.utf8Size name))

/-- Nothing is cut to a name that is too long. -/
theorem ne_fitWith_of_lt (hdigest : IsDigest digest) (hlimit : 9 ≤ limit)
    (hy : limit < y.utf8ByteSize) (x : String) : y ≠ fitWith digest limit x := by
  rintro rfl
  exact Nat.not_le.mpr hy (utf8ByteSize_fitWith_le hlimit (hdigest.utf8Size x))

/-- The digits are as many after every name, so equal texts are cut and marked alike. -/
theorem fitWith_eq_iff_cutAlike (hdigest : IsDigest digest) (hx : limit < x.utf8ByteSize)
    (hy : limit < y.utf8ByteSize) :
    fitWith digest limit x = fitWith digest limit y ↔ CutAlike digest limit x y := by
  rw [← String.toList_inj, toList_fitWith_of_lt hx, toList_fitWith_of_lt hy]
  constructor
  · intro h
    have hlength : ('_' :: (digest x).take 8).length = ('_' :: (digest y).take 8).length := by
      rw [List.length_cons, List.length_cons, hdigest.length_take, hdigest.length_take]
    obtain ⟨hkept, hmarked⟩ := List.append_inj' h hlength
    exact ⟨hkept, (List.cons.inj hmarked).2⟩
  · rintro ⟨hkept, hdigits⟩
    rw [hkept, hdigits]

/-- Fitted names are the same if the names are, if one of them is what the other is cut to, or if
both are too long and are cut alike. -/
theorem fitWith_eq_fitWith_iff (hdigest : IsDigest digest) (hlimit : 9 ≤ limit) :
    fitWith digest limit x = fitWith digest limit y ↔
      x = y ∨
      (limit < x.utf8ByteSize ∧ y = fitWith digest limit x) ∨
      (limit < y.utf8ByteSize ∧ x = fitWith digest limit y) ∨
      (limit < x.utf8ByteSize ∧ limit < y.utf8ByteSize ∧ CutAlike digest limit x y) := by
  constructor
  · intro h
    obtain hx | hx := Nat.lt_or_ge limit x.utf8ByteSize <;>
      obtain hy | hy := Nat.lt_or_ge limit y.utf8ByteSize
    · exact .inr (.inr (.inr ⟨hx, hy, (fitWith_eq_iff_cutAlike hdigest hx hy).mp h⟩))
    · rw [fitWith_of_le hy] at h
      exact .inr (.inl ⟨hx, h.symm⟩)
    · rw [fitWith_of_le hx] at h
      exact .inr (.inr (.inl ⟨hy, h⟩))
    · rw [fitWith_of_le hx, fitWith_of_le hy] at h
      exact .inl h
  · rintro (rfl | ⟨-, rfl⟩ | ⟨-, rfl⟩ | ⟨hx, hy, hcut⟩)
    · rfl
    · exact (fitWith_fitWith hdigest hlimit x).symm
    · exact fitWith_fitWith hdigest hlimit y
    · exact (fitWith_eq_iff_cutAlike hdigest hx hy).mpr hcut

/-- A name that is too long is cut to the only name within the limit that it collides with. -/
theorem existsUnique_fitWith_eq (hdigest : IsDigest digest) (hlimit : 9 ≤ limit) (x : String) :
    ∃! y, y.utf8ByteSize ≤ limit ∧ fitWith digest limit y = fitWith digest limit x := by
  refine ⟨fitWith digest limit x, ⟨?_, fitWith_fitWith hdigest hlimit x⟩, fun y ⟨hy, h⟩ => ?_⟩
  · exact utf8ByteSize_fitWith_le hlimit (hdigest.utf8Size x)
  · rwa [fitWith_of_le hy] at h

end

theorem exists_lt_utf8ByteSize (limit : Nat) : ∃ x : String, limit < x.utf8ByteSize := by
  refine ⟨String.ofList (List.replicate (limit + 1) '_'), ?_⟩
  rw [Text.utf8ByteSize_ofList, Text.byteLength_eq_length, List.length_replicate]
  · exact Nat.lt_succ_self limit
  · intro c hc
    rw [List.eq_of_mem_replicate hc]
    rfl

/-- **When names collide.**  Fitted names are the same if the names are, if one of them is what the
other is cut to, or if both are too long and are cut alike.  Each name that is too long collides
with exactly one name that is not, so with any digest there are different names that collide. -/
theorem fitted_eq_iff (b : Backend) {digest : String → List Char} (hdigest : IsDigest digest) :
    (∀ x y, fitWith digest b.maxNameLength x = fitWith digest b.maxNameLength y ↔
      x = y ∨
      (b.maxNameLength < x.utf8ByteSize ∧ y = fitWith digest b.maxNameLength x) ∨
      (b.maxNameLength < y.utf8ByteSize ∧ x = fitWith digest b.maxNameLength y) ∨
      (b.maxNameLength < x.utf8ByteSize ∧ b.maxNameLength < y.utf8ByteSize ∧
        CutAlike digest b.maxNameLength x y)) ∧
    (∀ x, b.maxNameLength < x.utf8ByteSize → ∃! y, y.utf8ByteSize ≤ b.maxNameLength ∧
      fitWith digest b.maxNameLength y = fitWith digest b.maxNameLength x) ∧
    ∃ x y, x ≠ y ∧ fitWith digest b.maxNameLength x = fitWith digest b.maxNameLength y := by
  have hunique := existsUnique_fitWith_eq hdigest b.nine_le_maxNameLength
  refine ⟨fun x y => fitWith_eq_fitWith_iff hdigest b.nine_le_maxNameLength,
    fun x _ => hunique x, ?_⟩
  obtain ⟨x, hx⟩ := exists_lt_utf8ByteSize b.maxNameLength
  obtain ⟨y, ⟨hy, h⟩, -⟩ := hunique x
  refine ⟨x, y, ?_, h.symm⟩
  rintro rfl
  exact absurd hx (Nat.not_lt.mpr hy)

/-- The name of an index of a table, which is too long but on Spanner. -/
def ticketIndex (table : String) : String :=
  table ++ "_jansUmaPermissionClaimsGatheringTicket_json_1"

/-- The two names are cut to different texts. -/
theorem fitted_eq_iff_ticketIndex :
    IsDigest Digest.hexDigest ∧
      fit { dialect := .pgsql, version := none } (ticketIndex "jansUmaResourcePermission") ≠
        fit { dialect := .pgsql, version := none } (ticketIndex "gluuUmaResourcePermission") := by
  refine ⟨isDigest_hexDigest, fun h => ?_⟩
  obtain h | ⟨-, h⟩ | ⟨-, h⟩ | ⟨-, -, h⟩ := ((fitted_eq_iff _ isDigest_hexDigest).1 _ _).mp h
  · exact absurd h (by decide)
  · exact ne_fitWith_of_lt isDigest_hexDigest (by decide) (by decide) _ h
  · exact ne_fitWith_of_lt isDigest_hexDigest (by decide) (by decide) _ h
  · exact absurd h.kept (by decide)

/-- Different names can be fitted to the same one: a name and what it is cut to. -/
theorem not_fit_apart : ¬ ∀ (b : Backend) (x y : String), x ≠ y → b.fit x ≠ b.fit y := by
  intro h
  have hcut : fit { dialect := .mysql, version := none } (ticketIndex "jansUmaResourcePermission") =
      "jansUmaResourcePermission_jansUmaPermissionClaimsGather_b408d82d" := by decide +kernel
  have hapart := h { dialect := .mysql, version := none }
    (ticketIndex "jansUmaResourcePermission")
    "jansUmaResourcePermission_jansUmaPermissionClaimsGather_b408d82d" (by decide)
  rw [← hcut, fit_fit] at hapart
  exact hapart rfl

end DirectoryTables.Backend
