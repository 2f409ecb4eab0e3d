import DirectoryTables.Text.Case
import Mathlib.Data.List.Induction

/-!
# Text — Distinct names

Which of the names of a list `distinctNames` keeps, and in which order.

* `firstOccurrences`: the names that no earlier name of the list equals, letter case aside, said
  by position.
* `distinctNames_eq_firstOccurrences`: the distinct names are these, and nothing is reordered.
* `distinctNames_filter`: names can be dropped before or after, if whole names are dropped.
* `exists_mem_distinctNames`: every name of the list is kept in some spelling.
* `nodup_distinctNames`: no two spellings of a name are kept.
-/

namespace DirectoryTables.Text

/-! ### Names that are listed -/

theorem listsName_iff_mem {names : List String} {name : String} :
    listsName names name = true ↔ lower name ∈ names.map lower := by
  rw [listsName_iff, List.mem_map]

theorem listsName_eq_false_iff {names : List String} {name : String} :
    listsName names name = false ↔ lower name ∉ names.map lower := by
  rw [← listsName_iff_mem, Bool.not_eq_true]

theorem listsName_cons (m : String) (names : List String) (n : String) :
    listsName (m :: names) n = (sameName m n || listsName names n) := rfl

/-- A list has one name or the other, if they differ in letter case only. -/
theorem listsName_congr {a b : String} (h : sameName a b = true) (names : List String) :
    listsName names a = listsName names b := by
  rw [Bool.eq_iff_iff, listsName_iff_mem, listsName_iff_mem, sameName_iff.mp h]

/-! ### First occurrences -/

/-- The names of a list that equal none before them, letter case aside. -/
def firstOccurrences (names : List String) : List String :=
  (names.zipIdx.filter fun (n, i) => !listsName (names.take i) n).map Prod.fst

theorem firstOccurrences_concat (names : List String) (n : String) :
    firstOccurrences (names ++ [n]) =
      firstOccurrences names ++ if listsName names n then [] else [n] := by
  have hold : names.zipIdx.filter (fun (m, i) => !listsName ((names ++ [n]).take i) m) =
      names.zipIdx.filter fun (m, i) => !listsName (names.take i) m := by
    refine List.filter_congr fun ⟨m, i⟩ h => ?_
    have hi : i < names.length := by simpa using (List.mem_zipIdx h).2.1
    simp only [List.take_append_of_le_length (Nat.le_of_lt hi)]
  rw [firstOccurrences, firstOccurrences, List.zipIdx_append, List.filter_append, List.map_append,
    hold]
  cases hn : listsName names n <;> simp [hn]

theorem distinctNames_concat (names : List String) (n : String) :
    distinctNames (names ++ [n]) =
      distinctNames names ++ if listsName names n then [] else [n] := by
  induction names with
  | nil => rfl
  | cons m names ih =>
    rw [List.cons_append, distinctNames, distinctNames, ih, List.filter_append, List.cons_append,
      listsName_cons]
    cases hn : listsName names n <;> cases hm : sameName m n <;>
      simp [sameName_comm n m, hm]

/-- **Distinct names are first occurrences.** -/
theorem distinctNames_eq_firstOccurrences (names : List String) :
    distinctNames names = firstOccurrences names := by
  -- Both lists grow alike at the end: an occurrence depends on the names before it.
  induction names using List.reverseRecOn with
  | nil => rfl
  | append_singleton names n ih => rw [distinctNames_concat, firstOccurrences_concat, ih]

example : firstOccurrences ["cn", "o", "CN", "sn", "O"] = ["cn", "o", "sn"] := rfl

/-! ### Names that are kept -/

theorem distinctNames_sublist (names : List String) : (distinctNames names).Sublist names := by
  induction names with
  | nil => exact List.Sublist.refl _
  | cons n names ih => exact (List.filter_sublist.trans ih).cons_cons n

/-- The distinct names of a list have different forms in lower case. -/
theorem nodup_distinctNames (names : List String) : ((distinctNames names).map lower).Nodup := by
  induction names with
  | nil => exact List.nodup_nil
  | cons n names ih =>
    rw [distinctNames, List.map_cons, List.nodup_cons]
    refine ⟨fun h => ?_, ih.sublist (List.filter_sublist.map lower)⟩
    obtain ⟨m, hm, e⟩ := List.mem_map.mp h
    have hne : sameName m n = false := by simpa using (List.mem_filter.mp hm).2
    rw [sameName_iff.mpr e] at hne
    cases hne

/-- A test that does not look at letter case drops the same names before and after. -/
theorem distinctNames_filter {p : String → Bool}
    (hp : ∀ {a b : String}, sameName a b = true → p a = p b) (names : List String) :
    distinctNames (names.filter p) = (distinctNames names).filter p := by
  induction names with
  | nil => rfl
  | cons n names ih =>
    rw [distinctNames, List.filter_cons, List.filter_cons]
    cases hn : p n with
    | true => simp only [if_true, distinctNames, ih, List.filter_filter, Bool.and_comm]
    | false =>
      -- The other spellings of `n` are dropped by `p` as well.
      rw [if_neg Bool.false_ne_true, if_neg Bool.false_ne_true, ih, List.filter_filter]
      refine List.filter_congr fun m _ => ?_
      cases hm : sameName m n with
      | true => rw [hp hm, hn]; rfl
      | false => simp

theorem exists_mem_distinctNames {names : List String} {n : String} (h : n ∈ names) :
    ∃ m ∈ distinctNames names, sameName m n = true := by
  induction names with
  | nil => cases h
  | cons k names ih =>
    rw [distinctNames]
    obtain rfl | h := List.mem_cons.mp h
    · exact ⟨n, List.mem_cons_self, sameName_self n⟩
    · obtain ⟨m, hm, e⟩ := ih h
      cases hk : sameName m k with
      | true => exact ⟨k, List.mem_cons_self, sameName_trans (sameName_comm m k ▸ hk) e⟩
      | false => exact ⟨m, List.mem_cons_of_mem _ (List.mem_filter.mpr ⟨hm, by simp [hk]⟩), e⟩

end DirectoryTables.Text
