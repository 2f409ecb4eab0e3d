import DirectoryTables.Proofs.Text.Values
import DirectoryTables.Version

/-!
# Versions — Reading

How texts are read as versions.  What counts is the longest run of digits and points at the start
of the trimmed text, as groups of digits with points before, between and after them (`Grouped`,
`Reads`).

* `grouped_iff`: a run of digits and points has exactly one row of groups, its pieces between points
  without the empty ones.
* `parse?_eq_some_iff`: the version is made of the first three groups, where missing ones count as
  zero.
* `reads_text`: the text of a version is read as its numbers first, whatever blanks come before and
  whatever follows, unless that starts with a digit.
-/

namespace DirectoryTables.Version

open Text

/-! ### Groups of digits -/

/-- The groups of digits in a run of digits and points, in order.  A group ends where a point or
the end of the run follows. -/
inductive Grouped : List Char → List (List Char) → Prop where
  | nil : Grouped [] []
  | point {cs : List Char} {gs : List (List Char)} (t : Grouped cs gs) : Grouped ('.' :: cs) gs
  | group {g cs : List Char} {gs : List (List Char)} (hne : g ≠ [])
      (hdigits : ∀ c ∈ g, c.isDigit = true) (hend : ∀ c ∈ cs.head?, c = '.')
      (t : Grouped cs gs) : Grouped (g ++ cs) (g :: gs)

/-- The groups of a text: those of the longest run of digits and points at the start of the trimmed
text. -/
def Reads (s : String) (gs : List (List Char)) : Prop :=
  ∃ run rest, trim s.toList = run ++ rest ∧ (∀ c ∈ rest.head?, isNumeric c = false) ∧
    Grouped run gs

theorem isNumeric_iff {c : Char} : isNumeric c = true ↔ c.isDigit = true ∨ c = '.' := by
  rw [isNumeric, Bool.or_eq_true, beq_iff_eq]

/-- The pieces of a text between points, without the empty ones. -/
def pieces (cs : List Char) : List (List Char) :=
  (cs.splitOnP (· == '.')).filter (· ≠ [])

theorem pieces_point (cs : List Char) : pieces ('.' :: cs) = pieces cs := by
  rw [pieces, List.splitOnP_cons_eq_if_modifyHead]
  rfl

theorem pieces_group {g cs : List Char} (hne : g ≠ []) (hdigits : ∀ c ∈ g, c.isDigit = true)
    (hend : ∀ c ∈ cs.head?, c = '.') : pieces (g ++ cs) = g :: pieces cs := by
  have hpoint : ∀ c ∈ g, (c == '.') = false := by
    intro c hc
    refine beq_eq_false_iff_ne.mpr ?_
    rintro rfl
    exact absurd (hdigits _ hc) (by decide)
  cases cs with
  | nil =>
    rw [List.append_nil, pieces, List.splitOnP_eq_singleton hpoint]
    exact List.filter_cons_of_pos (decide_eq_true hne)
  | cons c cs =>
    obtain rfl := hend c rfl
    rw [pieces, List.splitOnP_append_cons_of_forall_mem hpoint _ rfl, pieces_point]
    exact List.filter_cons_of_pos (decide_eq_true hne)

theorem eq_false_of_mem_head?_dropWhile {p : Char → Bool} {cs : List Char} {c : Char}
    (h : c ∈ (cs.dropWhile p).head?) : p c = false := by
  have hnot := List.head?_dropWhile_not p cs
  rw [Option.mem_def.mp h] at hnot
  exact hnot

namespace Grouped

variable {cs : List Char} {gs : List (List Char)}

theorem isNumeric (h : Grouped cs gs) : ∀ c ∈ cs, isNumeric c = true := by
  induction h with
  | nil => exact fun _ hc => absurd hc List.not_mem_nil
  | point _ ih => exact List.forall_mem_cons.mpr ⟨rfl, ih⟩
  | group _ hdigits _ _ ih =>
    exact List.forall_mem_append.mpr ⟨fun c hc => isNumeric_iff.mpr (.inl (hdigits c hc)), ih⟩

theorem eq_pieces (h : Grouped cs gs) : gs = pieces cs := by
  induction h with
  | nil => rfl
  | point _ ih => rw [pieces_point, ih]
  | group hne hdigits hend _ ih => rw [pieces_group hne hdigits hend, ← ih]

/-- Groups are numerals. -/
theorem digits (h : Grouped cs gs) : ∀ g ∈ gs, g ≠ [] ∧ ∀ c ∈ g, c.isDigit = true := by
  induction h with
  | nil => exact fun _ hg => absurd hg List.not_mem_nil
  | point _ ih => exact ih
  | group hne hdigits _ _ ih => exact List.forall_mem_cons.mpr ⟨⟨hne, hdigits⟩, ih⟩

/-- The digits from one on, up to the first point, are a group. -/
theorem of_dropWhile {c : Char} (hc : c.isDigit = true)
    (t : Grouped (cs.dropWhile Char.isDigit) gs) :
    Grouped (c :: cs) ((c :: cs.takeWhile Char.isDigit) :: gs) := by
  have hdigits : ∀ d ∈ c :: cs.takeWhile Char.isDigit, d.isDigit = true :=
    List.forall_mem_cons.mpr ⟨hc, fun d hd => List.mem_takeWhile_imp hd⟩
  have hend : ∀ d ∈ (cs.dropWhile Char.isDigit).head?, d = '.' := by
    intro d hd
    have hnumeric := isNumeric_iff.mp (t.isNumeric d (List.mem_of_head? hd))
    exact hnumeric.resolve_left (Bool.eq_false_iff.mp (eq_false_of_mem_head?_dropWhile hd))
  have hgroup := Grouped.group (List.cons_ne_nil _ _) hdigits hend t
  rwa [List.cons_append, List.takeWhile_append_dropWhile] at hgroup

end Grouped

/-- A run of digits and points has groups. -/
theorem exists_grouped {cs : List Char} (h : ∀ c ∈ cs, isNumeric c = true) :
    ∃ gs, Grouped cs gs := by
  -- by the length of the run, since all digits of a group are taken off at once
  induction hn : cs.length using Nat.strong_induction_on generalizing cs with
  | _ n ih =>
    subst hn
    cases cs with
    | nil => exact ⟨[], .nil⟩
    | cons c cs =>
      obtain ⟨hc, hcs⟩ := List.forall_mem_cons.mp h
      have hsub := List.dropWhile_sublist (l := cs) Char.isDigit
      obtain hdigit | rfl := isNumeric_iff.mp hc
      · obtain ⟨gs, t⟩ := ih _ (Nat.lt_succ_of_le hsub.length_le)
          (fun d hd => hcs d (hsub.subset hd)) rfl
        exact ⟨_, t.of_dropWhile hdigit⟩
      · obtain ⟨gs, t⟩ := ih _ (Nat.lt_succ_self _) hcs rfl
        exact ⟨gs, .point t⟩

theorem grouped_iff {cs : List Char} {gs : List (List Char)} :
    Grouped cs gs ↔ (∀ c ∈ cs, isNumeric c = true) ∧ gs = pieces cs := by
  constructor
  · exact fun h => ⟨h.isNumeric, h.eq_pieces⟩
  · rintro ⟨h, rfl⟩
    obtain ⟨gs, t⟩ := exists_grouped h
    exact t.eq_pieces ▸ t

theorem reads_iff {s : String} {gs : List (List Char)} : Reads s gs ↔ gs = groups s.toList := by
  constructor
  · rintro ⟨run, rest, hsplit, hrest, h⟩
    have hend : rest.takeWhile isNumeric = [] := by
      cases rest with
      | nil => rfl
      | cons c rest => exact List.takeWhile_cons_of_neg (Bool.eq_false_iff.mp (hrest c rfl))
    rw [groups, hsplit, List.takeWhile_append_of_pos h.isNumeric, hend, List.append_nil]
    exact h.eq_pieces
  · rintro rfl
    refine ⟨(trim s.toList).takeWhile isNumeric, (trim s.toList).dropWhile isNumeric,
      List.takeWhile_append_dropWhile.symm, fun c hc => eq_false_of_mem_head?_dropWhile hc, ?_⟩
    exact grouped_iff.mpr ⟨fun c hc => List.mem_takeWhile_imp hc, rfl⟩

/-! ### Numbers of groups -/

/-- The number of a group; a missing group counts as zero. -/
def number : Option (List Char) → Nat
  | none => 0
  | some digits => decimalValue digits

/-- The numbers of a version are those of the first three groups. -/
structure IsOf (v : Version) (gs : List (List Char)) : Prop where
  major : v.major.toNat = number gs[0]?
  minor : v.minor.toNat = number gs[1]?
  patch : v.patch.toNat = number gs[2]?

theorem ofDigits?_eq_some_iff {g : List Char} (hne : g ≠ []) (hdigits : ∀ c ∈ g, c.isDigit = true)
    {n : UInt32} : ofDigits? g = some n ↔ n.toNat = decimalValue g := by
  rw [ofDigits?]
  constructor
  · intro h
    split at h
    · next hfits =>
      cases h
      exact UInt32.toNat_ofNat_of_lt hfits.2.2
    · cases h
  · intro h
    have hfits : decimalValue g < UInt32.size := h ▸ n.toNat_lt_size
    rw [if_pos ⟨hne, List.all_eq_true.mpr hdigits, hfits⟩, ← h, UInt32.ofNat_toNat]

theorem part?_eq_some_iff {g : Option (List Char)}
    (hg : ∀ digits ∈ g, digits ≠ [] ∧ ∀ c ∈ digits, c.isDigit = true) {n : UInt32} :
    part? g = some n ↔ n.toNat = number g := by
  cases g with
  | none =>
    rw [part?, number, Option.some_inj, ← UInt32.toNat_inj, eq_comm]
    rfl
  | some digits => exact ofDigits?_eq_some_iff (hg digits rfl).1 (hg digits rfl).2

/-- Three groups are read, of which the first is there. -/
theorem parse?_eq_some_iff_of_groups {s : String} {major : List Char} {rest : List (List Char)}
    (h : groups s.toList = major :: rest) {v : Version} :
    parse? s = some v ↔ ofDigits? major = some v.major ∧ part? rest[0]? = some v.minor ∧
      part? rest[1]? = some v.patch := by
  rw [parse?, h]
  constructor
  · intro h
    obtain ⟨a, ha, h⟩ := Option.bind_eq_some_iff.mp h
    obtain ⟨b, hb, h⟩ := Option.bind_eq_some_iff.mp h
    obtain ⟨c, hc, h⟩ := Option.bind_eq_some_iff.mp h
    cases h
    exact ⟨ha, hb, hc⟩
  · rintro ⟨ha, hb, hc⟩
    refine Option.bind_eq_some_iff.mpr ⟨_, ha, ?_⟩
    refine Option.bind_eq_some_iff.mpr ⟨_, hb, ?_⟩
    exact Option.bind_eq_some_iff.mpr ⟨_, hc, rfl⟩

/-- **What a version is read from**: groups, of which there is one at least, and of which the first
three are its numbers. -/
theorem parse?_eq_some_iff {s : String} {v : Version} :
    parse? s = some v ↔ ∃ gs, Reads s gs ∧ gs ≠ [] ∧ v.IsOf gs := by
  have hdigits : ∀ g ∈ groups s.toList, g ≠ [] ∧ ∀ c ∈ g, c.isDigit = true := by
    obtain ⟨_, _, -, -, h⟩ := reads_iff.mpr (rfl : groups s.toList = groups s.toList)
    exact h.digits
  simp only [reads_iff, exists_eq_left]
  cases hgs : groups s.toList with
  | nil =>
    rw [parse?, hgs]
    exact iff_of_false nofun fun h => h.1 rfl
  | cons major rest =>
    rw [hgs] at hdigits
    obtain ⟨⟨hne, hmajor⟩, hrest⟩ := List.forall_mem_cons.mp hdigits
    rw [parse?_eq_some_iff_of_groups hgs, ofDigits?_eq_some_iff hne hmajor,
      part?_eq_some_iff fun g hg => hrest g (List.mem_of_getElem? hg),
      part?_eq_some_iff fun g hg => hrest g (List.mem_of_getElem? hg)]
    constructor
    · rintro ⟨ha, hb, hc⟩
      exact ⟨List.cons_ne_nil _ _, ha, hb, hc⟩
    · rintro ⟨-, ha, hb, hc⟩
      exact ⟨ha, hb, hc⟩

theorem number_lt_iff {gs : List (List Char)} :
    (∀ g ∈ gs.take 3, decimalValue g < UInt32.size) ↔ ∀ i < 3, number gs[i]? < UInt32.size := by
  constructor
  · intro h i hi
    cases hg : gs[i]? with
    | none => exact Nat.succ_pos _
    | some g =>
      refine h g (List.mem_of_getElem? (i := i) ?_)
      rw [List.getElem?_take_of_lt hi, hg]
  · intro h g hg
    obtain ⟨i, hi⟩ := List.mem_iff_getElem?.mp hg
    have hlt : i < 3 := by
      by_contra hge
      rw [List.getElem?_take_eq_none (Nat.not_lt.mp hge)] at hi
      cases hi
    rw [List.getElem?_take_of_lt hlt] at hi
    have hnumber := h i hlt
    rwa [hi] at hnumber

/-- There is a version for groups if its numbers fit in 32 bits. -/
theorem exists_isOf_iff {gs : List (List Char)} :
    (∃ v : Version, v.IsOf gs) ↔ ∀ g ∈ gs.take 3, decimalValue g < UInt32.size := by
  rw [number_lt_iff]
  constructor
  · rintro ⟨v, hmajor, hminor, hpatch⟩ i hi
    match i with
    | 0 => exact hmajor ▸ v.major.toNat_lt_size
    | 1 => exact hminor ▸ v.minor.toNat_lt_size
    | 2 => exact hpatch ▸ v.patch.toNat_lt_size
  · intro h
    exact ⟨{ major := .ofNat (number gs[0]?), minor := .ofNat (number gs[1]?),
             patch := .ofNat (number gs[2]?) },
      UInt32.toNat_ofNat_of_lt (h 0 (by decide)), UInt32.toNat_ofNat_of_lt (h 1 (by decide)),
      UInt32.toNat_ofNat_of_lt (h 2 (by decide))⟩

/-! ### The text of a version -/

theorem isBlank_of_isNumeric {c : Char} (h : isNumeric c = true) : isBlank c = false := by
  obtain h | rfl := isNumeric_iff.mp h
  · exact isBlank_of_isDigit h
  · rfl

/-- Blanks at the end of a text are no part of the run at its start. -/
theorem takeWhile_trimEnd (cs : List Char) :
    (trimEnd cs).takeWhile isNumeric = cs.takeWhile isNumeric := by
  have hsplit : trimEnd cs ++ cs.rtakeWhile isBlank = cs := List.rdropWhile_append_rtakeWhile
  have hblanks : (cs.rtakeWhile isBlank).takeWhile isNumeric = [] := by
    refine List.eq_nil_iff_forall_not_mem.mpr fun c hc => ?_
    have hblank : isBlank c = true :=
      List.mem_rtakeWhile_imp ((List.takeWhile_sublist _).subset hc)
    rw [isBlank_of_isNumeric (List.mem_takeWhile_imp hc)] at hblank
    cases hblank
  conv_rhs => rw [← hsplit, List.takeWhile_append, hblanks, List.append_nil]
  split
  · next hall => exact (List.takeWhile_prefix isNumeric).eq_of_length hall
  · rfl

/-- Nor are blanks before it. -/
theorem takeWhile_trim_append {w cs : List Char} (hw : ∀ c ∈ w, isBlank c = true)
    (hne : cs ≠ []) (hcs : ∀ c ∈ cs, isNumeric c = true) (r : List Char) :
    (trim (w ++ (cs ++ r))).takeWhile isNumeric = cs ++ r.takeWhile isNumeric := by
  have hstart : trimStart (w ++ (cs ++ r)) = cs ++ r := by
    rw [trimStart, List.dropWhile_append_of_pos hw]
    obtain ⟨c, cs, rfl⟩ := List.exists_cons_of_ne_nil hne
    exact trimStart_eq_self (isBlank_of_isNumeric (hcs c List.mem_cons_self))
  rw [trim, hstart, takeWhile_trimEnd, List.takeWhile_append_of_pos hcs]

theorem toList_text (v : Version) :
    v.text.toList = Nat.toDigits 10 v.major.toNat ++ '.' ::
      (Nat.toDigits 10 v.minor.toNat ++ '.' :: Nat.toDigits 10 v.patch.toNat) := by
  simp only [text, decimal32, decimal, String.toList_append, String.toList_ofList,
    List.append_assoc]
  rfl

theorem isNumeric_of_mem_text {v : Version} {c : Char} (hc : c ∈ v.text.toList) :
    isNumeric c = true := by
  have hdigits : ∀ n, ∀ c ∈ Nat.toDigits 10 n, isNumeric c = true :=
    fun _ _ hc => isNumeric_iff.mpr (.inl (isDigit_of_mem_toDigits hc))
  rw [toList_text] at hc
  simp only [List.mem_append, List.mem_cons] at hc
  obtain hc | rfl | hc | rfl | hc := hc
  · exact hdigits _ c hc
  · rfl
  · exact hdigits _ c hc
  · rfl
  · exact hdigits _ c hc

/-- The pieces of a version's text are its numbers, before those of a text that starts with a
point. -/
theorem pieces_text_append (v : Version) {cs : List Char} (hcs : ∀ c ∈ cs.head?, c = '.') :
    pieces (v.text.toList ++ cs) =
      Nat.toDigits 10 v.major.toNat :: Nat.toDigits 10 v.minor.toNat ::
        Nat.toDigits 10 v.patch.toNat :: pieces cs := by
  have hgroup : ∀ n rest, (∀ c ∈ rest.head?, c = '.') →
      pieces (Nat.toDigits 10 n ++ rest) = Nat.toDigits 10 n :: pieces rest :=
    fun n rest => pieces_group Nat.toDigits_ne_nil fun _ hc => isDigit_of_mem_toDigits hc
  have hpoint : ∀ rest : List Char, ∀ c ∈ ('.' :: rest).head?, c = '.' :=
    fun _ _ hc => (Option.some.inj hc).symm
  rw [toList_text, List.append_assoc, List.cons_append, List.append_assoc, List.cons_append,
    hgroup _ _ (hpoint _), pieces_point, hgroup _ _ (hpoint _), pieces_point, hgroup _ _ hcs]

/-- **The text of a version is read as its numbers**, whatever blanks come before.  What follows may
have groups of its own, but adds nothing to the last number unless it starts with a digit. -/
theorem reads_text (v : Version) {w r : String} (hw : ∀ c ∈ w.toList, isBlank c = true)
    (hr : ∀ c ∈ r.toList.head?, c.isDigit = false) :
    ∃ gs, Reads (w ++ v.text ++ r) (Nat.toDigits 10 v.major.toNat ::
      Nat.toDigits 10 v.minor.toNat :: Nat.toDigits 10 v.patch.toNat :: gs) := by
  have hpoint : ∀ c ∈ (r.toList.takeWhile isNumeric).head?, c = '.' := by
    intro c hc
    rw [List.head?_takeWhile, Option.mem_filter_iff] at hc
    exact (isNumeric_iff.mp hc.2).resolve_left (Bool.eq_false_iff.mp (hr c hc.1))
  have hne : v.text.toList ≠ [] := by
    rw [toList_text]
    exact List.append_ne_nil_of_right_ne_nil _ (List.cons_ne_nil _ _)
  refine ⟨pieces (r.toList.takeWhile isNumeric), reads_iff.mpr ?_⟩
  rw [← pieces_text_append v hpoint, String.toList_append, String.toList_append,
    List.append_assoc, groups, takeWhile_trim_append hw hne fun _ hc => isNumeric_of_mem_text hc]
  rfl

theorem isOf_digits (v : Version) (gs : List (List Char)) :
    v.IsOf (Nat.toDigits 10 v.major.toNat :: Nat.toDigits 10 v.minor.toNat ::
      Nat.toDigits 10 v.patch.toNat :: gs) :=
  ⟨(decimalValue_toDigits _).symm, (decimalValue_toDigits _).symm, (decimalValue_toDigits _).symm⟩

/-- **Reading versions.**  The text of a version is read as that version, after any blanks and
before any text that does not start with a digit.  A text is read as a version exactly if it has a
group of digits and the first three fit in 32 bits, and these are the numbers of the version. -/
theorem parse?_exact :
    (∀ (v : Version) (w r : String), (∀ c ∈ w.toList, isBlank c = true) →
        (∀ c ∈ r.toList.head?, c.isDigit = false) → parse? (w ++ v.text ++ r) = some v) ∧
      ∀ s, ((∃ v, parse? s = some v) ↔ ∃ gs, Reads s gs ∧ gs ≠ [] ∧
          ∀ g ∈ gs.take 3, decimalValue g < UInt32.size) ∧
        ∀ v, parse? s = some v ↔ ∃ gs, Reads s gs ∧ gs ≠ [] ∧ v.IsOf gs := by
  refine ⟨fun v w r hw hr => ?_, fun s => ⟨?_, fun v => parse?_eq_some_iff⟩⟩
  · obtain ⟨gs, hreads⟩ := reads_text v hw hr
    exact parse?_eq_some_iff.mpr ⟨_, hreads, List.cons_ne_nil _ _, isOf_digits v gs⟩
  · simp only [parse?_eq_some_iff, ← exists_isOf_iff]
    constructor
    · rintro ⟨v, gs, hreads, hne, hv⟩
      exact ⟨gs, hreads, hne, v, hv⟩
    · rintro ⟨gs, hreads, hne, v, hv⟩
      exact ⟨v, gs, hreads, hne, hv⟩

/-- A fourth group and a vendor's suffix follow the version. -/
theorem parse?_exact_suffixed :
    (∀ c ∈ " \t".toList, isBlank c = true) ∧ (∀ c ∈ ".5-log".toList.head?, c.isDigit = false) ∧
      parse? (" \t" ++ text { major := 8, minor := 0, patch := 36 } ++ ".5-log") =
        some { major := 8, minor := 0, patch := 36 } := by
  have hblank : ∀ c ∈ " \t".toList, isBlank c = true :=
    List.forall_mem_cons.mpr ⟨rfl, List.forall_mem_singleton.mpr rfl⟩
  have hpoint : ∀ c ∈ ".5-log".toList.head?, c.isDigit = false := by
    rintro _ ⟨⟩
    rfl
  exact ⟨hblank, hpoint, parse?_exact.1 _ _ _ hblank hpoint⟩

end DirectoryTables.Version
