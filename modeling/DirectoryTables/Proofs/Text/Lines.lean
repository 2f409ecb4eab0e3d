import DirectoryTables.Log
import DirectoryTables.Text.Joined
import DirectoryTables.Text.Numeral

/-!
# Text — Lines

Texts that can be told apart when each is written on a line of its own.

* `Text.lines`: the pieces of a text that line feeds end.
* `Text.lines_join_iff`: texts are read back from their lines exactly if no line feed is in them.
* `Log.IsLine`: a statement that a log keeps as it is, on one line; `Log.lines_eq_iff`: statements
  are read back from a log exactly if they all are.
* `Text.Unbroken`, `Text.EndsSolid`: no line feed in a text, no blank at its end.  A text with both
  is a line (`Log.isLine_of`).
-/

namespace DirectoryTables

namespace Text

/-! ### Lines of a text -/

/-- The pieces of a text that a line feed ends. -/
def lines (text : String) : List String :=
  ((text.toList.splitOn '\n').dropLast).map String.ofList

/-- There is no line feed in the text. -/
def Unbroken (s : String) : Prop :=
  '\n' ∉ s.toList

instance (s : String) : Decidable (Unbroken s) :=
  inferInstanceAs (Decidable ('\n' ∉ s.toList))

theorem not_mem_of_mem_splitOn {α : Type} [BEq α] [LawfulBEq α] {mark : α} {xs piece : List α}
    (h : piece ∈ xs.splitOn mark) : mark ∉ piece := by
  induction xs generalizing piece with
  | nil =>
    rw [List.splitOn_nil, List.mem_singleton] at h
    exact h ▸ List.not_mem_nil
  | cons x xs ih =>
    rw [List.splitOn_cons_eq_if_modifyHead] at h
    split at h
    · obtain rfl | h := List.mem_cons.mp h
      · exact List.not_mem_nil
      · exact ih h
    · next hx =>
      cases hpieces : xs.splitOn mark with
      | nil => exact absurd hpieces (List.splitOn_ne_nil _ _)
      | cons first rest =>
        rw [hpieces] at h ih
        obtain rfl | h := List.mem_cons.mp h
        · exact List.not_mem_cons_of_ne_of_not_mem (fun e => hx (beq_iff_eq.mpr e.symm))
            (ih List.mem_cons_self)
        · exact ih (List.mem_cons_of_mem first h)

theorem lines_join {texts : List String} (h : ∀ s ∈ texts, Unbroken s) :
    lines (String.join (texts.map (· ++ "\n"))) = texts := by
  have hpieces : (String.join (texts.map (· ++ "\n"))).toList.splitOn '\n' =
      texts.map String.toList ++ [[]] := by
    induction texts with
    | nil => rfl
    | cons s texts ih =>
      have hs : '\n' ∉ s.toList := h s List.mem_cons_self
      have hjoin : (String.join ((s :: texts).map (· ++ "\n"))).toList =
          s.toList ++ '\n' :: (String.join (texts.map (· ++ "\n"))).toList := by
        simp [String.toList_join]
      rw [hjoin, List.splitOn_append_cons_self_of_not_mem hs,
        ih fun t ht => h t (List.mem_cons_of_mem s ht), List.map_cons, List.cons_append]
  rw [lines, hpieces, List.dropLast_concat, List.map_map]
  exact List.map_id'' (fun s => String.ofList_toList) texts

theorem unbroken_of_mem_lines {text s : String} (h : s ∈ lines text) : Unbroken s := by
  obtain ⟨piece, hpiece, rfl⟩ := List.mem_map.mp h
  rw [Unbroken, String.toList_ofList]
  exact not_mem_of_mem_splitOn ((List.dropLast_sublist _).subset hpiece)

/-- **Lines can be read back.**  Texts are the lines of the text made from them exactly if no line
feed is in them. -/
theorem lines_join_iff {texts : List String} :
    lines (String.join (texts.map (· ++ "\n"))) = texts ↔ ∀ s ∈ texts, Unbroken s :=
  ⟨fun h _ hs => unbroken_of_mem_lines (h ▸ hs), lines_join⟩

/-! ### Texts without a line feed -/

theorem Unbroken.of_subset {s t : String} (h : Unbroken t) (hs : s.toList ⊆ t.toList) :
    Unbroken s :=
  fun hmem => h (hs hmem)

@[simp] theorem unbroken_append {s t : String} : Unbroken (s ++ t) ↔ Unbroken s ∧ Unbroken t := by
  rw [Unbroken, String.toList_append, List.mem_append, not_or, Unbroken, Unbroken]

theorem unbroken_ofList {cs : List Char} : Unbroken (String.ofList cs) ↔ '\n' ∉ cs := by
  rw [Unbroken, String.toList_ofList]

theorem unbroken_commaJoined {texts : List String} (h : ∀ s ∈ texts, Unbroken s) :
    Unbroken (commaJoined texts) := by
  fun_induction commaJoined texts with
  | case1 => exact List.not_mem_nil
  | case2 s => exact h s List.mem_cons_self
  | case3 s t r ih =>
    have hmark : Unbroken ", " := by decide
    exact unbroken_append.mpr ⟨unbroken_append.mpr ⟨h s List.mem_cons_self, hmark⟩,
      ih fun u hu => h u (List.mem_cons_of_mem s hu)⟩

theorem unbroken_decimal (n : Nat) : Unbroken (decimal n) := by
  rw [decimal, unbroken_ofList]
  intro h
  have hdigit := Nat.isDigit_of_mem_toDigits (by decide) (by decide) h
  exact absurd hdigit (by decide)

/-! ### Texts without a blank at the end -/

/-- The text has a last character, and it is no blank. -/
def EndsSolid (s : String) : Prop :=
  s.toList.getLast?.any (fun c => !isBlank c) = true

instance (s : String) : Decidable (EndsSolid s) :=
  inferInstanceAs (Decidable (_ = true))

theorem EndsSolid.append {t : String} (h : EndsSolid t) (s : String) : EndsSolid (s ++ t) := by
  obtain ⟨c, hc, hsolid⟩ := (Option.any_eq_true _ _).mp h
  rw [EndsSolid, String.toList_append, List.getLast?_append, hc]
  exact hsolid

theorem withoutTrailingBlanks_eq_self {s : String} (h : EndsSolid s) :
    withoutTrailingBlanks s = s := by
  obtain ⟨c, hc, hsolid⟩ := (Option.any_eq_true _ _).mp h
  obtain ⟨cs, hcs⟩ := List.getLast?_eq_some_iff.mp hc
  rw [Bool.not_eq_true'] at hsolid
  rw [withoutTrailingBlanks, hcs, trimEnd_append_singleton cs hsolid, ← hcs, String.ofList_toList]

theorem trimEnd_sublist (cs : List Char) : (trimEnd cs).Sublist cs := by
  have h := (List.dropWhile_sublist (l := cs.reverse) isBlank).reverse
  rwa [List.reverse_reverse] at h

end Text

/-! ### Lines of a log -/

namespace Log

/-- The statement is kept as it is, on one line. -/
def IsLine (sql : String) : Prop :=
  Text.Unbroken sql ∧ entry sql = sql

instance (sql : String) : Decidable (IsLine sql) :=
  inferInstanceAs (Decidable (_ ∧ _))

theorem isLine_of {sql : String} (h : Text.Unbroken sql) (h' : Text.EndsSolid sql) : IsLine sql :=
  ⟨h, Text.withoutTrailingBlanks_eq_self h'⟩

theorem unbroken_entry {sql : String} (h : Text.Unbroken sql) : Text.Unbroken (entry sql) := by
  refine h.of_subset ?_
  rw [entry, Text.withoutTrailingBlanks, String.toList_ofList]
  exact (Text.trimEnd_sublist _).subset

/-- **Statements can be read back.**  They are the lines that a log adds for them exactly if each of
them is kept as it is, on one line. -/
theorem lines_eq_iff {sqls : List String} :
    Text.lines (String.join (sqls.map line)) = sqls ↔ ∀ sql ∈ sqls, IsLine sql := by
  have hline : sqls.map line = (sqls.map entry).map (· ++ "\n") := by
    rw [List.map_map]
    rfl
  rw [hline]
  constructor
  · intro h sql hsql
    have hunbroken : ∀ sql ∈ sqls, Text.Unbroken sql :=
      fun sql hsql => Text.unbroken_of_mem_lines (h ▸ hsql)
    have hentries : sqls.map entry = sqls.map id := by
      rw [List.map_id]
      refine (Text.lines_join ?_).symm.trans h
      exact List.forall_mem_map.mpr fun sql hsql => unbroken_entry (hunbroken sql hsql)
    exact ⟨hunbroken sql hsql, List.map_inj_left.mp hentries sql hsql⟩
  · intro h
    have hentries : sqls.map entry = sqls := by
      rw [List.map_congr_left fun sql hsql => (h sql hsql).2]
      exact List.map_id' sqls
    rw [hentries]
    exact Text.lines_join fun sql hsql => (h sql hsql).1

end Log

end DirectoryTables
