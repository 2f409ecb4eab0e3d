import DirectoryTables.Statement.Sql
import Mathlib.Logic.Function.Basic

/-!
# Backends — Quoting

Where a quoted name ends, for a reader that knows the mark and nothing else (`readName?`).  It takes
a mark off, takes two marks for one that belongs to the name, and stops at the first mark that no
other follows.

* `readName?_quote_iff`: it reads a name off the text that the name is written as, and off no other.
  It leaves what follows, which never starts with the mark.
* `nameList_append_inj`: names in a row are told apart, and so is what follows the last of them.  A
  comma stands between two names, so a row ends where neither a mark nor a comma follows.

Names without marks are not told apart: on Spanner, a name with a comma and a space inside is
written like a row of two.
-/

namespace DirectoryTables.Backend

/-! ### Reading a name -/

/-- The name up to the first mark that no other follows, and what is left after that mark.  Two
marks stand for one. -/
def untilMark? (mark : Char) : List Char → Option (List Char × List Char)
  | [] => none
  | c :: cs =>
    if c = mark then
      match cs with
      | [] => some ([], [])
      | d :: ds =>
        if d = mark then (untilMark? mark ds).map (Prod.map (mark :: ·) id)
        else some ([], d :: ds)
    else (untilMark? mark cs).map (Prod.map (c :: ·) id)

/-- The name between marks that a text starts with, and what is left of the text. -/
def readName? (mark : Char) (text : String) : Option (String × String) :=
  (Text.afterPrefix? [mark] text.toList).bind fun inside =>
    (untilMark? mark inside).map (Prod.map String.ofList String.ofList)

/-- What stands between the marks around a name. -/
def doubled (mark : Char) (name : List Char) : List Char :=
  name.flatMap fun c => if c = mark then [mark, mark] else [c]

theorem enclose_append (mark : Char) (name rest : List Char) :
    enclose mark name ++ rest = mark :: (doubled mark name ++ mark :: rest) := by
  rw [enclose, List.cons_append, List.cons_append, List.append_assoc]
  rfl

section

variable {mark c : Char} {cs name rest : List Char}

theorem doubled_cons_mark (mark : Char) (name : List Char) :
    doubled mark (mark :: name) = mark :: mark :: doubled mark name := by
  rw [doubled, List.flatMap_cons, if_pos rfl]
  rfl

theorem doubled_cons_of_ne (h : c ≠ mark) (name : List Char) :
    doubled mark (c :: name) = c :: doubled mark name := by
  rw [doubled, List.flatMap_cons, if_neg h]
  rfl

theorem untilMark?_mark (h : rest.head? ≠ some mark) :
    untilMark? mark (mark :: rest) = some ([], rest) := by
  cases rest with
  | nil => simp [untilMark?]
  | cons c rest =>
    have hc : c ≠ mark := fun e => h (congrArg some e)
    simp [untilMark?, hc]

theorem untilMark?_mark_mark (mark : Char) (cs : List Char) :
    untilMark? mark (mark :: mark :: cs) =
      (untilMark? mark cs).map (Prod.map (mark :: ·) id) := by
  simp [untilMark?]

theorem untilMark?_of_ne (h : c ≠ mark) (cs : List Char) :
    untilMark? mark (c :: cs) = (untilMark? mark cs).map (Prod.map (c :: ·) id) := by
  rw [untilMark?.eq_def]
  exact if_neg h

/-- A name is read up to the mark at its end, unless one more mark follows. -/
theorem untilMark?_doubled (name : List Char) (h : rest.head? ≠ some mark) :
    untilMark? mark (doubled mark name ++ mark :: rest) = some (name, rest) := by
  induction name with
  | nil => exact untilMark?_mark h
  | cons c name ih =>
    by_cases hc : c = mark
    · rw [hc, doubled_cons_mark, List.cons_append, List.cons_append, untilMark?_mark_mark, ih]
      rfl
    · rw [doubled_cons_of_ne hc, List.cons_append, untilMark?_of_ne hc, ih]
      rfl

theorem eq_of_untilMark? (h : untilMark? mark cs = some (name, rest)) :
    cs = doubled mark name ++ mark :: rest ∧ rest.head? ≠ some mark := by
  fun_induction untilMark? mark cs generalizing name rest with
  | case1 => cases h
  | case2 =>
    -- the mark ends the text
    cases h
    exact ⟨rfl, nofun⟩
  | case3 cs ih =>
    -- two marks
    obtain ⟨⟨name, rest⟩, hread, e⟩ := Option.map_eq_some_iff.mp h
    cases e
    obtain ⟨rfl, hrest⟩ := ih hread
    rw [doubled_cons_mark]
    exact ⟨rfl, hrest⟩
  | case4 d cs hd =>
    -- a mark, and something else after it
    cases h
    exact ⟨rfl, fun e => hd (Option.some.inj e)⟩
  | case5 c cs hc ih =>
    obtain ⟨⟨name, rest⟩, hread, e⟩ := Option.map_eq_some_iff.mp h
    cases e
    obtain ⟨rfl, hrest⟩ := ih hread
    rw [id_eq, doubled_cons_of_ne hc]
    exact ⟨rfl, hrest⟩

end

theorem readName?_eq_some_iff {mark : Char} {text name rest : String} :
    readName? mark text = some (name, rest) ↔
      text.toList = enclose mark name.toList ++ rest.toList ∧ rest.toList.head? ≠ some mark := by
  simp only [readName?, Option.bind_eq_some_iff, Option.map_eq_some_iff,
    Text.afterPrefix?_eq_some_iff, enclose_append]
  constructor
  · rintro ⟨inside, htext, ⟨cs, ds⟩, hread, e⟩
    cases e
    obtain ⟨rfl, hrest⟩ := eq_of_untilMark? hread
    rw [String.toList_ofList, String.toList_ofList]
    exact ⟨htext, hrest⟩
  · rintro ⟨htext, hrest⟩
    refine ⟨_, htext, (name.toList, rest.toList), untilMark?_doubled _ hrest, ?_⟩
    rw [Prod.map_apply, String.ofList_toList, String.ofList_toList]

/-! ### Names in statements -/

theorem exists_quoteMark? {d : Dialect} (h : d ≠ .spanner) :
    ∃ mark, quoteMark? d = some mark := by
  cases d with
  | mysql => exact ⟨_, rfl⟩
  | pgsql => exact ⟨_, rfl⟩
  | spanner => exact absurd rfl h

theorem quoteMark?_ne_comma (d : Dialect) : quoteMark? d ≠ some ',' := by
  cases d <;> decide

section

variable {b : Backend} {mark : Char} {name name' rest rest' : String}

theorem toList_quote (h : quoteMark? b.dialect = some mark) (name : String) :
    (b.quote name).toList = enclose mark name.toList := by
  rw [quote, h]
  exact String.toList_ofList

/-- A name is read off the text that it is written as, and off no other. -/
theorem readName?_quote_iff (h : quoteMark? b.dialect = some mark) {text : String} :
    readName? mark text = some (name, rest) ↔
      text = b.quote name ++ rest ∧ rest.toList.head? ≠ some mark := by
  rw [readName?_eq_some_iff, ← toList_quote h, ← String.toList_append, String.toList_inj]

theorem quote_append_inj (h : quoteMark? b.dialect = some mark)
    (hrest : rest.toList.head? ≠ some mark) (hrest' : rest'.toList.head? ≠ some mark)
    (e : b.quote name ++ rest = b.quote name' ++ rest') : name = name' ∧ rest = rest' := by
  have hread : readName? mark (b.quote name ++ rest) = some (name, rest) :=
    (readName?_quote_iff h).mpr ⟨rfl, hrest⟩
  rw [(readName?_quote_iff h).mpr ⟨e, hrest'⟩] at hread
  cases hread
  exact ⟨rfl, rfl⟩

end

/-! ### Names in a row -/

/-- The names after the first in a row. -/
def laterNames (b : Backend) : List String → String
  | [] => ""
  | name :: names => ", " ++ (b.quote name ++ laterNames b names)

theorem nameList_cons (b : Backend) (name : String) (names : List String) :
    b.nameList (name :: names) = b.quote name ++ b.laterNames names := by
  induction names generalizing name with
  | nil => exact String.append_empty.symm
  | cons next names ih =>
    rw [laterNames, ← ih, ← String.append_assoc]
    rfl

/-- The text neither continues a name in marks nor a row of them. -/
structure EndsRow (mark : Char) (rest : String) : Prop where
  head_ne_mark : rest.toList.head? ≠ some mark
  head_ne_comma : rest.toList.head? ≠ some ','

theorem endsRow_empty (mark : Char) : EndsRow mark "" where
  head_ne_mark := nofun
  head_ne_comma := nofun

section

variable {b : Backend} {mark : Char} {name name' : String} {names names' : List String}
  {rest rest' : String}

theorem head?_nameList_cons_append (h : quoteMark? b.dialect = some mark) (name : String)
    (names : List String) (rest : String) :
    (b.nameList (name :: names) ++ rest).toList.head? = some mark := by
  rw [nameList_cons, String.append_assoc, String.toList_append, toList_quote h, enclose_append]
  rfl

theorem head?_laterNames_cons_append (b : Backend) (name : String) (names : List String)
    (rest : String) : (b.laterNames (name :: names) ++ rest).toList.head? = some ',' := by
  rw [laterNames, String.append_assoc, String.toList_append]
  rfl

theorem eq_nil_of_nameList_append (h : quoteMark? b.dialect = some mark)
    (hrest : EndsRow mark rest) (e : b.nameList names ++ rest' = rest) : names = [] := by
  cases names with
  | nil => rfl
  | cons name names =>
    exact absurd (e ▸ head?_nameList_cons_append h name names rest') hrest.head_ne_mark

theorem eq_nil_of_laterNames_append (hrest : EndsRow mark rest)
    (e : b.laterNames names ++ rest' = rest) : names = [] := by
  cases names with
  | nil => rfl
  | cons name names =>
    exact absurd (e ▸ head?_laterNames_cons_append b name names rest') hrest.head_ne_comma

/-- A comma or the end of the row stands after a name, and so no mark. -/
theorem head?_laterNames_append (h : quoteMark? b.dialect = some mark) (hrest : EndsRow mark rest)
    (names : List String) : (b.laterNames names ++ rest).toList.head? ≠ some mark := by
  cases names with
  | nil =>
    rw [laterNames, String.empty_append]
    exact hrest.head_ne_mark
  | cons name names =>
    rw [head?_laterNames_cons_append, ← h]
    exact (quoteMark?_ne_comma b.dialect).symm

theorem quote_laterNames_inj (h : quoteMark? b.dialect = some mark) (hrest : EndsRow mark rest)
    (hrest' : EndsRow mark rest')
    (e : b.quote name ++ (b.laterNames names ++ rest) =
      b.quote name' ++ (b.laterNames names' ++ rest')) :
    name = name' ∧ b.laterNames names ++ rest = b.laterNames names' ++ rest' :=
  quote_append_inj h (head?_laterNames_append h hrest names)
    (head?_laterNames_append h hrest' names') e

theorem laterNames_append_inj (h : quoteMark? b.dialect = some mark) (hrest : EndsRow mark rest)
    (hrest' : EndsRow mark rest') (e : b.laterNames names ++ rest = b.laterNames names' ++ rest') :
    names = names' ∧ rest = rest' := by
  induction names generalizing names' with
  | nil =>
    have hempty : rest = b.laterNames names' ++ rest' := String.empty_append.symm.trans e
    obtain rfl := eq_nil_of_laterNames_append hrest hempty.symm
    exact ⟨rfl, hempty.trans String.empty_append⟩
  | cons name names ih =>
    cases names' with
    | nil => cases eq_nil_of_laterNames_append hrest' (e.trans String.empty_append)
    | cons name' names' =>
      simp only [laterNames, String.append_assoc, String.append_right_inj] at e
      obtain ⟨rfl, hlater⟩ := quote_laterNames_inj h hrest hrest' e
      obtain ⟨rfl, rfl⟩ := ih hlater
      exact ⟨rfl, rfl⟩

/-- Names in a row are told apart, and so is what follows the last of them. -/
theorem nameList_append_inj (h : quoteMark? b.dialect = some mark) (hrest : EndsRow mark rest)
    (hrest' : EndsRow mark rest') (e : b.nameList names ++ rest = b.nameList names' ++ rest') :
    names = names' ∧ rest = rest' := by
  cases names with
  | nil =>
    have hempty : rest = b.nameList names' ++ rest' := String.empty_append.symm.trans e
    obtain rfl := eq_nil_of_nameList_append h hrest hempty.symm
    exact ⟨rfl, hempty.trans String.empty_append⟩
  | cons name names =>
    cases names' with
    | nil => cases eq_nil_of_nameList_append h hrest' (e.trans String.empty_append)
    | cons name' names' =>
      simp only [nameList_cons, String.append_assoc] at e
      obtain ⟨rfl, hlater⟩ := quote_laterNames_inj h hrest hrest' e
      obtain ⟨rfl, rfl⟩ := laterNames_append_inj h hrest hrest' hlater
      exact ⟨rfl, rfl⟩

theorem nameList_injective (h : quoteMark? b.dialect = some mark) :
    Function.Injective b.nameList := by
  intro names names' e
  have hempty : b.nameList names ++ "" = b.nameList names' ++ "" := congrArg (· ++ "") e
  exact (nameList_append_inj h (endsRow_empty mark) (endsRow_empty mark) hempty).1

end

/-- **Nothing escapes from the marks of a name**, except on Spanner, which has none.  A reader that
knows the mark reads a name off the text that it is written as, and off no other.  It leaves what
follows, which never starts with the mark.  So different rows of names are written differently. -/
theorem quoted_names_exact (b : Backend) (h : b.dialect ≠ .spanner) :
    ∃ mark, quoteMark? b.dialect = some mark ∧
      (∀ text name rest : String, readName? mark text = some (name, rest) ↔
        text = b.quote name ++ rest ∧ rest.toList.head? ≠ some mark) ∧
      Function.Injective b.nameList := by
  obtain ⟨mark, hmark⟩ := exists_quoteMark? h
  exact ⟨mark, hmark, fun _ _ _ => readName?_quote_iff hmark, nameList_injective hmark⟩

/-- A name with marks inside and at its end is read up to its own end, and a name that looks like a
row of two is told from the row. -/
theorem quoted_names_exact_marks :
    ({ dialect := .mysql, version := none } : Backend).dialect ≠ .spanner ∧
      readName? '\x60' "\x60doc\x60\x60id\x60\x60\x60, \x60dn\x60" =
        some ("doc\x60id\x60", ", \x60dn\x60") ∧
      nameList { dialect := .mysql, version := none } ["doc\x60, \x60id"] ≠
        nameList { dialect := .mysql, version := none } ["doc", "id"] := by
  obtain ⟨mark, hmark, hread, hinj⟩ :=
    quoted_names_exact { dialect := .mysql, version := none } (by decide)
  obtain rfl : '\x60' = mark := Option.some.inj hmark
  exact ⟨by decide, (hread _ _ _).mpr ⟨by decide, by decide⟩, hinj.ne (by decide)⟩

-- Without marks a name passes for a row of two.
example : nameList { dialect := .spanner, version := none } ["doc, id"] =
    nameList { dialect := .spanner, version := none } ["doc", "id"] := by decide

end DirectoryTables.Backend
