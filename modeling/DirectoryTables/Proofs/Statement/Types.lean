import DirectoryTables.Proofs.Text.Values
import DirectoryTables.Statement.Sql

/-!
# Statements — Types

The SQL text of a type, read again as a type.

A backend has fewer types than there are: a boolean is a small integer on MySQL, an array a JSON
document on all but Spanner.  What a text is read as also loses what the text does not say, such as
its letter case.  So neither function undoes the other, but what is read is written in a form that
does not change again.

* `Backend.storedType`: the type that a backend has for a type.
* `ColumnType.Legible`: types that a text is read as.
* `ColumnType.parse_typeSql`: the text of a legible type is read as the type the backend has.
* `ColumnType.typeSql_parse_stable`: the type read from the text of a type that was read is written
  as this text, and is a JSON or text type exactly if that was.
-/

namespace DirectoryTables

open Text

/-- The type that the backend has for a type. -/
def Backend.storedType (b : Backend) : ColumnType → ColumnType
  | .mediumText =>
    match b.dialect with
    | .mysql => .mediumText
    | .pgsql | .spanner => .text
  | .boolean =>
    match b.dialect with
    | .mysql => .other "SMALLINT"
    | .pgsql | .spanner => .boolean
  | .integer =>
    match b.dialect with
    | .mysql | .pgsql => .integer
    | .spanner => .bigInt
  | .array element =>
    match b.dialect with
    | .mysql | .pgsql => .json
    | .spanner => .array (b.storedType element)
  | type => type

namespace ColumnType

variable {b : Backend} {type : ColumnType} {word sql : String}

/-! ### Stored types -/

/-- A type and the one the backend has for it are written alike. -/
theorem typeSql_storedType (b : Backend) (type : ColumnType) :
    b.typeSql (b.storedType type) = b.typeSql type := by
  induction type with
  | array element ih =>
    cases hd : b.dialect <;> simp only [Backend.storedType, Backend.typeSql, hd, ih]
  | mediumText | boolean | integer =>
    cases hd : b.dialect <;> simp only [Backend.storedType, Backend.typeSql, hd]
  | varchar | text | bigInt | json | other => rfl

theorem isJsonCapable_storedType (b : Backend) (type : ColumnType) :
    (b.storedType type).isJsonCapable = type.isJsonCapable := by
  cases type with
  | mediumText | boolean | integer | array =>
    cases hd : b.dialect <;> simp only [Backend.storedType, hd, isJsonCapable]
  | varchar | text | bigInt | json | other => rfl

theorem isText_storedType (b : Backend) (type : ColumnType) :
    (b.storedType type).isText = type.isText := by
  cases type with
  | boolean =>
    cases hd : b.dialect <;> simp only [Backend.storedType, hd]
    decide
  | mediumText | integer | array =>
    cases hd : b.dialect <;> simp only [Backend.storedType, hd, isText]
  | varchar | text | bigInt | json | other => rfl

/-! ### Reading words -/

/-- The words that stand for a type. -/
def keywords : List String :=
  ["JSON", "JSONB", "TEXT", "STRING(MAX)", "TINYTEXT", "BOOL", "BOOLEAN", "INT", "INTEGER",
    "BIGINT", "INT64"]

theorem mem_keywords (h : ofKeyword? word = some type) : word ∈ keywords := by
  by_contra hword
  simp only [keywords, List.mem_cons, List.not_mem_nil, or_false, not_or] at hword
  simp [ofKeyword?, hword] at h

/-- Words are in capitals, without blanks at their ends, and write neither an array nor a size. -/
theorem forall_keywords : ∀ word ∈ keywords, InCapitals word.toList ∧
    trim word.toList = word.toList ∧ elementIn? word.toList = none ∧
      sizeIn? word.toList = none := by
  decide

/-- How a text in capitals is read that has no blanks at its ends. -/
theorem parse_of_inCapitals (hcapitals : InCapitals sql.toList)
    (htrim : trim sql.toList = sql.toList) :
    parse sql =
      match elementIn? sql.toList with
      | some element => array (parseChars element)
      | none =>
        match ofKeyword? sql with
        | some type => type
        | none =>
          match sizeIn? sql.toList with
          | some size => varchar size
          | none => other sql := by
  rw [parse, parseChars, htrim, hcapitals.upperChars, String.ofList_toList]
  cases elementIn? sql.toList <;> rfl

theorem parse_keyword (h : ofKeyword? word = some type) : parse word = type := by
  obtain ⟨hcapitals, htrim, helement, -⟩ := forall_keywords word (mem_keywords h)
  rw [parse_of_inCapitals hcapitals htrim, helement, h]

/-- An array is read by reading its element. -/
theorem parse_array (h : InCapitals sql.toList) :
    parse ("ARRAY<" ++ sql ++ ">") = array (parse sql) := by
  have hchars : ("ARRAY<" ++ sql ++ ">").toList = "ARRAY<".toList ++ sql.toList ++ ">".toList := by
    rw [String.toList_append, String.toList_append]
  have hcapitals : InCapitals ("ARRAY<" ++ sql ++ ">").toList := by
    rw [hchars]
    exact (InCapitals.append (by decide) h).append (by decide)
  have htrim : trim ("ARRAY<" ++ sql ++ ">").toList = ("ARRAY<" ++ sql ++ ">").toList := by
    rw [hchars]
    exact trim_enclosed (by decide) (by decide) sql.toList
  have helement : elementIn? ("ARRAY<" ++ sql ++ ">").toList = some sql.toList :=
    between?_eq_some_iff.mpr hchars
  rw [parse_of_inCapitals hcapitals htrim, helement, parse]

/-- The words before a size. -/
def sizedWords : List String :=
  ["VARCHAR(", "STRING("]

theorem toList_sized (head : String) (size : UInt32) :
    (head ++ decimal32 size ++ ")").toList =
      head.toList ++ Nat.toDigits 10 size.toNat ++ ")".toList := by
  rw [String.toList_append, String.toList_append, decimal32, decimal, String.toList_ofList]

theorem sizeIn?_sized (hword : word ∈ sizedWords) (size : UInt32) :
    sizeIn? (word ++ decimal32 size ++ ")").toList = some size := by
  have hwritten : (between? "VARCHAR(".toList ")".toList (word ++ decimal32 size ++ ")").toList <|>
      between? "STRING(".toList ")".toList (word ++ decimal32 size ++ ")").toList) =
        some (Nat.toDigits 10 size.toNat) := by
    rw [toList_sized]
    obtain rfl | rfl := List.mem_pair.mp hword
    · rw [between?_eq_some_iff.mpr rfl]
      rfl
    · have hother : ∀ cs, between? "VARCHAR(".toList ")".toList ("STRING(".toList ++ cs) = none :=
        fun _ => rfl
      rw [List.append_assoc, hother, ← List.append_assoc, between?_eq_some_iff.mpr rfl]
      rfl
  rw [sizeIn?, hwritten, Option.bind_some, trim_toDigits, ofSigned?_toDigits]

/-- A bounded character type is read with its size. -/
theorem parse_sized (hword : word ∈ sizedWords) (size : UInt32) :
    parse (word ++ decimal32 size ++ ")") = varchar size := by
  have hsize := sizeIn?_sized hword size
  have hcapitals : InCapitals (word ++ decimal32 size ++ ")").toList := by
    rw [toList_sized]
    obtain rfl | rfl := List.mem_pair.mp hword <;>
      exact (InCapitals.append (by decide) (inCapitals_toDigits _)).append (by decide)
  have htrim : trim (word ++ decimal32 size ++ ")").toList =
      (word ++ decimal32 size ++ ")").toList := by
    rw [toList_sized]
    obtain rfl | rfl := List.mem_pair.mp hword <;> exact trim_enclosed (by decide) (by decide) _
  have helement : elementIn? (word ++ decimal32 size ++ ")").toList = none := by
    rw [toList_sized]
    obtain rfl | rfl := List.mem_pair.mp hword <;> rfl
  have hkeyword : ofKeyword? (word ++ decimal32 size ++ ")") = none := by
    refine Option.eq_none_iff_forall_ne_some.mpr fun type h => ?_
    rw [(forall_keywords _ (mem_keywords h)).2.2.2] at hsize
    cases hsize
  rw [parse_of_inCapitals hcapitals htrim, helement, hkeyword, hsize]

/-! ### Types that are read -/

/-- The type has no small letter in the texts that are kept in it. -/
def IsCapital : ColumnType → Prop
  | other sql => InCapitals sql.toList
  | array element => element.IsCapital
  | _ => True

/-- A text is read as the type: one that is kept as a text is read as itself, and an element is
read in capitals. -/
def Legible : ColumnType → Prop
  | other sql => parse sql = other sql
  | array element => element.Legible ∧ element.IsCapital
  | _ => True

/-- No word is kept as a text. -/
theorem legible_of_ofKeyword? (h : ofKeyword? word = some type) :
    type.Legible ∧ type.IsCapital := by
  rw [ofKeyword?] at h
  repeat' split at h
  all_goals cases h <;> exact ⟨trivial, trivial⟩

theorem inCapitals_of_elementIn? {cs element : List Char}
    (h : elementIn? (upperChars cs) = some element) : InCapitals element := by
  refine (inCapitals_upperChars cs).of_sublist ?_
  rw [between?_eq_some_iff.mp h]
  exact (List.sublist_append_right _ _).trans (List.sublist_append_left _ _)

theorem isCapital_parseChars {cs : List Char} (h : InCapitals cs) : (parseChars cs).IsCapital := by
  fun_induction parseChars cs with
  | case1 cs capitals element helement ih => exact ih (inCapitals_of_elementIn? helement)
  | case2 cs capitals helement type htype => exact (legible_of_ofKeyword? htype).2
  | case3 => trivial
  | case4 cs =>
    rw [IsCapital, String.toList_ofList]
    exact h.of_sublist (trim_sublist cs)

theorem parseChars_trim (cs : List Char) : parseChars (trim cs) = parseChars cs := by
  rw [parseChars, parseChars, trim_trim]

theorem legible_parseChars (cs : List Char) : (parseChars cs).Legible := by
  fun_induction parseChars cs with
  | case1 cs capitals element helement ih =>
    exact ⟨ih, isCapital_parseChars (inCapitals_of_elementIn? helement)⟩
  | case2 cs capitals helement type htype => exact (legible_of_ofKeyword? htype).1
  | case3 => trivial
  | case4 cs capitals helement hkeyword hsize =>
    -- The blanks around a text do not matter for how it is read.
    rw [Legible, parse, String.toList_ofList, parseChars_trim, parseChars]
    split
    · next h => exact absurd (helement.symm.trans h) nofun
    · rw [hkeyword, hsize]

/-! ### Types that are written -/

theorem IsCapital.typeSql (h : type.IsCapital) : InCapitals (b.typeSql type).toList := by
  induction type with
  | varchar size =>
    cases hd : b.dialect <;> simp only [Backend.typeSql, hd, toList_sized] <;>
      exact (InCapitals.append (by decide) (inCapitals_toDigits _)).append (by decide)
  | array element ih =>
    cases hd : b.dialect <;> simp only [Backend.typeSql, hd]
    · decide
    · decide
    · rw [String.toList_append, String.toList_append]
      exact (InCapitals.append (by decide) (ih h)).append (by decide)
  | other sql => exact h
  | mediumText | text | boolean | integer | bigInt | json =>
    cases hd : b.dialect <;> simp only [Backend.typeSql, hd] <;> decide

/-- **What is written is read as the type that the backend has.** -/
theorem parse_typeSql (h : type.Legible) (b : Backend) :
    parse (b.typeSql type) = b.storedType type := by
  induction type with
  | varchar size =>
    cases hd : b.dialect <;> simp only [Backend.typeSql, Backend.storedType, hd] <;>
      exact parse_sized (by decide) size
  | array element ih =>
    cases hd : b.dialect <;> simp only [Backend.typeSql, Backend.storedType, hd]
    · exact parse_keyword rfl
    · exact parse_keyword rfl
    · rw [parse_array h.2.typeSql, ih h.1]
  | other sql => exact h
  | boolean =>
    cases hd : b.dialect <;> simp only [Backend.typeSql, Backend.storedType, hd]
    · rw [parse_of_inCapitals (by decide) (by decide)]
      rfl
    · exact parse_keyword rfl
    · exact parse_keyword rfl
  | mediumText | text | integer | bigInt | json =>
    cases hd : b.dialect <;> simp only [Backend.typeSql, Backend.storedType, hd] <;>
      exact parse_keyword rfl

/-- **Written types do not change again.**  The type that is read from the text of a type that was
read is the one the backend has for this type.  It is written as the same text, and it is a JSON
type or a text type exactly if the other is. -/
theorem typeSql_parse_stable (b : Backend) (sql : String) :
    parse (b.typeSql (parse sql)) = b.storedType (parse sql) ∧
      b.typeSql (parse (b.typeSql (parse sql))) = b.typeSql (parse sql) ∧
      (parse (b.typeSql (parse sql))).isJsonCapable = (parse sql).isJsonCapable ∧
      (parse (b.typeSql (parse sql))).isText = (parse sql).isText := by
  have hstored : parse (b.typeSql (parse sql)) = b.storedType (parse sql) :=
    parse_typeSql (legible_parseChars sql.toList) b
  rw [hstored]
  exact ⟨rfl, typeSql_storedType b _, isJsonCapable_storedType b _, isText_storedType b _⟩

end ColumnType

end DirectoryTables
