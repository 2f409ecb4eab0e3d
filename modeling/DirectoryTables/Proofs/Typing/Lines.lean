import DirectoryTables.Proofs.Statement.Lines
import DirectoryTables.Proofs.Typing.Syntaxes

/-!
# Typing — Lines

Which types of columns and values are on one line: all of them, where documents give no others.  A
type is given by a document, by a known syntax, or by the size rule.

* `ColumnType.oneLine_parse`: the type that a text on one line writes.
* `Directory.OneLine`, `Config.OneLine`: the texts of documents are on one line.
* `Typing.oneLine_columnType`, `Typing.oneLine_valueType`: then so are the types of columns and
  values.
-/

namespace DirectoryTables

open Text

/-! ### Types that are read -/

namespace ColumnType

theorem oneLine_of_ofKeyword? {word : String} {type : ColumnType} (h : ofKeyword? word = some type) :
    type.OneLine := by
  rw [ofKeyword?] at h
  repeat' split at h
  all_goals cases h <;> trivial

theorem eq_of_toUpper_eq_angle {c : Char} (h : c.toUpper = '>') : c = '>' := by
  by_cases hsmall : 'a'.val ≤ c.val ∧ c.val ≤ 'z'.val
  · -- A small letter becomes a capital one, which is no angle.
    have hcapital := (dif_pos hsmall).symm.trans h
    have hval : (c.val + ('A'.val - 'a'.val)).toNat = 62 :=
      congrArg (fun c => c.val.toNat) hcapital
    obtain ⟨hge, hle⟩ := hsmall
    rw [UInt32.le_iff_toNat_le] at hge hle
    rw [UInt32.toNat_add] at hval
    simp at hge hle hval
    omega
  · exact (dif_neg hsmall).symm.trans h

/-- Trimming leaves the last character where it is no blank. -/
theorem exists_trim_eq (init : List Char) {last : Char} (h : isBlank last = false) :
    ∃ kept, trim (init ++ [last]) = kept ++ [last] ∧ kept.Sublist init := by
  have hstart : ∃ kept, trimStart (init ++ [last]) = kept ++ [last] ∧ kept.Sublist init := by
    rw [trimStart, List.dropWhile_append]
    split
    · exact ⟨[], by simp [h], List.nil_sublist _⟩
    · exact ⟨_, rfl, List.dropWhile_sublist _⟩
  obtain ⟨kept, hkept, hsub⟩ := hstart
  exact ⟨kept, by rw [trim, hkept, trimEnd_append_singleton kept h], hsub⟩

/-- The type that a text on one line writes, if the text ends neither in a blank nor as an array. -/
theorem oneLine_parse {sql : String} {last : Char} (h : Unbroken sql)
    (hlast : sql.toList.getLast? = some last) (hblank : isBlank last = false)
    (hangle : last ≠ '>') : (parse sql).OneLine := by
  obtain ⟨init, hinit⟩ := List.getLast?_eq_some_iff.mp hlast
  obtain ⟨kept, hkept, hsub⟩ := exists_trim_eq init hblank
  rw [parse, hinit, parseChars, hkept]
  split
  · next element helement =>
    have hcapitals : upperChars kept ++ [last.toUpper] = "ARRAY<".toList ++ element ++ ['>'] :=
      List.map_append.symm.trans (between?_eq_some_iff.mp helement)
    have hend : last.toUpper = '>' := by
      have hends := congrArg List.getLast? hcapitals
      rw [List.getLast?_concat, List.getLast?_concat] at hends
      exact Option.some.inj hends
    exact absurd (eq_of_toUpper_eq_angle hend) hangle
  · split
    · next type htype => exact oneLine_of_ofKeyword? htype
    · split
      · trivial
      · constructor
        · rw [unbroken_ofList]
          have hsub' : (kept ++ [last]).Sublist sql.toList := hinit ▸ hsub.append (.refl _)
          exact fun hmem => h (hsub'.subset hmem)
        · exact (Option.any_eq_true _ _).mpr ⟨last, by simp, by simp [hblank]⟩

end ColumnType

/-! ### Documents on one line -/

/-- The types that the entry writes, for any table, are on one line. -/
structure TypeEntry.OneLine (e : TypeEntry) : Prop where
  type : e.columnType.OneLine
  variants : ∀ table, (e.forTable table).columnType.OneLine

/-- The types that the entries write are on one line. -/
def DialectTypes.OneLine (t : DialectTypes) : Prop :=
  ∀ d e, t.own d = some e → e.OneLine

/-- The names that the class gives to columns and to its table are on one line. -/
structure ObjectClass.OneLine (cls : ObjectClass) : Prop where
  name : Unbroken cls.name
  may : ∀ n ∈ cls.may, Unbroken n
  included : ∀ n ∈ cls.included, Unbroken n

/-- The canonical name and the explicit types are on one line. -/
structure Attribute.OneLine (a : Attribute) : Prop where
  name : Unbroken a.name
  sql : ∀ types, a.sql = some types → types.OneLine

/-- The definitions of the directory are on one line. -/
structure Directory.OneLine (d : Directory) : Prop where
  attributes : ∀ a ∈ d.attributes.items, a.OneLine
  classes : ∀ cls ∈ d.classes.items, cls.OneLine

/-- The types and the path that the configuration gives are on one line. -/
structure Config.OneLine (c : Config) : Prop where
  typeOverrides : ∀ entry ∈ c.typeOverrides.entries, entry.2.OneLine
  syntaxTypes : ∀ entry ∈ c.syntaxTypes.entries, entry.2.OneLine
  jsonArrayPath : Unbroken c.jsonArrayPath

namespace Directory

variable {d : Directory}

theorem OneLine.attribute? (h : d.OneLine) {name : String} {a : Attribute}
    (ha : d.attribute? name = some a) : a.OneLine := by
  obtain ⟨i, -, hi⟩ := Option.bind_eq_some_iff.mp ha
  exact h.attributes a (List.mem_of_getElem? hi)

theorem OneLine.class? (h : d.OneLine) {name : String} {cls : ObjectClass}
    (hcls : d.class? name = some cls) : cls.OneLine := by
  obtain ⟨i, -, hi⟩ := Option.bind_eq_some_iff.mp hcls
  exact h.classes cls (List.mem_of_getElem? hi)

theorem OneLine.canonical (h : d.OneLine) {name : String} (hname : Unbroken name) :
    Unbroken (d.canonical name) := by
  rw [Directory.canonical]
  cases ha : d.attribute? name with
  | none => exact hname
  | some a => exact (h.attribute? ha).name

end Directory

/-! ### Known syntaxes -/

namespace TypeEntry

theorem oneLine_plain {typeName : String} {last : Char} (h : Unbroken typeName)
    (hlast : typeName.toList.getLast? = some last) (hblank : isBlank last = false)
    (hangle : last ≠ '>') : (plain typeName).OneLine :=
  have htype : (plain typeName).columnType.OneLine :=
    ColumnType.oneLine_parse h hlast hblank hangle
  ⟨htype, fun _ => htype⟩

/-- A type with a size ends in a bracket. -/
theorem oneLine_sized {typeName : String} (h : Unbroken typeName) (size : UInt32) :
    (sized typeName size).OneLine := by
  have hsql : Unbroken (sized typeName size).sql := by
    simp +decide [sized, sql, TypeEntry.size, TypeEntry.typeName, h, decimal32, unbroken_decimal]
  have hlast : (sized typeName size).sql.toList.getLast? = some ')' := by
    rw [sized, sql, TypeEntry.size, String.toList_append, List.getLast?_append]
    rfl
  have htype : (sized typeName size).columnType.OneLine :=
    ColumnType.oneLine_parse hsql hlast (by decide) (by decide)
  exact ⟨htype, fun _ => htype⟩

end TypeEntry

namespace DialectTypes

theorem OneLine.forDialect {t : DialectTypes} (h : t.OneLine) {d : Dialect} {e : TypeEntry}
    (he : t.forDialect d = some e) : e.OneLine := by
  rw [DialectTypes.forDialect] at he
  cases hown : t.own d with
  | none =>
    rw [hown] at he
    exact h .mysql e he
  | some _ =>
    rw [hown] at he
    exact h d e (hown.trans he)

theorem oneLine_all {e : TypeEntry} (h : e.OneLine) : (all e).OneLine := by
  intro d e' he
  cases d <;> cases he
  exact h

theorem oneLine_mk {e₁ e₂ e₃ : TypeEntry} (h₁ : e₁.OneLine) (h₂ : e₂.OneLine)
    (h₃ : e₃.OneLine) : OneLine ⟨some e₁, some e₂, some e₃⟩ := by
  intro d e he
  cases d <;> cases he <;> assumption

end DialectTypes

namespace Typing

variable {d : Directory} {c : Config} {name table : String} {a : Attribute}

theorem oneLine_booleanTypes : booleanTypes.OneLine :=
  DialectTypes.oneLine_mk (TypeEntry.oneLine_plain (by decide) rfl (by decide) (by decide))
    (TypeEntry.oneLine_plain (by decide) rfl (by decide) (by decide))
    (TypeEntry.oneLine_plain (by decide) rfl (by decide) (by decide))

theorem oneLine_timeTypes : timeTypes.OneLine :=
  DialectTypes.oneLine_mk (TypeEntry.oneLine_sized (by decide) _)
    (TypeEntry.oneLine_plain (by decide) rfl (by decide) (by decide))
    (TypeEntry.oneLine_plain (by decide) rfl (by decide) (by decide))

theorem oneLine_binaryTypes : binaryTypes.OneLine :=
  DialectTypes.oneLine_mk (TypeEntry.oneLine_plain (by decide) rfl (by decide) (by decide))
    (TypeEntry.oneLine_plain (by decide) rfl (by decide) (by decide))
    (TypeEntry.oneLine_plain (by decide) rfl (by decide) (by decide))

/-- The types of known syntaxes are on one line. -/
theorem oneLine_knownSyntaxes : ∀ entry ∈ knownSyntaxes.entries, entry.2.OneLine := by
  have hstring : stringTypes.OneLine :=
    DialectTypes.oneLine_all (TypeEntry.oneLine_sized (by decide) _)
  have hentryName : entryNameTypes.OneLine :=
    DialectTypes.oneLine_all (TypeEntry.oneLine_sized (by decide) _)
  have haddress : addressTypes.OneLine :=
    DialectTypes.oneLine_all (TypeEntry.oneLine_sized (by decide) _)
  have hinteger : integerTypes.OneLine :=
    DialectTypes.oneLine_all (TypeEntry.oneLine_plain (by decide) rfl (by decide) (by decide))
  have hjson : jsonTypes.OneLine :=
    DialectTypes.oneLine_all (TypeEntry.oneLine_plain (by decide) rfl (by decide) (by decide))
  exact forall_knownSyntaxes hstring hentryName haddress oneLine_booleanTypes hinteger
    oneLine_timeTypes oneLine_binaryTypes hjson

/-! ### Types of columns and values -/

theorem oneLine_of_syntaxEntry (h : c.OneLine) {e : TypeEntry} (he : syntaxEntry? c a = some e) :
    e.OneLine := by
  obtain ⟨types, htypes, he⟩ := exists_of_syntaxEntry oneLine_knownSyntaxes h.syntaxTypes he
  exact htypes.forDialect he

theorem oneLine_sizedText (size : Option UInt32) : (sizedText size).OneLine := by
  cases size with
  | none => trivial
  | some size =>
    rw [sizedText, ColumnType.character]
    repeat' split
    all_goals trivial

theorem oneLine_syntaxType (h : c.OneLine) (a : Attribute) : (syntaxType c a).OneLine := by
  rw [syntaxType]
  cases he : syntaxEntry? c a with
  | none => exact oneLine_sizedText _
  | some e =>
    dsimp only
    split
    · exact oneLine_sizedText _
    · exact (oneLine_of_syntaxEntry h he).type

theorem oneLine_explicitType (hd : d.OneLine) (hc : c.OneLine) {type : ColumnType}
    (h : explicitType? d c name table = some type) : type.OneLine := by
  obtain ⟨e, he, rfl⟩ := Option.map_eq_some_iff.mp h
  obtain ⟨types, hsource, he⟩ := List.exists_of_findSome?_eq_some he
  have htypes : types.OneLine := by
    rcases List.mem_append.mp hsource with hsource | hsource
    · rcases List.mem_append.mp hsource with hsource | hsource <;>
        obtain ⟨key, -, hget⟩ := List.mem_filterMap.mp hsource <;>
        exact hc.typeOverrides _ (Dict.mem_of_get? hget)
    · obtain ⟨a, ha, hsql⟩ := Option.bind_eq_some_iff.mp (Option.mem_toList.mp hsource)
      exact (hd.attribute? ha).sql types hsql
  exact (htypes.forDialect he).variants table

theorem oneLine_columnType (hd : d.OneLine) (hc : c.OneLine) (name table : String) :
    (columnType d c name table).OneLine := by
  rw [columnType]
  cases hexplicit : explicitType? d c name table with
  | some type => exact oneLine_explicitType hd hc hexplicit
  | none =>
    cases ha : d.attribute? name with
    | none => trivial
    | some a =>
      have htype := oneLine_syntaxType hc a
      dsimp only
      split
      · rw [Backend.collectionType]
        split
        · exact htype
        all_goals trivial
      · exact htype

theorem oneLine_valueType (hd : d.OneLine) (hc : c.OneLine) (name table : String) :
    (valueType d c name table).OneLine := by
  have hplain : (plainValueType d c name).OneLine := by
    rw [plainValueType]
    cases d.attribute? name with
    | none => trivial
    | some a => exact oneLine_syntaxType hc a
  rw [valueType]
  cases hexplicit : explicitType? d c name table with
  | none => exact hplain
  | some type =>
    have htype := oneLine_explicitType hd hc hexplicit
    cases type with
    | json => exact hplain
    | _ => exact htype

end Typing

end DirectoryTables
