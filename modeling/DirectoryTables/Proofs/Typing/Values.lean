import DirectoryTables.Proofs.Typing.Precedence
import DirectoryTables.Proofs.Typing.Syntaxes

/-!
# Typing — Columns and values

The type of an attribute as a column, against the type of one of its values in a subtable.

Both are found on ways of their own.  An explicit type that is an array is opened for the values,
and a collection is made of the type of its values; but an attribute with a single value whose
syntax is an array has that array in the column and for each value.

* `ColumnType.valueIn`: the type of one value in a column of an explicit type.
* `Typing.value_type_agrees_iff`: when the values of an array column have its element type.  They do
  if the configuration gives no syntax that is an array.
* `Typing.not_value_type_agrees`: they need not in general.
-/

namespace DirectoryTables

namespace ColumnType

/-- The type of one value in a column of a type: of an array its element, of a JSON document a given
plain type. -/
def valueIn (plain : ColumnType) : ColumnType → ColumnType
  | array element => element
  | json => plain
  | type => type

theorem array_ne (element : ColumnType) : array element ≠ element := by
  intro h
  have hsize := congrArg sizeOf h
  simp only [array.sizeOf_spec] at hsize
  omega

theorem exists_of_isArray {type : ColumnType} (h : type.isArray = true) :
    ∃ element, type = array element := by
  cases type with
  | array element => exact ⟨element, rfl⟩
  | _ => cases h

theorem valueIn_of_not_isJsonCapable {type : ColumnType} (plain : ColumnType)
    (h : type.isJsonCapable = false) : valueIn plain type = type := by
  cases type with
  | array | json => cases h
  | _ => rfl

end ColumnType

namespace Typing

variable {d : Directory} {c : Config} {name table : String} {type element : ColumnType}
  {a : Attribute} {s : Source} {e : TypeEntry}

/-! ### Values -/

theorem plainValueType_of_some (ha : d.attribute? name = some a) :
    plainValueType d c name = syntaxType c a := by
  rw [plainValueType, ha]

theorem plainValueType_of_none (ha : d.attribute? name = none) :
    plainValueType d c name = .text := by
  rw [plainValueType, ha]

/-- The type of a value by the source that decides. -/
theorem Decides.valueType (h : Decides d c name table s e) :
    Typing.valueType d c name table =
      .valueIn (plainValueType d c name) (e.forTable table).columnType := by
  rw [Typing.valueType, h.explicitType?]
  cases (e.forTable table).columnType <;> rfl

theorem valueType_of_no_variant (h : ∀ s, variant? d c name table s = none) :
    valueType d c name table = plainValueType d c name := by
  rw [valueType, explicitType?_eq_none_iff.mpr h]

/-! ### Columns against values -/

theorem isJsonCapable_collectionType (b : Backend) (element : ColumnType) :
    (b.collectionType element).isJsonCapable = true := by
  rw [Backend.collectionType]
  split <;> rfl

/-- A collection that is an array is one of the values it is made for. -/
theorem eq_of_collectionType_eq_array {b : Backend} (h : b.collectionType type = .array element) :
    type = element := by
  rw [Backend.collectionType] at h
  split at h <;> cases h
  rfl

/-- A column that holds no JSON document and no array holds a value of its own type. -/
theorem HasColumnType.valueType_eq (h : HasColumnType d c name table type)
    (hplain : type.isJsonCapable = false) : valueType d c name table = type := by
  cases h with
  | explicit h => rw [h.valueType, ColumnType.valueIn_of_not_isJsonCapable _ hplain]
  | single h ha _ => rw [valueType_of_no_variant h, plainValueType_of_some ha]
  | several => exact absurd hplain (by rw [isJsonCapable_collectionType]; exact Bool.noConfusion)
  | undefined h ha => rw [valueType_of_no_variant h, plainValueType_of_none ha]

/-- The values of an array column have its element type, unless the array is the syntax of an
attribute with a single value. -/
theorem HasColumnType.valueType_eq_element (h : HasColumnType d c name table type)
    (htype : type = .array element)
    (hsingle : (∀ s, variant? d c name table s = none) → ∀ a, d.attribute? name = some a →
      a.multivalued = false → (syntaxType c a).isArray = false) :
    valueType d c name table = element := by
  cases h with
  | explicit h => rw [h.valueType, htype, ColumnType.valueIn]
  | @single a h ha hmulti =>
    have hno := hsingle h a ha hmulti
    rw [htype] at hno
    cases hno
  | several h ha _ =>
    rw [valueType_of_no_variant h, plainValueType_of_some ha]
    exact eq_of_collectionType_eq_array htype
  | undefined => cases htype

/-- **Columns and values agree** on a type that is neither a JSON document nor an array, and on an
array as long as it is not the syntax of an attribute with a single value: then the values have its
element type.  No array is such a syntax if the configuration gives none. -/
theorem value_type_agrees_iff (d : Directory) (c : Config) (name table : String) :
    ((∀ element, columnType d c name table = .array element →
        valueType d c name table = element) ↔
      ((∀ s, variant? d c name table s = none) → ∀ a, d.attribute? name = some a →
        a.multivalued = false → (syntaxType c a).isArray = false)) ∧
    ((columnType d c name table).isJsonCapable = false →
      valueType d c name table = columnType d c name table) ∧
    (c.GivesNoArray → ∀ element, columnType d c name table = .array element →
      valueType d c name table = element) := by
  have hcolumn := hasColumnType_columnType d c name table
  refine ⟨⟨fun hagree h a ha hmulti => ?_, fun hsingle element htype => ?_⟩,
    hcolumn.valueType_eq, fun hnone element htype => ?_⟩
  · by_contra harray
    obtain ⟨element, htype⟩ := ColumnType.exists_of_isArray (eq_true_of_ne_false harray)
    have hvalue : valueType d c name table = element :=
      hagree element ((HasColumnType.single h ha hmulti).eq.symm.trans htype)
    rw [valueType_of_no_variant h, plainValueType_of_some ha, htype] at hvalue
    exact ColumnType.array_ne element hvalue
  · exact hcolumn.valueType_eq_element htype hsingle
  · exact hcolumn.valueType_eq_element htype fun _ a _ _ =>
      isArray_syntaxType_of_givesNoArray hnone a

/-- An attribute with several values on Spanner, and one with a single value. -/
theorem value_type_agrees_iff_spanner :
    let d : Directory := .ofDefinitions
      [{ names := ["mail"], size := some 96, multivalued := true },
        { names := ["uid"], size := some 200 }] []
    let c : Config := { dialect := .spanner }
    c.GivesNoArray ∧ columnType d c "mail" "person" = .array (.varchar 96) ∧
      valueType d c "mail" "person" = .varchar 96 ∧
      (columnType d c "uid" "person").isJsonCapable = false ∧
      valueType d c "uid" "person" = columnType d c "uid" "person" := by
  intro d c
  have hnone : c.GivesNoArray := fun entry h => by cases h
  have hmail : columnType d c "mail" "person" = .array (.varchar 96) := by decide +kernel
  have huid : (columnType d c "uid" "person").isJsonCapable = false := by decide +kernel
  exact ⟨hnone, hmail, (value_type_agrees_iff d c "mail" "person").2.2 hnone _ hmail, huid,
    (value_type_agrees_iff d c "uid" "person").2.1 huid⟩

/-- An attribute with a single value, of a syntax that the configuration gives. -/
def tagAttribute : Attribute where
  names := ["tag"]
  syntaxId := some "tags"

/-- The syntax of `tagAttribute` is an array of texts. -/
def tagConfig : Config where
  dialect := .spanner
  syntaxTypes := .ofPairs [("tags", { spanner := some (.plain "ARRAY<STRING(MAX)>") })]

theorem syntaxType_tagAttribute : syntaxType tagConfig tagAttribute = .array .text := by
  have hget : (syntaxes tagConfig).get? (Text.lower "tags") =
      some { spanner := some (.plain "ARRAY<STRING(MAX)>") } :=
    (Dict.get?_insert knownSyntaxes _ _ _).trans (if_pos rfl)
  have hentry : syntaxEntry? tagConfig tagAttribute = some (.plain "ARRAY<STRING(MAX)>") := by
    rw [tagAttribute, syntaxEntry?, Option.bind_eq_bind, Option.bind_some, hget]
    rfl
  rw [syntaxType, hentry]
  decide +kernel

/-- Values do not always have the element type of an array column: those of a syntax that is an
array have the whole of it. -/
theorem not_value_type_agrees :
    ¬ ∀ docs d, Directory.ofDocuments docs = .ok d → ∀ c name table element,
      columnType d c name table = .array element → valueType d c name table = element := by
  intro h
  have hdocs : Directory.ofDocuments [{ attributes := [tagAttribute] }] =
      .ok (.ofDefinitions [tagAttribute] []) := rfl
  have hfound : (Directory.ofDefinitions [tagAttribute] []).attribute? "tag" = some tagAttribute :=
    rfl
  have hno : ∀ s, variant? (.ofDefinitions [tagAttribute] []) tagConfig "tag" "person" s =
      none := by
    intro s
    cases s <;> rfl
  have hcolumn : columnType (.ofDefinitions [tagAttribute] []) tagConfig "tag" "person" =
      .array .text :=
    (HasColumnType.single hno hfound rfl).eq.symm.trans syntaxType_tagAttribute
  have hvalue := h _ _ hdocs tagConfig "tag" "person" .text hcolumn
  rw [valueType_of_no_variant hno, plainValueType_of_some hfound, syntaxType_tagAttribute] at hvalue
  cases hvalue

end Typing

end DirectoryTables
