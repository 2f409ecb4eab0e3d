import DirectoryTables.Typing

/-!
# Typing — Syntaxes

The types that syntaxes give to values.  A syntax is a known one or one that the configuration
gives, so what holds of both kinds holds of every entry that a lookup finds.

* `Typing.forall_knownSyntaxes`: the known syntaxes share a few types.
* `Typing.exists_of_syntaxEntry`: an entry for an attribute is one of a syntax.
* `Typing.isArray_syntaxType_iff`: a value is an array exactly if the entry of its syntax is one.
* `Typing.isArray_syntaxType_of_givesNoArray`: that takes a syntax of the configuration.
-/

namespace DirectoryTables

/-- None of the types for the dialect is an array. -/
def DialectTypes.GivesNoArray (t : DialectTypes) (d : Dialect) : Prop :=
  ∀ e, t.forDialect d = some e → e.columnType.isArray = false

instance (t : DialectTypes) (d : Dialect) : Decidable (t.GivesNoArray d) :=
  match h : t.forDialect d with
  | none => .isTrue fun e he => by cases h.symm.trans he
  | some e =>
    decidable_of_iff (e.columnType.isArray = false)
      ⟨fun ht e' he' => by cases h.symm.trans he'; exact ht, fun ht => ht e h⟩

/-- None of the syntaxes that the configuration gives is an array. -/
def Config.GivesNoArray (c : Config) : Prop :=
  ∀ entry ∈ c.syntaxTypes.entries, entry.2.GivesNoArray c.dialect

namespace Typing

variable {c : Config} {a : Attribute} {e : TypeEntry}

/-! ### Entries of syntaxes -/

/-- What holds of the types that the known syntaxes share holds of all known syntaxes. -/
theorem forall_knownSyntaxes {P : DialectTypes → Prop} (hstring : P stringTypes)
    (hentryName : P entryNameTypes) (haddress : P addressTypes) (hboolean : P booleanTypes)
    (hinteger : P integerTypes) (htime : P timeTypes) (hbinary : P binaryTypes)
    (hjson : P jsonTypes) : ∀ entry ∈ knownSyntaxes.entries, P entry.2 := by
  refine Dict.forall_ofPairs fun entry he => ?_
  simp only [List.mem_append, List.mem_map, List.mem_cons, List.not_mem_nil, or_false] at he
  rcases he with ((⟨_, -, rfl⟩ | he) | ⟨_, -, rfl⟩) | he
  · exact hstring
  · rcases he with rfl | rfl | rfl | rfl | rfl
    · exact hentryName
    · exact haddress
    · exact hboolean
    · exact hinteger
    · exact htime
  · exact hbinary
  · rcases he with rfl | rfl | rfl | rfl | rfl | rfl | rfl
    · exact hstring
    · exact hentryName
    · exact hboolean
    · exact hinteger
    · exact htime
    · exact hbinary
    · exact hjson

/-- An entry that is found is one of a known syntax or of one that the configuration gives. -/
theorem exists_of_syntaxEntry {P : DialectTypes → Prop}
    (hknown : ∀ entry ∈ knownSyntaxes.entries, P entry.2)
    (hgiven : ∀ entry ∈ c.syntaxTypes.entries, P entry.2) (he : syntaxEntry? c a = some e) :
    ∃ types, P types ∧ types.forDialect c.dialect = some e := by
  have hsyntaxes : ∀ entry ∈ (syntaxes c).entries, P entry.2 := by
    refine Dict.forall_insertAll hknown fun entry hentry => ?_
    obtain ⟨given, hmem, rfl⟩ := List.mem_map.mp hentry
    exact hgiven given hmem
  obtain ⟨id, -, he⟩ := Option.bind_eq_some_iff.mp he
  obtain ⟨types, htypes, he⟩ := Option.bind_eq_some_iff.mp he
  exact ⟨types, hsyntaxes _ (Dict.mem_of_get? htypes), he⟩

/-! ### Arrays -/

theorem isArray_sizedText (size : Option UInt32) : (sizedText size).isArray = false := by
  cases size with
  | none => rfl
  | some size =>
    rw [sizedText, ColumnType.character]
    repeat' split
    all_goals rfl

/-- A value is an array exactly if the entry of its syntax is one and no character type. -/
theorem isArray_syntaxType_iff :
    (syntaxType c a).isArray = true ↔
      ∃ e, syntaxEntry? c a = some e ∧ e.isCharacter = false ∧ e.columnType.isArray = true := by
  rw [syntaxType]
  cases he : syntaxEntry? c a with
  | none => simp [isArray_sizedText]
  | some e => cases hcharacter : e.isCharacter <;> simp [hcharacter, isArray_sizedText]

/-- No known syntax is an array. -/
theorem knownSyntaxes_givesNoArray (dialect : Dialect) :
    ∀ entry ∈ knownSyntaxes.entries, entry.2.GivesNoArray dialect := by
  apply forall_knownSyntaxes (P := fun types => types.GivesNoArray dialect) <;>
    cases dialect <;> decide +kernel

/-- A value is no array if the configuration gives no syntax that is one. -/
theorem isArray_syntaxType_of_givesNoArray (h : c.GivesNoArray) (a : Attribute) :
    (syntaxType c a).isArray = false := by
  rw [← Bool.not_eq_true, isArray_syntaxType_iff]
  rintro ⟨e, he, -, harray⟩
  obtain ⟨types, htypes, he⟩ :=
    exists_of_syntaxEntry (P := fun types => types.GivesNoArray c.dialect)
      (knownSyntaxes_givesNoArray c.dialect) h he
  exact absurd (htypes e he) (by rw [harray]; exact Bool.noConfusion)

end Typing

end DirectoryTables
