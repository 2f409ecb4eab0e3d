import DirectoryTables.Proofs.Plan.Routing
import DirectoryTables.Proofs.Typing.Values

/-!
# Plans — Types under other names

Whether the names of an attribute are as good as each other for its types.  The definition, its
syntax and the overrides under the canonical name are found by every name; an override under another
name is found by that name alone, as it is written.  Columns are named canonically, so such an
override does not reach the tables that are planned.

* `Typing.DecidesAsWritten`: an override under the name as it is written decides the type.
* `Compiler.alias_types_iff`: when two names of an attribute give the same types, and that overrides
  reach a plan under canonical names only.
* `Compiler.not_alias_types`: two names need not give the same type.
-/

namespace DirectoryTables

/-- The configuration with other overrides. -/
def Config.withOverrides (c : Config) (overrides : Dict DialectTypes) : Config :=
  { c with typeOverrides := overrides }

/-- The compiler with other overrides. -/
def Compiler.withOverrides (c : Compiler) (overrides : Dict DialectTypes) : Compiler :=
  { c with config := c.config.withOverrides overrides }

namespace Typing

variable {d : Directory} {c c' : Config} {name other table : String} {a : Attribute}
  {e : TypeEntry}

/-! ### Names of one attribute -/

/-- An override under the name as it is written decides the type, for the table or for all
tables. -/
def DecidesAsWritten (d : Directory) (c : Config) (name table : String) (e : TypeEntry) : Prop :=
  Decides d c name table .tableWritten e ∨ Decides d c name table .written e

theorem DecidesAsWritten.columnType (h : DecidesAsWritten d c name table e) :
    Typing.columnType d c name table = (e.forTable table).columnType := by
  obtain h | h := h <;> exact (HasColumnType.explicit h).eq.symm

theorem DecidesAsWritten.valueType (ha : d.attribute? name = some a)
    (h : DecidesAsWritten d c name table e) :
    Typing.valueType d c name table =
      .valueIn (syntaxType c a) (e.forTable table).columnType := by
  obtain h | h := h <;> rw [h.valueType, plainValueType_of_some ha]

/-- Without an override under the name as it is written, the sources for the canonical name are all
there are. -/
theorem findSome?_inOrder_of_not_written (h : ∀ e, ¬ DecidesAsWritten d c name table e) :
    Source.inOrder.findSome? (variant? d c name table) =
      [.tableCanonical, .canonical, .definition].findSome? (variant? d c name table) := by
  have htableWritten : variant? d c name table .tableWritten = none := by
    by_contra hne
    obtain ⟨e, he⟩ := Option.ne_none_iff_exists'.mp hne
    exact h e (.inl ⟨he, fun r hr => absurd hr (Nat.not_lt_zero _)⟩)
  cases htable : variant? d c name table .tableCanonical with
  | some e => simp [Source.inOrder, htableWritten, htable]
  | none =>
    have hwritten : variant? d c name table .written = none := by
      by_contra hne
      obtain ⟨e, he⟩ := Option.ne_none_iff_exists'.mp hne
      refine h e (.inr ⟨he, fun r hr => ?_⟩)
      cases r with
      | tableWritten => exact htableWritten
      | tableCanonical => exact htable
      | written | canonical | definition => exact absurd hr (by decide)
    simp [Source.inOrder, htableWritten, htable, hwritten]

theorem explicitType?_eq_of_not_written (hname : d.attribute? name = some a)
    (hother : d.attribute? other = some a) (h : ∀ e, ¬ DecidesAsWritten d c name table e)
    (h' : ∀ e, ¬ DecidesAsWritten d c other table e) :
    explicitType? d c name table = explicitType? d c other table := by
  have hcanonical : d.canonical name = d.canonical other := by
    rw [Directory.canonical, Directory.canonical, hname, hother, Option.map_some, Option.getD_some,
      Option.getD_some]
  rw [explicitType?, explicitType?, findSome?_explicitSources, findSome?_explicitSources,
    findSome?_inOrder_of_not_written h, findSome?_inOrder_of_not_written h']
  simp only [List.findSome?_cons, List.findSome?_nil, variant?, given?, hcanonical, hname, hother]

theorem columnType_eq_of_not_written (hname : d.attribute? name = some a)
    (hother : d.attribute? other = some a) (h : ∀ e, ¬ DecidesAsWritten d c name table e)
    (h' : ∀ e, ¬ DecidesAsWritten d c other table e) :
    columnType d c name table = columnType d c other table := by
  rw [columnType, columnType, explicitType?_eq_of_not_written hname hother h h', hname, hother]

theorem valueType_eq_of_not_written (hname : d.attribute? name = some a)
    (hother : d.attribute? other = some a) (h : ∀ e, ¬ DecidesAsWritten d c name table e)
    (h' : ∀ e, ¬ DecidesAsWritten d c other table e) :
    valueType d c name table = valueType d c other table := by
  rw [valueType, valueType, explicitType?_eq_of_not_written hname hother h h', plainValueType,
    plainValueType, hname, hother]

/-- What overrides under names as they are written give, and what is the same for two names without
them, is the same exactly if each such override gives what the other name has. -/
theorem eq_iff_of_written {f : String → ColumnType} {g : TypeEntry → ColumnType}
    (hf : ∀ e, DecidesAsWritten d c name table e → f name = g e)
    (hf' : ∀ e, DecidesAsWritten d c other table e → f other = g e)
    (helse : (∀ e, ¬ DecidesAsWritten d c name table e) →
      (∀ e, ¬ DecidesAsWritten d c other table e) → f name = f other) :
    f name = f other ↔
      ∀ e, (DecidesAsWritten d c name table e → g e = f other) ∧
        (DecidesAsWritten d c other table e → g e = f name) := by
  constructor
  · intro heq e
    exact ⟨fun h => (hf e h).symm.trans heq, fun h => (hf' e h).symm.trans heq.symm⟩
  · intro hall
    by_cases hname : ∃ e, DecidesAsWritten d c name table e
    · obtain ⟨e, he⟩ := hname
      exact (hf e he).trans ((hall e).1 he)
    · by_cases hother : ∃ e, DecidesAsWritten d c other table e
      · obtain ⟨e, he⟩ := hother
        exact ((hf' e he).trans ((hall e).2 he)).symm
      · exact helse (not_exists.mp hname) (not_exists.mp hother)

/-! ### Overrides that are not looked at -/

/-- The overrides are the same under a name, for a table and for all tables. -/
def SameUnder (overrides overrides' : Dict DialectTypes) (name table : String) : Prop :=
  overrides'.get? name = overrides.get? name ∧
    overrides'.get? (table ++ ":" ++ name) = overrides.get? (table ++ ":" ++ name)

section SameUnder

variable {overrides : Dict DialectTypes} (hcanonical : d.canonical name = name)
  (hsame : SameUnder c.typeOverrides overrides name table)
include hcanonical hsame

/-- For a canonical name no other overrides are looked at. -/
theorem explicitType?_withOverrides :
    explicitType? d (c.withOverrides overrides) name table = explicitType? d c name table := by
  refine explicitType?_congr fun s => variant?_congr rfl ?_
  cases s with
  | tableWritten => exact hsame.2
  | tableCanonical => rw [given?, given?, hcanonical]; exact hsame.2
  | written => exact hsame.1
  | canonical => rw [given?, given?, hcanonical]; exact hsame.1
  | definition => rfl

theorem columnType_withOverrides :
    columnType d (c.withOverrides overrides) name table = columnType d c name table := by
  rw [columnType, explicitType?_withOverrides hcanonical hsame]
  rfl

theorem valueType_withOverrides :
    valueType d (c.withOverrides overrides) name table = valueType d c name table := by
  rw [valueType, explicitType?_withOverrides hcanonical hsame]
  rfl

end SameUnder

end Typing

namespace Directory

variable {d : Directory} {docs : List SchemaDocument} {name : String} {a : Attribute}

/-- Where lookups are exact, an attribute is found by its canonical name. -/
theorem attribute?_name (hdocs : ofDocuments docs = .ok d) (hexact : d.attributes.Exact)
    (ha : a ∈ d.attributes.items) : d.attribute? a.name = some a :=
  (attribute?_eq_some_iff hexact).mpr ⟨ha, Attribute.hasName_name (names_ne_nil hdocs ha)⟩

theorem canonical_name (hdocs : ofDocuments docs = .ok d) (hexact : d.attributes.Exact)
    (ha : a ∈ d.attributes.items) : d.canonical a.name = a.name := by
  rw [canonical, attribute?_name hdocs hexact ha, Option.map_some, Option.getD_some]

/-- Where lookups are exact, a canonical name is its own. -/
theorem canonical_canonical (hdocs : ofDocuments docs = .ok d) (hexact : d.attributes.Exact)
    (name : String) : d.canonical (d.canonical name) = d.canonical name := by
  cases ha : d.attribute? name with
  | none =>
    have hname : d.canonical name = name := by
      rw [canonical, ha, Option.map_none, Option.getD_none]
    rw [hname, hname]
  | some a =>
    have hname : d.canonical name = a.name := by
      rw [canonical, ha, Option.map_some, Option.getD_some]
    rw [hname]
    exact canonical_name hdocs hexact (Registry.mem_items_of_find? ha)

end Directory

/-! ### Overrides and plans -/

namespace Plan

variable {d : Directory} {c : Config} {plan : Plan} {overrides : Dict DialectTypes}
  {docs : List SchemaDocument}

/-- Columns and values have the types that their names give. -/
structure TypedByName (plan : Plan) (d : Directory) (c : Config) : Prop where
  columns : ∀ t ∈ plan.tables, ∀ column ∈ t.attributeColumns,
    column.type = Typing.columnType d c column.name t.name
  values : ∀ s ∈ plan.subtables, s.valueType = Typing.valueType d c s.valueColumn s.parent

/-- Columns and values are under canonical names. -/
structure Canonical (plan : Plan) (d : Directory) : Prop where
  columns : ∀ t ∈ plan.tables, ∀ column ∈ t.attributeColumns, d.canonical column.name = column.name
  values : ∀ s ∈ plan.subtables, d.canonical s.valueColumn = s.valueColumn

/-- The overrides are the same under the names of the attributes that have columns or subtables in
the plan. -/
structure SameOverrides (plan : Plan) (overrides overrides' : Dict DialectTypes) : Prop where
  columns : ∀ t ∈ plan.tables, ∀ column ∈ t.attributeColumns,
    Typing.SameUnder overrides overrides' column.name t.name
  values : ∀ s ∈ plan.subtables, Typing.SameUnder overrides overrides' s.valueColumn s.parent

/-- A kept name is canonical and no bookkeeping name. -/
theorem exists_of_mem_keptNames {table n : String} {names : List String}
    (h : n ∈ keptNames d table names) : isBookkeeping n = false ∧ ∃ m, n = d.canonical m := by
  obtain ⟨hattribute, -⟩ := List.mem_filter.mp h
  obtain ⟨hlisted, hbook⟩ := List.mem_filter.mp hattribute
  rw [← Text.distinctNames_eq_firstOccurrences] at hlisted
  obtain ⟨m, -, rfl⟩ := List.mem_map.mp ((Text.distinctNames_sublist _).subset hlisted)
  exact ⟨by simpa using hbook, m, rfl⟩

/-- The column of an attribute has a canonical name, and the type that this name gives. -/
theorem exists_of_mem_attributeColumns (hplan : ofDirectory d c = .ok plan) {t : Table}
    (ht : t ∈ plan.tables) {column : Column} (hcolumn : column ∈ t.attributeColumns) :
    (∃ m, column.name = d.canonical m) ∧
      column.type = Typing.columnType d c column.name t.name := by
  obtain ⟨cls, -, htable⟩ := exists_of_mem_mapM (ofDirectory_eq_ok hplan).1 ht
  have htcls : IsTableOf d c cls t := tableFor_eq_ok_iff.mp htable
  obtain ⟨merged, parents, -, -, hcolumns⟩ := htcls.columns
  obtain ⟨hmem, hbook⟩ := List.mem_filter.mp hcolumn
  rw [hcolumns] at hmem
  obtain hbookkeeping | hattribute := List.mem_append.mp hmem
  · have hname := exists_bookkeeping_iff.mp ⟨column, hbookkeeping, Text.sameName_self column.name⟩
    rw [hname] at hbook
    cases hbook
  · obtain ⟨n, hn, rfl⟩ := List.mem_map.mp hattribute
    exact ⟨(exists_of_mem_keptNames hn).2, by rw [htcls.name]⟩

theorem typedByName_of_planned (hplan : ofDirectory d c = .ok plan) : plan.TypedByName d c := by
  refine ⟨fun t ht column hcolumn => (exists_of_mem_attributeColumns hplan ht hcolumn).2,
    fun s hs => ?_⟩
  obtain ⟨a, -, -, hname, htype, -⟩ := exists_route_of_subtable hplan hs
  rw [hname, htype]

/-- Where lookups are exact, the names in a plan are canonical. -/
theorem canonical_of_planned (hdocs : Directory.ofDocuments docs = .ok d)
    (hexact : d.attributes.Exact) (hplan : ofDirectory d c = .ok plan) : plan.Canonical d := by
  refine ⟨fun t ht column hcolumn => ?_, fun s hs => ?_⟩
  · obtain ⟨m, hm⟩ := (exists_of_mem_attributeColumns hplan ht hcolumn).1
    rw [hm, Directory.canonical_canonical hdocs hexact]
  · obtain ⟨a, ha, -, hname, -, -⟩ := exists_route_of_subtable hplan hs
    rw [hname, Directory.canonical_name hdocs hexact ha]

theorem tableFor_withOverrides (hcanonical : plan.Canonical d)
    (hsame : plan.SameOverrides c.typeOverrides overrides) {cls : ObjectClass} {t : Table}
    (ht : t ∈ plan.tables) (h : tableFor d c cls = .ok t) :
    tableFor d (c.withOverrides overrides) cls = .ok t := by
  rw [tableFor_eq_ok_iff] at h ⊢
  obtain ⟨merged, parents, hmerged, hparents, hcolumns⟩ := h.columns
  refine ⟨h.name, merged, parents, hmerged, hparents, hcolumns.trans ?_⟩
  refine congrArg (bookkeeping ++ ·) (List.map_congr_left fun n hn => ?_)
  have hcolumn : ⟨n, Typing.columnType d c n cls.name⟩ ∈ t.attributeColumns := by
    refine List.mem_filter.mpr ⟨hcolumns ▸ List.mem_append_right _ ?_, ?_⟩
    · exact List.mem_map_of_mem hn
    · simp [(exists_of_mem_keptNames hn).1]
  have htype := Typing.columnType_withOverrides (hcanonical.columns t ht _ hcolumn)
    (h.name ▸ hsame.columns t ht _ hcolumn)
  rw [htype]

theorem subtablesFor_withOverrides (hcanonical : plan.Canonical d)
    (hsame : plan.SameOverrides c.typeOverrides overrides)
    (h : subtablesFor d c plan.tables = .ok plan.subtables) :
    subtablesFor d (c.withOverrides overrides) plan.tables = .ok plan.subtables := by
  refine mapM_eq_ok_of_imp h fun ⟨a, parent⟩ _ s hs he => ?_
  obtain ⟨rfl, -⟩ := ifPlanned_eq_ok he
  have htype := Typing.valueType_withOverrides (hcanonical.values _ hs) (hsame.values _ hs)
  dsimp only at htype he ⊢
  rw [htype]
  exact he

/-- Overrides that are the same under the names in a plan leave the plan as it is, if these are
canonical. -/
theorem ofDirectory_withOverrides (hcanonical : plan.Canonical d)
    (hplan : ofDirectory d c = .ok plan) (hsame : plan.SameOverrides c.typeOverrides overrides) :
    ofDirectory d (c.withOverrides overrides) = .ok plan := by
  obtain ⟨htables, hsubtables⟩ := ofDirectory_eq_ok hplan
  have htables' : tablesFor d (c.withOverrides overrides) = .ok plan.tables :=
    mapM_eq_ok_of_imp htables fun cls _ t ht => tableFor_withOverrides hcanonical hsame ht
  rw [ofDirectory, htables']
  simp only [bind, Except.bind, subtablesFor_withOverrides hcanonical hsame hsubtables]
  rfl

end Plan

namespace Compiler

open Typing

/-- **When an alias is as good as another name.**  Two names of an attribute give the same type of a
column, and the same type of a value, exactly if each override that decides under one of them as it
is written gives what the other has; in particular if there is no such override.  The columns and
values of a plan have the types that their names give.  Where definitions keep names these are
canonical, and no override reaches the plan but under them. -/
theorem alias_types_iff {c : Compiler} {name other : String} {a : Attribute}
    (hname : c.directory.attribute? name = some a)
    (hother : c.directory.attribute? other = some a) (table : String) :
    (columnType c.directory c.config name table = columnType c.directory c.config other table ↔
      ∀ e,
        (DecidesAsWritten c.directory c.config name table e →
          (e.forTable table).columnType = columnType c.directory c.config other table) ∧
        (DecidesAsWritten c.directory c.config other table e →
          (e.forTable table).columnType = columnType c.directory c.config name table)) ∧
    (valueType c.directory c.config name table = valueType c.directory c.config other table ↔
      ∀ e,
        (DecidesAsWritten c.directory c.config name table e →
          ColumnType.valueIn (syntaxType c.config a) (e.forTable table).columnType =
            valueType c.directory c.config other table) ∧
        (DecidesAsWritten c.directory c.config other table e →
          ColumnType.valueIn (syntaxType c.config a) (e.forTable table).columnType =
            valueType c.directory c.config name table)) ∧
    ∀ plan, c.plan = .ok plan →
      plan.TypedByName c.directory c.config ∧
      ∀ docs, Directory.ofDocuments docs = .ok c.directory →
        NamesKept (docs.flatMap (·.attributes)) →
          plan.Canonical c.directory ∧
          ∀ overrides, plan.SameOverrides c.config.typeOverrides overrides →
            (c.withOverrides overrides).plan = .ok plan := by
  refine ⟨?_, ?_, fun plan hplan => ⟨Plan.typedByName_of_planned hplan, fun docs hdocs hkept => ?_⟩⟩
  · exact eq_iff_of_written (f := fun n => columnType c.directory c.config n table)
      (fun e h => h.columnType) (fun e h => h.columnType)
      (columnType_eq_of_not_written hname hother)
  · exact eq_iff_of_written (f := fun n => valueType c.directory c.config n table)
      (fun e h => h.valueType hname) (fun e h => h.valueType hother)
      (valueType_eq_of_not_written hname hother)
  · have hcanonical : plan.Canonical c.directory :=
      Plan.canonical_of_planned hdocs (Directory.exact_of_namesKept hdocs hkept) hplan
    exact ⟨hcanonical, fun overrides => Plan.ofDirectory_withOverrides hcanonical hplan⟩

/-- An attribute with an alias. -/
def mailAttribute : Attribute where
  names := ["mail", "email"]

/-- A document with a class that asks for the attribute by its alias. -/
def aliasDocument : SchemaDocument where
  attributes := [mailAttribute]
  classes := [{ names := ["person"], may := ["email"] }]

/-- The compiler of `aliasDocument` with overrides. -/
def mailTyped (overrides : List (String × DialectTypes)) : Compiler where
  config := { typeOverrides := .ofPairs overrides }
  directory := .ofDefinitions aliasDocument.attributes aliasDocument.classes

/-- An override for the table comes before one under the alias: both names then give the same type,
and the plan is the same without the override under the alias. -/
theorem alias_types_iff_mailTyped :
    let own : Dict DialectTypes := .ofPairs [("person:mail", .all (.sized "VARCHAR" 80))]
    let c := mailTyped
      [("email", .all (.plain "INT")), ("person:mail", .all (.sized "VARCHAR" 80))]
    let plan : Plan :=
      { tables := [{ name := "person", columns := bookkeeping ++ [⟨"mail", .varchar 80⟩] }] }
    c.directory.attribute? "mail" = some mailAttribute ∧
      c.directory.attribute? "email" = some mailAttribute ∧
      columnType c.directory c.config "mail" "person" =
        columnType c.directory c.config "email" "person" ∧
      c.plan = .ok plan ∧
      Directory.ofDocuments [aliasDocument] = .ok c.directory ∧
      NamesKept ([aliasDocument].flatMap (·.attributes)) ∧
      plan.SameOverrides c.config.typeOverrides own ∧
      (c.withOverrides own).plan = .ok plan := by
  intro own c plan
  have hmail : c.directory.attribute? "mail" = some mailAttribute := rfl
  have hemail : c.directory.attribute? "email" = some mailAttribute := rfl
  have hplan : c.plan = .ok plan := by
    have hvalue : c.plan.toOption = some plan := by decide +kernel
    cases hc : c.plan with
    | error => rw [hc] at hvalue; cases hvalue
    | ok p => rw [hc] at hvalue; exact congrArg Except.ok (Option.some.inj hvalue)
  have hdocs : Directory.ofDocuments [aliasDocument] = .ok c.directory := rfl
  have hkept : NamesKept ([aliasDocument].flatMap (·.attributes)) := by decide
  have hsame : plan.SameOverrides c.config.typeOverrides own := by
    refine ⟨fun t ht column hcolumn => ?_, fun s hs => by cases hs⟩
    obtain rfl := List.mem_singleton.mp ht
    obtain rfl := List.mem_singleton.mp hcolumn
    exact ⟨rfl, rfl⟩
  have hasWritten : ∀ e, DecidesAsWritten c.directory c.config "mail" "person" e →
      e = .sized "VARCHAR" 80 := by
    rintro e (h | h)
    · exact (Option.some.inj h.entry).symm
    · cases h.entry
  have hnotWritten : ∀ e, ¬ DecidesAsWritten c.directory c.config "email" "person" e := by
    rintro e (h | h)
    · cases h.entry
    · cases h.first .tableCanonical (by decide)
  obtain ⟨hcolumns, -, hplans⟩ := alias_types_iff hmail hemail "person"
  refine ⟨hmail, hemail, hcolumns.mpr fun e => ⟨fun h => ?_, fun h => absurd h (hnotWritten e)⟩,
    hplan, hdocs, hkept, hsame, ((hplans plan hplan).2 _ hdocs hkept).2 own hsame⟩
  rw [hasWritten e h]
  rfl

/-- Two names need not give the same type: an override under an alias is not found by the canonical
name, and so not in the table. -/
theorem not_alias_types :
    ¬ ∀ docs d, Directory.ofDocuments docs = .ok d → ∀ c name other a table,
      d.attribute? name = some a → d.attribute? other = some a →
        columnType d c name table = columnType d c other table ∧
          valueType d c name table = valueType d c other table := by
  intro h
  have hsame := h [aliasDocument] (mailTyped []).directory rfl
    { typeOverrides := .ofPairs [("email", .all (.plain "INT"))] } "mail" "email" mailAttribute
    "person" rfl rfl
  exact absurd hsame.1 (by decide +kernel)

/-- An override under the alias does not reach the table of a class that asks for the alias. -/
example :
    (mailTyped [("email", .all (.plain "INT"))]).plan =
      .ok { tables := [{ name := "person", columns := bookkeeping ++ [⟨"mail", .text⟩] }] } := rfl

end Compiler

end DirectoryTables
