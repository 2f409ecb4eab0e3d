import DirectoryTables.Proofs.Directory.Documents
import DirectoryTables.Proofs.Results
import DirectoryTables.Typing

/-!
# Typing — Precedence

An explicit type of an attribute in a table can be given in five places: as an override for the
table or for all tables, each under the name as it is written or under the canonical one, and in the
definition of the attribute.  The first of them with an entry for the dialect decides, and nothing
behind it is looked at; where there is none the syntax decides.

* `Typing.Source`, `Typing.given?`: the places, and what is given there.
* `Typing.Decides`: a source has an entry for the dialect, and none before it has.
* `Typing.HasColumnType`: the type of a column, one rule for each way to it.
* `Typing.columnType_precedence`: it is the type that is computed; what comes after the deciding
  source does not change it, and sources without an entry for the dialect never do.
-/

namespace DirectoryTables

/-! ### First results -/

theorem findSome?_toList {β γ : Type} (o : Option β) (g : β → Option γ) :
    o.toList.findSome? g = o.bind g := by
  cases o with
  | none => rfl
  | some b => exact List.findSome?_singleton

theorem findSome?_filterMap {α β γ : Type} (f : α → Option β) (g : β → Option γ) (xs : List α) :
    (xs.filterMap f).findSome? g = xs.findSome? fun x => (f x).bind g := by
  rw [List.filterMap_eq_flatMap_toList, findSome?_flatMap]
  simp only [findSome?_toList]

/-- The attribute without an explicit type of its own. -/
def Attribute.withoutSql (a : Attribute) : Attribute :=
  { a with sql := none }

namespace Typing

/-! ### Sources -/

/-- Where an explicit type can be given. -/
inductive Source where
  /-- An override for the table, under the name as it is written. -/
  | tableWritten
  /-- An override for the table, under the canonical name. -/
  | tableCanonical
  /-- An override for all tables, under the name as it is written. -/
  | written
  /-- An override for all tables, under the canonical name. -/
  | canonical
  /-- The definition of the attribute. -/
  | definition
  deriving DecidableEq

namespace Source

/-- The place of a source in the order in which they count. -/
def place : Source → Nat
  | tableWritten => 0
  | tableCanonical => 1
  | written => 2
  | canonical => 3
  | definition => 4

/-- The sources in order. -/
def inOrder : List Source :=
  [tableWritten, tableCanonical, written, canonical, definition]

theorem mem_inOrder (s : Source) : s ∈ inOrder := by
  cases s <;> decide

theorem pairwise_inOrder : inOrder.Pairwise (place · < place ·) := by decide

/-- The first source with a result is the one with no result before it. -/
theorem findSome?_inOrder_eq_some_iff {α : Type} {f : Source → Option α} {a : α} :
    inOrder.findSome? f = some a ↔ ∃ s, f s = some a ∧ ∀ r, place r < place s → f r = none := by
  rw [List.findSome?_eq_some_iff]
  constructor
  · rintro ⟨before, s, after, hsplit, hs, hbefore⟩
    refine ⟨s, hs, fun r hr => hbefore r ?_⟩
    obtain ⟨-, hafter, -⟩ := List.pairwise_append.mp (hsplit ▸ pairwise_inOrder)
    obtain hr' | hr' := List.mem_append.mp (hsplit ▸ r.mem_inOrder)
    · exact hr'
    · obtain rfl | hr' := List.mem_cons.mp hr'
      · exact absurd hr (Nat.lt_irrefl _)
      · exact absurd hr (Nat.lt_asymm (List.rel_of_pairwise_cons hafter hr'))
  · rintro ⟨s, hs, hfirst⟩
    obtain ⟨before, after, hsplit⟩ := List.append_of_mem s.mem_inOrder
    obtain ⟨-, -, hbefore⟩ := List.pairwise_append.mp (hsplit ▸ pairwise_inOrder)
    exact ⟨before, s, after, hsplit, hs, fun r hr => hfirst r (hbefore r hr s List.mem_cons_self)⟩

end Source

variable {d d' : Directory} {c c' : Config} {name table : String} {s : Source} {e : TypeEntry}
  {type : ColumnType} {a : Attribute}

/-- The types that a source gives. -/
def given? (d : Directory) (c : Config) (name table : String) : Source → Option DialectTypes
  | .tableWritten => c.typeOverrides.get? (table ++ ":" ++ name)
  | .tableCanonical => c.typeOverrides.get? (table ++ ":" ++ d.canonical name)
  | .written => c.typeOverrides.get? name
  | .canonical => c.typeOverrides.get? (d.canonical name)
  | .definition => (d.attribute? name).bind Attribute.sql

/-- The entry of a source for the dialect. -/
def variant? (d : Directory) (c : Config) (name table : String) (s : Source) : Option TypeEntry :=
  (given? d c name table s).bind (·.forDialect c.dialect)

/-- The source has an entry for the dialect, and none before it has. -/
structure Decides (d : Directory) (c : Config) (name table : String) (s : Source)
    (e : TypeEntry) : Prop where
  entry : variant? d c name table s = some e
  first : ∀ r, r.place < s.place → variant? d c name table r = none

theorem variant?_congr (hdialect : c'.dialect = c.dialect)
    (h : given? d' c' name table s = given? d c name table s) :
    variant? d' c' name table s = variant? d c name table s := by
  rw [variant?, variant?, h, hdialect]

/-! ### Explicit types -/

/-- A name that is canonical itself is tried once. -/
theorem findSome?_overrideNames {β : Type} (f : String → Option β) :
    (overrideNames d name).findSome? f = (f name).or (f (d.canonical name)) := by
  rw [overrideNames]
  split
  · next hcanonical => rw [hcanonical, Option.or_self, List.findSome?_singleton]
  · rw [List.findSome?_cons, List.findSome?_singleton]
    cases f name <;> rfl

theorem findSome?_explicitSources (d : Directory) (c : Config) (name table : String) :
    (explicitSources d c name table).findSome? (·.forDialect c.dialect) =
      Source.inOrder.findSome? (variant? d c name table) := by
  have hsources : Source.inOrder = [.tableWritten] ++ [.tableCanonical] ++
      ([.written] ++ [.canonical]) ++ [.definition] := rfl
  simp only [explicitSources, hsources, List.findSome?_append, findSome?_filterMap,
    findSome?_toList, findSome?_overrideNames, List.findSome?_singleton]
  rfl

/-- An explicit type is that of the entry which decides. -/
theorem explicitType?_eq_some_iff :
    explicitType? d c name table = some type ↔
      ∃ s e, Decides d c name table s e ∧ (e.forTable table).columnType = type := by
  rw [explicitType?, findSome?_explicitSources, Option.map_eq_some_iff]
  constructor
  · rintro ⟨e, he, htype⟩
    obtain ⟨s, hs, hfirst⟩ := Source.findSome?_inOrder_eq_some_iff.mp he
    exact ⟨s, e, ⟨hs, hfirst⟩, htype⟩
  · rintro ⟨s, e, hdecides, htype⟩
    refine ⟨e, Source.findSome?_inOrder_eq_some_iff.mpr ⟨s, ?_⟩, htype⟩
    exact ⟨hdecides.entry, hdecides.first⟩

theorem Decides.explicitType? (h : Decides d c name table s e) :
    explicitType? d c name table = some (e.forTable table).columnType :=
  explicitType?_eq_some_iff.mpr ⟨s, e, h, rfl⟩

theorem explicitType?_eq_none_iff :
    explicitType? d c name table = none ↔ ∀ s, variant? d c name table s = none := by
  rw [explicitType?, findSome?_explicitSources, Option.map_eq_none_iff, List.findSome?_eq_none_iff]
  exact ⟨fun h s => h s s.mem_inOrder, fun h s _ => h s⟩

theorem explicitType?_congr
    (h : ∀ s, variant? d' c' name table s = variant? d c name table s) :
    explicitType? d' c' name table = explicitType? d c name table := by
  have hentries : variant? d' c' name table = variant? d c name table := funext h
  rw [explicitType?, explicitType?, findSome?_explicitSources, findSome?_explicitSources, hentries]

/-! ### Types of columns -/

/-- The type of an attribute as a column of a table. -/
inductive HasColumnType (d : Directory) (c : Config) (name table : String) : ColumnType → Prop
  /-- The source that decides gives the type: that of its entry for the table, or else its own. -/
  | explicit {s : Source} {e : TypeEntry} (h : Decides d c name table s e) :
      HasColumnType d c name table (e.forTable table).columnType
  /-- Without a source the syntax gives the type of a single value. -/
  | single {a : Attribute} (h : ∀ s, variant? d c name table s = none)
      (ha : d.attribute? name = some a) (hsingle : a.multivalued = false) :
      HasColumnType d c name table (syntaxType c a)
  /-- Several values have the collection type of the dialect. -/
  | several {a : Attribute} (h : ∀ s, variant? d c name table s = none)
      (ha : d.attribute? name = some a) (hseveral : a.multivalued = true) :
      HasColumnType d c name table (c.backend.collectionType (syntaxType c a))
  /-- A name without a definition is text. -/
  | undefined (h : ∀ s, variant? d c name table s = none) (ha : d.attribute? name = none) :
      HasColumnType d c name table .text

theorem HasColumnType.eq (h : HasColumnType d c name table type) :
    type = columnType d c name table := by
  rw [columnType]
  cases h with
  | explicit h => rw [h.explicitType?]
  | single h ha hsingle => simp [explicitType?_eq_none_iff.mpr h, ha, hsingle]
  | several h ha hseveral => simp [explicitType?_eq_none_iff.mpr h, ha, hseveral]
  | undefined h ha => simp [explicitType?_eq_none_iff.mpr h, ha]

theorem hasColumnType_columnType (d : Directory) (c : Config) (name table : String) :
    HasColumnType d c name table (columnType d c name table) := by
  cases hexplicit : explicitType? d c name table with
  | some type =>
    obtain ⟨s, e, h, rfl⟩ := explicitType?_eq_some_iff.mp hexplicit
    exact (HasColumnType.explicit h).eq ▸ .explicit h
  | none =>
    have h := explicitType?_eq_none_iff.mp hexplicit
    cases ha : d.attribute? name with
    | none => exact (HasColumnType.undefined h ha).eq ▸ .undefined h ha
    | some a =>
      cases hmulti : a.multivalued with
      | false => exact (HasColumnType.single h ha hmulti).eq ▸ .single h ha hmulti
      | true => exact (HasColumnType.several h ha hmulti).eq ▸ .several h ha hmulti

/-! ### Changes that do not matter -/

/-- Sources are added, and none of them has an entry for the dialect.  All else that bears on the
type of the name stays. -/
structure AddsNoEntry (d : Directory) (c : Config) (d' : Directory) (c' : Config)
    (name table : String) : Prop where
  dialect : c'.dialect = c.dialect
  syntaxTypes : c'.syntaxTypes = c.syntaxTypes
  definition : (d'.attribute? name).map Attribute.withoutSql =
    (d.attribute? name).map Attribute.withoutSql
  given : ∀ s, given? d' c' name table s = given? d c name table s ∨
    given? d c name table s = none ∧
      ∀ types, given? d' c' name table s = some types → types.forDialect c.dialect = none

theorem AddsNoEntry.variant? (h : AddsNoEntry d c d' c' name table) (s : Source) :
    Typing.variant? d' c' name table s = Typing.variant? d c name table s := by
  obtain hsame | ⟨hnone, hadded⟩ := h.given s
  · exact variant?_congr h.dialect hsame
  · rw [Typing.variant?, Typing.variant?, hnone, Option.bind_none, h.dialect,
      Option.bind_eq_none_iff]
    exact hadded

theorem syntaxType_congr {a' : Attribute} (hdialect : c'.dialect = c.dialect)
    (hsyntaxes : c'.syntaxTypes = c.syntaxTypes) (ha : a'.withoutSql = a.withoutSql) :
    syntaxType c' a' = syntaxType c a := by
  have hid : a'.syntaxId = a.syntaxId := (congrArg Attribute.syntaxId ha :)
  have hsize : a'.size = a.size := (congrArg Attribute.size ha :)
  simp only [syntaxType, syntaxEntry?, syntaxes, hid, hsize, hsyntaxes, hdialect]

theorem collectionType_congr (hdialect : c'.dialect = c.dialect) (element : ColumnType) :
    c'.backend.collectionType element = c.backend.collectionType element := by
  simp only [Backend.collectionType, Config.backend, hdialect]

theorem AddsNoEntry.columnType (h : AddsNoEntry d c d' c' name table) :
    Typing.columnType d' c' name table = Typing.columnType d c name table := by
  rw [Typing.columnType, Typing.columnType, explicitType?_congr h.variant?]
  cases explicitType? d c name table with
  | some type => rfl
  | none =>
    have hattribute := h.definition
    cases ha : d.attribute? name with
    | none =>
      rw [ha, Option.map_none, Option.map_eq_none_iff] at hattribute
      rw [hattribute]
    | some a =>
      rw [ha, Option.map_some, Option.map_eq_some_iff] at hattribute
      obtain ⟨a', ha', hsame⟩ := hattribute
      have hmulti : a'.multivalued = a.multivalued := (congrArg Attribute.multivalued hsame :)
      simp only [ha', hmulti, collectionType_congr h.dialect,
        syntaxType_congr h.dialect h.syntaxTypes hsame]

/-- **The order of explicit types.**  The first source with an entry for the dialect decides, by the
entry for the table if it has one; where there is none the syntax does.  The type then stays,
whatever becomes of later sources, of the syntaxes and of the definition, as long as the sources up
to the deciding one stay.  And it stays where sources without an entry for the dialect are added. -/
theorem columnType_precedence (d : Directory) (c : Config) (name table : String) :
    (∀ type, HasColumnType d c name table type ↔ type = columnType d c name table) ∧
    (∀ s e, Decides d c name table s e → ∀ d' c', c'.dialect = c.dialect →
      (∀ r, r.place ≤ s.place → given? d' c' name table r = given? d c name table r) →
        columnType d' c' name table = columnType d c name table) ∧
    ∀ d' c', AddsNoEntry d c d' c' name table →
      columnType d' c' name table = columnType d c name table := by
  refine ⟨fun type => ⟨HasColumnType.eq, fun h => h ▸ hasColumnType_columnType d c name table⟩,
    fun s e hdecides d' c' hdialect hgiven => ?_, fun d' c' h => h.columnType⟩
  have hentry : ∀ r, r.place ≤ s.place →
      variant? d' c' name table r = variant? d c name table r :=
    fun r hr => variant?_congr hdialect (hgiven r hr)
  have hdecides' : Decides d' c' name table s e :=
    ⟨(hentry s (Nat.le_refl _)).trans hdecides.entry,
      fun r hr => (hentry r (Nat.le_of_lt hr)).trans (hdecides.first r hr)⟩
  exact (HasColumnType.explicit hdecides').eq.symm.trans (HasColumnType.explicit hdecides).eq

/-- An attribute of two names. -/
def loginAttribute : Attribute where
  names := ["uid", "login"]
  sql := some (.all (.plain "TEXT"))

/-- Characters, more of them in one table. -/
def loginEntry : TypeEntry :=
  (TypeEntry.sized "VARCHAR" 80).withTable "person" (.sized "VARCHAR" 90)

/-- Types for the attribute under both names; those for the table are for another dialect. -/
def loginConfig : Config where
  dialect := .pgsql
  typeOverrides := .ofPairs
    [("person:login", { spanner := some (.sized "STRING" 70) }), ("uid", .all loginEntry)]

/-- The canonical name decides.  The attribute may then have several values and no type of its own,
and one more type for another dialect may be given. -/
theorem columnType_precedence_login :
    let d : Directory := .ofDefinitions [loginAttribute] []
    let d' : Directory :=
      .ofDefinitions [{ loginAttribute with multivalued := true, sql := none }] []
    let c' := loginConfig.withTypeOverride "person:uid" { spanner := some (.plain "JSON") }
    Decides d loginConfig "login" "person" .canonical loginEntry ∧
      columnType d loginConfig "login" "person" = .varchar 90 ∧
      (∀ r, r.place ≤ Source.canonical.place →
        given? d' loginConfig "login" "person" r = given? d loginConfig "login" "person" r) ∧
      columnType d' loginConfig "login" "person" = columnType d loginConfig "login" "person" ∧
      AddsNoEntry d loginConfig d c' "login" "person" ∧
      columnType d c' "login" "person" = columnType d loginConfig "login" "person" := by
  intro d d' c'
  have hdecides : Decides d loginConfig "login" "person" .canonical loginEntry := by
    refine ⟨rfl, fun r hr => ?_⟩
    cases r with
    | tableWritten | tableCanonical | written => rfl
    | canonical | definition => exact absurd hr (by decide)
  have hgiven : ∀ r, r.place ≤ Source.canonical.place →
      given? d' loginConfig "login" "person" r = given? d loginConfig "login" "person" r := by
    intro r hr
    cases r with
    | tableWritten | tableCanonical | written | canonical => rfl
    | definition => exact absurd hr (by decide)
  have hadds : AddsNoEntry d loginConfig d c' "login" "person" := by
    refine ⟨rfl, rfl, rfl, fun s => ?_⟩
    cases s with
    | tableWritten | written | canonical | definition => exact .inl rfl
    | tableCanonical =>
      refine .inr ⟨rfl, fun types htypes => ?_⟩
      cases htypes
      rfl
  obtain ⟨-, hlater, hadded⟩ := columnType_precedence d loginConfig "login" "person"
  exact ⟨hdecides, by decide +kernel, hgiven,
    hlater .canonical loginEntry hdecides d' loginConfig rfl hgiven, hadds, hadded d c' hadds⟩

end Typing

end DirectoryTables
