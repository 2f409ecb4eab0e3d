import DirectoryTables.Proofs.Bootstrap.Fresh
import DirectoryTables.Proofs.Bootstrap.Statements
import DirectoryTables.Proofs.Plan.IndexClashes
import DirectoryTables.Proofs.Plan.IndexKeys

/-!
# Bootstrap — Keys

Which columns the statements of a bootstrap are keyed on, by the types they are planned with.

A selected column of a table is looked at before it is indexed: a text column gets a prefix on
MySQL, a JSON column no index of its own.  Other keys are made without a look at the types: the
`uid` of the person table, a column that has the name of a shadow column, and the primary key of a
subtable.  The values of a subtable are indexed whatever they are, texts by a prefix.  So each of
the two results below is an `iff`, with a condition on those columns; a column counts as one of the
table or subtable that the statement is made for.

* `text_keys_prefixed_iff`: when every text column in a key has a prefix on MySQL.
* `json_columns_unkeyed_iff`: when no index is keyed on a JSON column.
-/

namespace DirectoryTables

namespace Statement

/-- Every text column in a key of the statement has a prefix there. -/
def PrefixesText (s : Statement) (columns : List Column) : Prop :=
  ∀ part column, s.Keys columns part column → column.type.isText = true → part.prefixLength ≠ none

/-- If the statement creates an index, it is keyed on no column with JSON or an array. -/
def SparesJson (s : Statement) (columns : List Column) : Prop :=
  ∀ i, s = .createIndex i → ∀ part column, s.Keys columns part column →
    column.type.isJsonCapable = false

variable {b : Backend} {s : Statement} {columns : List Column}

theorem keys_fitted_iff {part : KeyPart} {column : Column} :
    (s.fitted b).Keys columns part column ↔ s.Keys columns part column := by
  have hparts : (s.fitted b).keyParts = s.keyParts := by cases s <;> rfl
  exact ⟨fun h => ⟨hparts ▸ h.keyed, h.listed, h.named⟩,
    fun h => ⟨hparts ▸ h.keyed, h.listed, h.named⟩⟩

theorem prefixesText_fitted_iff : (s.fitted b).PrefixesText columns ↔ s.PrefixesText columns :=
  forall₂_congr fun _ _ => imp_congr_left keys_fitted_iff

theorem prefixesText_addColumn (a : AddColumn) : (addColumn a).PrefixesText columns :=
  fun _ _ h => absurd h.keyed List.not_mem_nil

theorem sparesJson_createTable (t : CreateTable) : (createTable t).SparesJson columns :=
  fun _ e => nomatch e

theorem sparesJson_addColumn (a : AddColumn) : (addColumn a).SparesJson columns :=
  fun _ e => nomatch e

theorem sparesJson_createIndex_iff {i : CreateIndex} :
    (createIndex i).SparesJson columns ↔ ∀ part column, (createIndex i).Keys columns part column →
      column.type.isJsonCapable = false :=
  ⟨fun h => h i rfl, fun h _ _ => h⟩

theorem sparesJson_fitted_iff : (s.fitted b).SparesJson columns ↔ s.SparesJson columns := by
  cases s with
  | createTable | addColumn => exact Iff.rfl
  | createIndex i =>
    refine sparesJson_createIndex_iff.trans (Iff.trans ?_ sparesJson_createIndex_iff.symm)
    exact forall₂_congr fun _ _ => imp_congr_left (keys_fitted_iff (s := createIndex i))

/-- For what indexes a table it does not matter that only indexes are asked for. -/
theorem Indexes.sparesJson_iff {table : String} (h : s.Indexes table) :
    s.SparesJson columns ↔ ∀ part column, s.Keys columns part column →
      column.type.isJsonCapable = false := by
  cases s with
  | createTable => exact h.elim
  | addColumn => exact iff_of_true (fun _ e => by cases e) fun _ _ hkeys => by cases hkeys.keyed
  | createIndex i => exact sparesJson_createIndex_iff

end Statement

/-- The column that identifies the rows of a planned table holds short texts. -/
theorem Plan.type_eq_of_lower_docId {d : Directory} {c : Config} {plan : Plan}
    (h : ofDirectory d c = .ok plan) {t : Table} (ht : t ∈ plan.tables) {column : Column}
    (hcolumn : column ∈ t.columns) (e : Text.lower column.name = Text.lower docId) :
    column.type = .varchar 64 := by
  obtain ⟨cls, -, hcls⟩ := exists_of_mem_mapM (ofDirectory_eq_ok h).1 ht
  have hdocId : ⟨docId, .varchar 64⟩ ∈ t.columns := by
    obtain ⟨names, -, rfl⟩ := tableFor_eq_ok hcls
    exact List.mem_append_left _ List.mem_cons_self
  rw [(hasDistinctColumns_tableFor hcls).eq hcolumn hdocId e]

theorem Subtable.eq_values_or_type_eq {s : Subtable} {column : Column} (h : column ∈ s.columns) :
    column = s.values ∨ column.type = .varchar 64 := by
  simp only [columns, List.mem_cons, List.not_mem_nil, or_false] at h
  obtain rfl | rfl | rfl := h
  · exact .inr rfl
  · exact .inr rfl
  · exact .inl rfl

theorem Subtable.values_mem_columns (s : Subtable) : s.values ∈ s.columns := by
  simp [columns]

namespace Compiler

open Indexing

variable {c : Compiler} {plan : Plan} {t : Table} {s : Subtable}

/-- No column of the kind has the name of a shadow column of its table, letter case aside. -/
def ShadowsSpare (c : Compiler) (plan : Plan) (kind : ColumnType → Bool) : Prop :=
  ∀ t ∈ plan.tables, ∀ name ∈ shadowNames c.directory c.config c.policy t,
    ∀ column ∈ t.columns, Text.lower column.name = Text.lower name → kind column.type = false

/-- The `uid` of the person table is not of the kind. -/
def UidSpares (c : Compiler) (plan : Plan) (kind : ColumnType → Bool) : Prop :=
  ∀ t ∈ plan.tables, t.name = c.config.personTable →
    ∀ column ∈ t.column? uid, kind column.type = false

instance (c : Compiler) (plan : Plan) (kind : ColumnType → Bool) :
    Decidable (c.ShadowsSpare plan kind) :=
  inferInstanceAs (Decidable (∀ t ∈ plan.tables, _))

instance (c : Compiler) (plan : Plan) (kind : ColumnType → Bool) :
    Decidable (c.UidSpares plan kind) :=
  inferInstanceAs (Decidable (∀ t ∈ plan.tables, _))

/-! ### Text columns -/

/-- Of a table only the column that is declared unique is keyed without a look at its type. -/
theorem prefixesText_create_iff (hplan : c.plan = .ok plan) (hmysql : c.config.dialect = .mysql)
    (ht : t ∈ plan.tables) :
    (Statement.createTable (t.create c.config.backend c.config.personTable)).PrefixesText
        t.columns ↔
      (t.name = c.config.personTable → ∀ column ∈ t.column? uid, column.type.isText = false) := by
  have hinline : c.config.backend.hasInlineUnique = true := by
    simp [Backend.hasInlineUnique, Config.backend, hmysql]
  constructor
  · intro h hperson column hcolumn
    have hpart : { name := column.name } ∈ (Statement.createTable
        (t.create c.config.backend c.config.personTable)).keyParts := by
      simp [Statement.keyParts, Table.create, hinline, hperson, Option.mem_def.mp hcolumn]
    have hlisted : column ∈ t.columns := List.mem_of_find?_eq_some hcolumn
    exact Bool.eq_false_iff.mpr fun htext => h _ column ⟨hpart, hlisted, rfl⟩ htext rfl
  · intro h part column hkeys htext
    obtain ⟨name, hname, rfl⟩ := List.mem_map.mp hkeys.keyed
    obtain hname | hname := List.mem_append.mp hname
    · obtain rfl := List.mem_singleton.mp hname
      rw [Plan.type_eq_of_lower_docId hplan ht hkeys.listed hkeys.named] at htext
      cases htext
    · rw [Table.create, hinline, Bool.true_and] at hname
      split at hname
      · next hperson =>
        obtain ⟨column', hcolumn', rfl⟩ := List.mem_map.mp hname
        have hfound := Option.mem_toList.mp hcolumn'
        have hlisted : column' ∈ t.columns := List.mem_of_find?_eq_some hfound
        obtain rfl := (Plan.hasDistinctColumns_of_planned hplan ht).eq hkeys.listed hlisted
          hkeys.named
        rw [h (eq_of_beq hperson) column hfound] at htext
        cases htext
      · cases hname

/-- Of a subtable the columns of the primary key hold short texts, unless one is that of the
values. -/
theorem prefixesText_subtable_iff :
    (Statement.createTable s.create).PrefixesText s.columns ↔
      (Text.listsName [docId, rowId] s.valueColumn = true → s.valueType.isText = false) := by
  constructor
  · intro h hname
    obtain ⟨name, hname, e⟩ := Text.listsName_iff.mp hname
    have hpart : { name } ∈ (Statement.createTable s.create).keyParts :=
      List.mem_map_of_mem (List.mem_append_left _ hname)
    exact Bool.eq_false_iff.mpr fun htext =>
      h _ s.values ⟨hpart, s.values_mem_columns, e.symm⟩ htext rfl
  · intro h part column hkeys htext
    obtain ⟨name, hname, rfl⟩ := List.mem_map.mp hkeys.keyed
    obtain rfl | hshort := Subtable.eq_values_or_type_eq hkeys.listed
    · have hlists : Text.listsName [docId, rowId] s.valueColumn = true :=
        Text.listsName_iff.mpr ⟨name, by simpa [Subtable.create] using hname, hkeys.named.symm⟩
      exact absurd htext (Bool.eq_false_iff.mp (h hlists))
    · rw [hshort] at htext
      cases htext

/-- The values of a subtable are indexed by a prefix where they are texts. -/
theorem prefixesText_valueIndex (hmysql : c.config.dialect = .mysql) (s : Subtable) :
    (Statement.createIndex (s.index c.config.backend c.config.textPrefixLength)).PrefixesText
      s.columns := by
  intro part column hkeys htext
  obtain rfl := List.mem_singleton.mp hkeys.keyed
  obtain rfl | hshort := Subtable.eq_values_or_type_eq hkeys.listed
  · have hprefix := ((isKeyPart_keyPart c.config s.values).prefixLength _).mpr ⟨hmysql, htext, rfl⟩
    exact Option.ne_none_iff_exists'.mpr ⟨_, hprefix⟩
  · rw [hshort] at htext
    cases htext

/-- Of what the index plan of a table is keyed on, only the shadow columns are not looked at. -/
theorem prefixesText_forTable_iff (hmysql : c.config.dialect = .mysql)
    (h : t.HasDistinctColumns) :
    (∀ statement ∈ forTable c.directory c.config c.policy t, statement.PrefixesText t.columns) ↔
      ∀ name ∈ shadowNames c.directory c.config c.policy t, ∀ column ∈ t.columns,
        Text.lower column.name = Text.lower name → column.type.isText = false := by
  refine (forall_keys_forTable_iff h).trans ⟨fun ⟨_, hshadows, _⟩ => ?_, fun hshadows => ?_⟩
  · intro name hname column hcolumn e
    exact Bool.eq_false_iff.mpr fun htext => hshadows name hname column hcolumn e htext rfl
  · refine ⟨fun column _ _ _ htext => ?_, fun name hname column hcolumn e htext => ?_, ?_⟩
    · have hprefix := ((isKeyPart_keyPart c.config column).prefixLength _).mpr ⟨hmysql, htext, rfl⟩
      exact Option.ne_none_iff_exists'.mpr ⟨_, hprefix⟩
    · rw [hshadows name hname column hcolumn e] at htext
      cases htext
    · rw [hmysql]
      exact fun hspanner => by cases hspanner

/-- **When text columns are keyed by prefixes.**  What a bootstrap can hand to a session is known
from the plan.  On MySQL every key in it has a prefix where it names a text column, exactly if the
`uid` of the person table is no text column, no text column has the name of a shadow column of its
table, and no text values of a subtable are kept in a column by the name of one of its primary
key. -/
theorem text_keys_prefixed_iff (hplan : c.plan = .ok plan) (hmysql : c.config.dialect = .mysql) :
    (∀ statement, (∃ columns, c.Issues plan columns statement) ↔
      ∃ (σ τ : Type) (session : Session σ) (log : Log τ) (s : σ) (t : τ),
        statement ∈ c.issued session log s t) ∧
    ((∀ columns statement, c.Issues plan columns statement → statement.PrefixesText columns) ↔
      c.UidSpares plan ColumnType.isText ∧ c.ShadowsSpare plan ColumnType.isText ∧
        ∀ s ∈ plan.subtables, Text.listsName [docId, rowId] s.valueColumn = true →
          s.valueType.isText = false) := by
  refine ⟨fun statement => issues_iff hplan, forall_issues_iff.trans ?_⟩
  have hindexes : ∀ t ∈ plan.tables, _ := fun t ht =>
    prefixesText_forTable_iff hmysql (Plan.hasDistinctColumns_of_planned hplan ht)
  constructor
  · rintro ⟨htables, hsubtables⟩
    refine ⟨fun t ht => (prefixesText_create_iff hplan hmysql ht).mp (htables t ht).1,
      fun t ht => (hindexes t ht).mp fun s hs => ?_,
      fun s hs => prefixesText_subtable_iff.mp (hsubtables s hs).1⟩
    exact Statement.prefixesText_fitted_iff.mp ((htables t ht).2.2 s hs)
  · rintro ⟨huid, hshadows, hsubtables⟩
    refine ⟨fun t ht => ⟨(prefixesText_create_iff hplan hmysql ht).mpr (huid t ht),
      fun _ _ => Statement.prefixesText_addColumn _, fun s hs => ?_⟩, fun s hs => ?_⟩
    · exact Statement.prefixesText_fitted_iff.mpr ((hindexes t ht).mpr (hshadows t ht) s hs)
    · exact ⟨prefixesText_subtable_iff.mpr (hsubtables s hs), Statement.prefixesText_addColumn _,
        Statement.prefixesText_fitted_iff.mpr (prefixesText_valueIndex hmysql s)⟩

theorem text_keys_prefixed_iff_indexedEntries :
    indexedEntries.plan = .ok Plan.sharedMailPlan ∧ indexedEntries.config.dialect = .mysql ∧
      ∀ columns statement, indexedEntries.Issues Plan.sharedMailPlan columns statement →
        statement.PrefixesText columns := by
  have hplan : indexedEntries.plan = .ok Plan.sharedMailPlan := rfl
  exact ⟨hplan, rfl, (text_keys_prefixed_iff hplan rfl).2.mpr ⟨by decide, by decide, by decide⟩⟩

/-- A document with the person class and its `uid`, which has no size. -/
def uidDocument (multivalued : Bool) : SchemaDocument where
  attributes := [{ names := ["uid"], multivalued }]
  classes := [{ names := ["gluuPerson"], may := ["uid"] }]

/-- The compiler of `uidDocument` for a dialect. -/
def uidPersons (dialect : Dialect) (multivalued : Bool) : Compiler where
  config := { dialect }
  directory :=
    .ofDefinitions (uidDocument multivalued).attributes (uidDocument multivalued).classes

/-- The table of `uidDocument`. -/
def uidTable (type : ColumnType) : Table where
  name := "gluuPerson"
  columns := bookkeeping ++ [⟨"uid", type⟩]

/-- A text column can be keyed without a prefix: the `uid` of the person table, which is declared
unique. -/
theorem not_text_keys_prefixed :
    ¬ ∀ docs (c : Compiler) plan t statement, Directory.ofDocuments docs = .ok c.directory →
      c.config.dialect = .mysql → c.plan = .ok plan → t ∈ plan.tables →
        statement ∈ c.issued Database.session Log.memory {} [] → statement.table = t.name →
          statement.PrefixesText t.columns := by
  intro h
  have hplan : (uidPersons .mysql false).plan = .ok { tables := [uidTable .text] } := rfl
  have hissued : .createTable
      ((uidTable .text).create (uidPersons .mysql false).config.backend "gluuPerson") ∈
      (uidPersons .mysql false).issued Database.session Log.memory {} [] :=
    List.mem_singleton_self _
  have hprefixes := h [uidDocument false] (uidPersons .mysql false) _ _ _ rfl rfl hplan
    (List.mem_singleton_self _) hissued rfl
  have hkeys : (Statement.createTable
      ((uidTable .text).create (uidPersons .mysql false).config.backend "gluuPerson")).Keys
      (uidTable .text).columns { name := "uid" } ⟨"uid", .text⟩ := ⟨by decide, by decide, rfl⟩
  exact hprefixes _ _ hkeys rfl rfl

/-! ### JSON columns -/

/-- The values of a subtable are indexed whatever they are. -/
theorem sparesJson_valueIndex_iff {b : Backend} {n : UInt32} :
    (Statement.createIndex (s.index b n)).SparesJson s.columns ↔
      s.valueType.isJsonCapable = false := by
  rw [Statement.sparesJson_createIndex_iff]
  constructor
  · exact fun h => h _ s.values ⟨List.mem_singleton_self _, s.values_mem_columns, rfl⟩
  · intro h part column hkeys
    obtain rfl | hshort := Subtable.eq_values_or_type_eq hkeys.listed
    · exact h
    · rw [hshort]
      rfl

theorem sparesJson_forTable_iff (h : t.HasDistinctColumns) :
    (∀ statement ∈ forTable c.directory c.config c.policy t, statement.SparesJson t.columns) ↔
      (∀ name ∈ shadowNames c.directory c.config c.policy t, ∀ column ∈ t.columns,
        Text.lower column.name = Text.lower name → column.type.isJsonCapable = false) ∧
      (c.config.dialect = .spanner → t.name = c.config.personTable → ∀ column ∈ t.column? uid,
        column.type.isJsonCapable = false) := by
  have hsparing : (∀ statement ∈ forTable c.directory c.config c.policy t,
      statement.SparesJson t.columns) ↔
      ∀ statement ∈ forTable c.directory c.config c.policy t, ∀ part column,
        statement.Keys t.columns part column → column.type.isJsonCapable = false :=
    forall₂_congr fun _ hs => (indexes_of_mem_forTable hs).sparesJson_iff
  rw [hsparing, forall_keys_forTable_iff h (P := fun _ column => column.type.isJsonCapable = false)]
  exact and_iff_right fun _ _ _ htype => htype

/-- **When JSON columns are not keyed.**  What a bootstrap can hand to a session is known from the
plan.  No index in it is keyed on a column with JSON or an array, exactly if no subtable has such
values, the `uid` of the person table is no such column on Spanner, and no such column has the name
of a shadow column of its table. -/
theorem json_columns_unkeyed_iff (hplan : c.plan = .ok plan) :
    (∀ statement, (∃ columns, c.Issues plan columns statement) ↔
      ∃ (σ τ : Type) (session : Session σ) (log : Log τ) (s : σ) (t : τ),
        statement ∈ c.issued session log s t) ∧
    ((∀ columns statement, c.Issues plan columns statement → statement.SparesJson columns) ↔
      (∀ s ∈ plan.subtables, s.valueType.isJsonCapable = false) ∧
        (c.config.dialect = .spanner → c.UidSpares plan ColumnType.isJsonCapable) ∧
        c.ShadowsSpare plan ColumnType.isJsonCapable) := by
  refine ⟨fun statement => issues_iff hplan, forall_issues_iff.trans ?_⟩
  have hindexes : ∀ t ∈ plan.tables, _ := fun t ht =>
    sparesJson_forTable_iff (c := c) (Plan.hasDistinctColumns_of_planned hplan ht)
  constructor
  · rintro ⟨htables, hsubtables⟩
    have hsparing := fun t ht => (hindexes t ht).mp fun s hs =>
      Statement.sparesJson_fitted_iff.mp ((htables t ht).2.2 s hs)
    refine ⟨fun s hs => ?_, fun hspanner t ht => (hsparing t ht).2 hspanner,
      fun t ht => (hsparing t ht).1⟩
    exact sparesJson_valueIndex_iff.mp (Statement.sparesJson_fitted_iff.mp (hsubtables s hs).2.2)
  · rintro ⟨hvalues, huid, hshadows⟩
    refine ⟨fun t ht => ⟨Statement.sparesJson_createTable _,
        fun _ _ => Statement.sparesJson_addColumn _, fun s hs => ?_⟩,
      fun s hs => ⟨Statement.sparesJson_createTable _, Statement.sparesJson_addColumn _, ?_⟩⟩
    · have hsparing := (hindexes t ht).mpr
        ⟨hshadows t ht, fun hspanner => huid hspanner t ht⟩
      exact Statement.sparesJson_fitted_iff.mpr (hsparing s hs)
    · exact Statement.sparesJson_fitted_iff.mpr (sparesJson_valueIndex_iff.mpr (hvalues s hs))

/-- The mail addresses are in a JSON column, and only its shadow columns are indexed. -/
theorem json_columns_unkeyed_iff_shadowedMail :
    (shadowedMail []).plan = .ok { tables := [mailTable []] } ∧
      ∀ columns statement, (shadowedMail []).Issues { tables := [mailTable []] } columns statement →
        statement.SparesJson columns := by
  have hplan : (shadowedMail []).plan = .ok { tables := [mailTable []] } := rfl
  exact ⟨hplan, (json_columns_unkeyed_iff hplan).2.mpr ⟨by decide, by decide, by decide⟩⟩

/-- An index can be keyed on an array: the unique one of the person table. -/
theorem not_json_columns_unkeyed :
    ¬ ∀ docs (c : Compiler) plan t statement, Directory.ofDocuments docs = .ok c.directory →
      c.plan = .ok plan → t ∈ plan.tables →
        statement ∈ c.issued Database.session Log.memory {} [] → statement.table = t.name →
          statement.SparesJson t.columns := by
  intro h
  have hplan : (uidPersons .spanner true).plan = .ok { tables := [uidTable (.array .text)] } := rfl
  have hissued : .createIndex (.unique "gluuPerson_unique_uuid" "gluuPerson" "uid") ∈
      (uidPersons .spanner true).issued Database.session Log.memory {} [] :=
    List.mem_cons_of_mem _ (List.mem_singleton_self _)
  have hspares := h [uidDocument true] (uidPersons .spanner true) _ _ _ rfl hplan
    (List.mem_singleton_self _) hissued rfl
  have hkeys : (Statement.createIndex
      (.unique "gluuPerson_unique_uuid" "gluuPerson" "uid")).Keys
      (uidTable (.array .text)).columns { name := "uid" } ⟨"uid", .array .text⟩ :=
    ⟨by decide, by decide, rfl⟩
  exact absurd (hspares _ rfl _ _ hkeys) (by decide)

end Compiler

end DirectoryTables
