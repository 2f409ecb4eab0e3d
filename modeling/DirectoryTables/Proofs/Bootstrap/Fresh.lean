import DirectoryTables.Proofs.Bootstrap.Objects
import DirectoryTables.Proofs.Bootstrap.Unique

/-!
# Bootstrap — Fresh

Whether a bootstrap of an empty database issues its whole index plan.  A statement is skipped when
its object is there, and the only objects that are there are those that the plan itself makes.

* A shadow column is skipped when the plan has another column of its name
  (`Compiler.ShadowsApart`); its index is then one of that column.
* An index is skipped when its table has another one of its fitted name (`Compiler.IndexesApart`).
  None is where names are short enough.
* `Compiler.skips_nothing_iff`: nothing is skipped exactly if neither is the case.
* `Compiler.not_skips_nothing`: a shadow column can be skipped.
-/

namespace DirectoryTables

/-- The plan has a column of the name for the table, letter case aside: the table has it, or it is
the column of the values of a subtable by the name of the table. -/
def Plan.HasColumn (plan : Plan) (t : Table) (name : String) : Prop :=
  (∃ column ∈ t.columns, Text.lower column.name = Text.lower name) ∨
    ∃ s ∈ plan.subtables, s.name = t.name ∧ Text.lower s.valueColumn = Text.lower name

instance (plan : Plan) (t : Table) (name : String) : Decidable (plan.HasColumn t name) :=
  inferInstanceAs (Decidable (_ ∨ _))

namespace Compiler

open Bootstrap Indexing

variable {τ : Type} {c : Compiler} {plan : Plan} {t : Table} {start c₁ c₂ : Catalog}
  {ss₁ ss₂ : List Statement} {name : String}

/-- The plan has no column by the name of a shadow column of the table. -/
def ShadowsApart (c : Compiler) (plan : Plan) : Prop :=
  ∀ t ∈ plan.tables, ∀ name ∈ shadowNames c.directory c.config c.policy t, ¬ plan.HasColumn t name

instance (c : Compiler) (plan : Plan) : Decidable (c.ShadowsApart plan) :=
  inferInstanceAs (Decidable (∀ t ∈ plan.tables, _))

/-- No two names of indexes of a table coincide once they are fitted. -/
def IndexesApart (c : Compiler) (plan : Plan) : Prop :=
  ∀ t ∈ plan.tables, ∀ x ∈ indexNames c.directory c.config c.policy t,
    ∀ y ∈ indexNames c.directory c.config c.policy t, ¬ c.config.backend.Coincide x y

/-! ### Before the indexes -/

/-- A column that the step of a table makes is one of the table. -/
theorem of_makesColumn_table {b : Backend} {cfg : Config} {cat : Catalog} {issued : Statement}
    {table : String} (h : issued ∈ (Step.table t).statements b cfg cat)
    (hmade : issued.MakesColumn table name) :
    t.name = table ∧ ∃ column ∈ t.columns, Text.lower column.name = Text.lower name := by
  obtain ⟨-, column, hcolumn, rfl⟩ | ⟨-, rfl⟩ := Step.mem_statements_table.mp h
  · exact ⟨hmade.1, column, List.mem_of_mem_filter hcolumn, hmade.2⟩
  · obtain ⟨htable, made, hmem, hname⟩ := hmade
    obtain ⟨column, hcolumn, rfl⟩ := List.mem_map.mp hmem
    exact ⟨htable, column, hcolumn, hname⟩

/-- A column that the step of a subtable makes is made with the subtable, or is the one of its
values. -/
theorem of_makesColumn_subtable {b : Backend} {cfg : Config} {cat : Catalog} {issued : Statement}
    {s : Subtable} {table : String} (h : issued ∈ (Step.subtable s).statements b cfg cat)
    (hmade : issued.MakesColumn table name) :
    issued.createdTable? = some table ∨
      s.name = table ∧ Text.lower s.valueColumn = Text.lower name := by
  obtain ⟨-, column, hcolumn, rfl⟩ | ⟨-, rfl | rfl⟩ := Step.mem_statements_subtable.mp h
  · obtain rfl := List.mem_singleton.mp (List.mem_of_mem_filter hcolumn)
    exact .inr hmade
  · exact .inl (congrArg some hmade.1)
  · exact hmade.elim

/-- Once the tables and subtables of a plan are made in an empty database, a planned table has the
columns that the plan has for it. -/
theorem hasColumn_of_stages_iff (hplan : c.plan = .ok plan)
    (hnames : (plan.tables.map Table.name).Nodup)
    (h₁ : Pass c.config.backend c.config (plan.tables.map Step.table) .empty ss₁ c₁)
    (h₂ : Pass c.config.backend c.config (plan.subtables.map Step.subtable) c₁ ss₂ c₂)
    (ht : t ∈ plan.tables) : c₂.hasColumn t.name name = true ↔ plan.HasColumn t name := by
  have htables : ∀ t ∈ plan.tables, (Step.table t).Settled c.config.backend c₁ := fun t ht =>
    settled_of_tables hplan h₁ ht
  constructor
  · intro h
    rw [Catalog.hasColumn_of_applyAll_iff (h₁.append h₂).applyAll] at h
    have hempty : Catalog.empty.hasColumn t.name name = false := rfl
    obtain ⟨s, hs, hmade⟩ := h.resolve_left (by rw [hempty]; exact Bool.false_ne_true)
    obtain hs | hs := List.mem_append.mp hs
    · obtain ⟨t', ht', met, hmem⟩ := h₁.exists_item hs
      obtain ⟨htable, hcolumn⟩ := of_makesColumn_table hmem hmade
      obtain rfl := List.inj_on_of_nodup_map hnames ht' ht htable
      exact .inl hcolumn
    · obtain ⟨s', hs', met, hmem⟩ := h₂.exists_item hs
      obtain hcreated | hvalues := of_makesColumn_subtable hmem hmade
      · -- the table is there by then, so no subtable is created by its name
        have habsent := ((Catalog.mem_created_iff h₂.applyAll).mp
          (List.mem_filterMap.mpr ⟨_, hs, hcreated⟩)).1
        rw [(htables t ht).1] at habsent
        cases habsent
      · exact .inr ⟨s', hs', hvalues⟩
  · rintro (⟨column, hcolumn, hname⟩ | ⟨s, hs, hsubtable, hname⟩)
    · have hthere := h₂.grows.hasColumn ((htables t ht).2 column hcolumn)
      rwa [Catalog.hasColumn, Text.listsName_congr (Text.sameName_iff.mpr hname)] at hthere
    · have hordered := (ordered_steps hplan).of_append.1.of_append.2
      have hsettled : ∀ y ∈ plan.tables.map Step.table ++ [], y.Settled c.config.backend c₁ := by
        rw [List.append_nil]
        exact List.forall_mem_map.mpr htables
      have hthere : c₂.hasColumn s.name s.valueColumn = true :=
        h₂.settled hordered hsettled _ (List.mem_map_of_mem hs)
      rwa [hsubtable, Catalog.hasColumn,
        Text.listsName_congr (Text.sameName_iff.mpr hname)] at hthere

/-- A planned table has no index by then. -/
theorem hasIndex_of_stages (hplan : c.plan = .ok plan)
    (h₁ : Pass c.config.backend c.config (plan.tables.map Step.table) .empty ss₁ c₁)
    (h₂ : Pass c.config.backend c.config (plan.subtables.map Step.subtable) c₁ ss₂ c₂)
    (ht : t ∈ plan.tables) : c₂.hasIndex t.name name = false := by
  have hspares : ∀ x ∈ plan.subtables.map Step.subtable, x.Spares t.name :=
    List.forall_mem_map.mpr fun _ _ => trivial
  rw [h₂.hasIndex_of_spares hspares (settled_of_tables hplan h₁ ht).1, ← Bool.not_eq_true,
    h₁.hasIndex_tables]
  exact Bool.false_ne_true

/-! ### The index plan -/

/-- No object of the index plan is there by then exactly if the shadow columns are apart. -/
theorem holds_of_stages_iff (hplan : c.plan = .ok plan)
    (hnames : (plan.tables.map Table.name).Nodup)
    (h₁ : Pass c.config.backend c.config (plan.tables.map Step.table) .empty ss₁ c₁)
    (h₂ : Pass c.config.backend c.config (plan.subtables.map Step.subtable) c₁ ss₂ c₂) :
    (∀ s ∈ c.indexPlan plan.tables, c₂.holds c.config.backend s = false) ↔
      c.ShadowsApart plan := by
  constructor
  · intro h t ht name hname hcolumn
    obtain ⟨a, ha, rfl⟩ := mem_shadowNames_iff.mp hname
    have hthere := h _ (List.mem_flatMap.mpr ⟨t, ht, ha⟩)
    have htable : a.table = t.name := indexes_of_mem_forTable ha
    rw [Catalog.holds, htable,
      (hasColumn_of_stages_iff hplan hnames h₁ h₂ ht).mpr hcolumn] at hthere
    cases hthere
  · intro h s hs
    obtain ⟨t, ht, hs⟩ := List.mem_flatMap.mp hs
    have hindexes := indexes_of_mem_forTable hs
    cases s with
    | createTable => exact hindexes.elim
    | addColumn a =>
      have htable : a.table = t.name := hindexes
      rw [Catalog.holds, htable, ← Bool.not_eq_true,
        hasColumn_of_stages_iff hplan hnames h₁ h₂ ht]
      exact h t ht _ (mem_shadowNames_iff.mpr ⟨a, hs, rfl⟩)
    | createIndex i =>
      have htable : i.table = t.name := hindexes
      rw [Catalog.holds, htable]
      exact hasIndex_of_stages hplan h₁ h₂ ht

/-- The objects of the index plan are different exactly if its indexes are apart. -/
theorem nodup_objects_indexPlan_iff (hplan : c.plan = .ok plan)
    (hnames : (plan.tables.map Table.name).Nodup) :
    ((c.indexPlan plan.tables).map (Statement.object c.config.backend)).Nodup ↔
      c.IndexesApart plan := by
  rw [indexPlan, nodup_objects_forTables_iff hnames]
  exact forall₂_congr fun t ht => nodup_objects_iff (Plan.hasDistinctColumns_of_planned hplan ht)

theorem indexesApart_of_le (h : ∀ t ∈ plan.tables, ∀ name ∈
    indexNames c.directory c.config c.policy t,
      name.utf8ByteSize ≤ c.config.backend.maxNameLength) : c.IndexesApart plan := by
  intro t ht x hx y hy hcoincide
  obtain hlong | hlong := hcoincide.long
  · exact Nat.not_lt_of_le (h t ht x hx) hlong
  · exact Nat.not_lt_of_le (h t ht y hy) hlong

/-! ### The whole bootstrap -/

/-- **When a bootstrap of an empty database skips nothing.**  It succeeds, and it skips no statement
of its index plan exactly if no shadow column goes by the name of a column that the plan has for its
table, and no two names of indexes of a table coincide once they are fitted.  It then issues the
index plan as a whole, each shadow column with the expression that computes it.  Names that are not
too long for the backend do not coincide. -/
theorem skips_nothing_iff {docs : List SchemaDocument}
    (hdocs : Directory.ofDocuments docs = .ok c.directory) (hplan : c.plan = .ok plan)
    {log : Log τ} (hlog : log.Reliable) (t₀ : τ) :
    ∃ report p, c.bootstrap Database.session log {} t₀ = (.ok report, p) ∧
      (report.indexes.skipped = 0 ↔ c.ShadowsApart plan ∧ c.IndexesApart plan) ∧
      (report.indexes.skipped = 0 →
        (c.indexPlan plan.tables).map (Statement.fitted c.config.backend) <:+
          c.issued Database.session log {} t₀) ∧
      ((∀ t ∈ plan.tables, ∀ name ∈ indexNames c.directory c.config c.policy t,
        name.utf8ByteSize ≤ c.config.backend.maxNameLength) → c.IndexesApart plan) := by
  have hnames : (plan.tables.map Table.name).Nodup := by
    refine List.Nodup.of_map Text.lower ?_
    rw [List.map_map]
    exact Plan.nodup_table_names hdocs (Plan.ofDirectory_eq_ok hplan).1
  -- the pass of each stage, with the reports on them
  obtain ⟨ss, left, hpass, -⟩ := exists_pass_steps hplan ({} : Database).catalog
  obtain ⟨ss₁₂, c₂, ss₃, h₁₂, h₃, rfl⟩ := hpass.of_append
  obtain ⟨ss₁, c₁, ss₂, h₁, h₂, rfl⟩ := h₁₂.of_append
  obtain ⟨changes, indexes, hcourse, hcount, haccounts⟩ := course_of_passes h₁ h₂ h₃
  have hrun := bootstrap_of_course hplan hlog hcourse t₀
  have hissued := issued_eq hplan hrun hpass
  have hindexes : ∀ s ∈ c.indexPlan plan.tables, ∃ table, s.Indexes table := fun s hs => by
    obtain ⟨t, -, ht⟩ := exists_indexes_of_mem hs
    exact ⟨t.name, ht⟩
  have hlength : indexes.skipped + ss₃.length = (c.indexPlan plan.tables).length := by
    rw [skipped_add_length haccounts (h₃.createdTable?_indexes hindexes), hcount]
  have hskipped := h₃.skipped_eq_zero_iff hlength
  refine ⟨_, _, hrun, ?_, fun h => ?_, indexesApart_of_le⟩
  · rw [hskipped, h₃.issues_all_iff hindexes, holds_of_stages_iff hplan hnames h₁ h₂,
      nodup_objects_indexPlan_iff hplan hnames]
  · rw [hissued, ← hskipped.mp h]
    exact List.suffix_append _ _

/-- A document with a class whose mail addresses are kept in a JSON column. -/
def mailDocument (further : List String) : SchemaDocument where
  attributes := [{ names := ["mail"], multivalued := true }]
  classes := [{ names := ["person"], may := "mail" :: further }]

/-- The compiler of `mailDocument` for a version that needs shadow columns. -/
def shadowedMail (further : List String) : Compiler where
  config := { version := some { major := 5, minor := 7, patch := 44 }, shadowPositions := 2 }
  directory := .ofDefinitions (mailDocument further).attributes (mailDocument further).classes
  policy := { mysql := { common := { fields := ["mail"] } } }

/-- The table of `mailDocument`. -/
def mailTable (further : List Column) : Table where
  name := "person"
  columns := bookkeeping ++ ⟨"mail", .json⟩ :: further

theorem skips_nothing_iff_shadowedMail :
    Directory.ofDocuments [mailDocument []] = .ok (shadowedMail []).directory ∧
      (shadowedMail []).plan = .ok { tables := [mailTable []] } ∧ Log.memory.Reliable ∧
      ∃ report p, (shadowedMail []).bootstrap Database.session Log.memory {} [] =
          (.ok report, p) ∧ report.indexes.skipped = 0 := by
  have hdocs : Directory.ofDocuments [mailDocument []] = .ok (shadowedMail []).directory := rfl
  have hplan : (shadowedMail []).plan = .ok { tables := [mailTable []] } := rfl
  obtain ⟨report, p, hrun, hiff, -, hshort⟩ :=
    skips_nothing_iff hdocs hplan Log.memory_reliable []
  exact ⟨hdocs, hplan, Log.memory_reliable, report, p, hrun,
    hiff.mpr ⟨by decide, hshort (by decide)⟩⟩

/-- A bootstrap of an empty database can skip a statement: an attribute takes the name of a shadow
column. -/
theorem not_skips_nothing :
    ¬ ∀ (docs : List SchemaDocument) (c : Compiler) plan report p,
      Directory.ofDocuments docs = .ok c.directory → c.plan = .ok plan →
        c.bootstrap Database.session Log.memory {} [] = (.ok report, p) →
          report.indexes.skipped = 0 := by
  intro h
  have hrun : (shadowedMail ["mail_mem_idx_0"]).bootstrap Database.session Log.memory {} [] =
      (.ok _, _) := rfl
  have hplan : (shadowedMail ["mail_mem_idx_0"]).plan =
      .ok { tables := [mailTable [⟨"mail_mem_idx_0", .text⟩]] } := rfl
  have hskipped := h [mailDocument ["mail_mem_idx_0"]] _ _ _ _ rfl hplan hrun
  exact absurd hskipped (by decide)

end Compiler

end DirectoryTables
