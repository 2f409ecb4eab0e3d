import DirectoryTables.Proofs.Bootstrap.Statements
import DirectoryTables.Proofs.Plan.IndexClashes
import DirectoryTables.Proofs.Plan.IndexKeys

/-!
# Bootstrap — Names

The names in the statements of a bootstrap, and whether the backend has room for those that are made
up.

The names of tables and columns are given by the directory (`Plan.Gives`).  The names of subtables,
of shadow columns and of indexes are made up (`Compiler.Generates`): of several names, or of one and
a mark.  So they can be too long where no given name is, and only those of indexes are fitted.

* `Compiler.issues_name_iff`: every name in a statement is given or made up.
* `Compiler.generated_names_fit_iff`: when no made-up name is too long.
-/

namespace DirectoryTables

/-! ### The names in a statement -/

/-- The names in the statement: those of tables, of columns and of the index.  The texts of
expressions are not looked into. -/
def Statement.names : Statement → List String
  | createTable t =>
    t.name :: t.columns.map ColumnDef.name ++ (t.primaryKey ++ t.unique) ++ t.parent.toList
  | addColumn a => [a.table, a.column.name]
  | createIndex i => [i.name, i.table] ++ (createIndex i).keyParts.map KeyPart.name

/-- The name is one of a planned table, or of a column of it or of a subtable. -/
inductive Plan.Gives (plan : Plan) : String → Prop
  | table {t : Table} (ht : t ∈ plan.tables) : Gives plan t.name
  | column {t : Table} {column : Column} (ht : t ∈ plan.tables) (hcolumn : column ∈ t.columns) :
      Gives plan column.name
  | subtableColumn {s : Subtable} {column : Column} (hs : s ∈ plan.subtables)
      (hcolumn : column ∈ s.columns) : Gives plan column.name

/-- The name is made up for the plan: that of a subtable or of a shadow column, or that of an index
as it is written. -/
inductive Compiler.Generates (c : Compiler) (plan : Plan) : String → Prop
  | subtable {s : Subtable} (hs : s ∈ plan.subtables) : Generates c plan s.name
  | shadow {t : Table} {name : String} (ht : t ∈ plan.tables)
      (hname : name ∈ Indexing.shadowNames c.directory c.config c.policy t) :
      Generates c plan name
  | index {i : CreateIndex} (hi : c.PlansIndex plan i) :
      Generates c plan (c.config.backend.fit i.name)

/-! ### Lengths of made-up names -/

theorem Subtable.utf8ByteSize_name (s : Subtable) :
    s.name.utf8ByteSize = s.parent.utf8ByteSize + 1 + s.valueColumn.utf8ByteSize := by
  rw [name, String.utf8ByteSize_append, String.utf8ByteSize_append]
  rfl

theorem Indexing.utf8ByteSize_shadowName (column : String) (n : Nat) :
    (shadowName column n).utf8ByteSize =
      column.utf8ByteSize + 9 + (Text.decimal n).utf8ByteSize := by
  rw [shadowName, String.utf8ByteSize_append, String.utf8ByteSize_append]
  rfl

/-! ### The names for a plan -/

namespace Compiler

variable {c : Compiler} {plan : Plan} {t : Table} {s : Subtable}

/-- The name is given by the directory or made up for the plan. -/
def Names (c : Compiler) (plan : Plan) (name : String) : Prop :=
  plan.Gives name ∨ c.Generates plan name

theorem gives_docId (hplan : c.plan = .ok plan) (ht : t ∈ plan.tables) : plan.Gives docId := by
  obtain ⟨cls, -, hcls⟩ := exists_of_mem_mapM (Plan.ofDirectory_eq_ok hplan).1 ht
  obtain ⟨rest, hrest⟩ := Plan.exists_columns_eq_cons (Plan.tableFor_eq_ok_iff.mp hcls)
  have hcolumn : ⟨docId, .varchar 64⟩ ∈ t.columns := hrest ▸ List.mem_cons_self
  exact Plan.Gives.column ht hcolumn

/-- The statement that creates a table names the table and columns of it. -/
theorem gives_of_mem_names_create (hplan : c.plan = .ok plan) (ht : t ∈ plan.tables)
    {b : Backend} {personTable name : String}
    (h : name ∈ (Statement.createTable (t.create b personTable)).names) : plan.Gives name := by
  simp only [Statement.names, Table.create, List.map_map, List.cons_append, List.nil_append,
    List.mem_cons, List.mem_append, List.mem_map, List.not_mem_nil, Option.toList_none,
    or_false] at h
  obtain rfl | ⟨column, hcolumn, rfl⟩ | rfl | hunique := h
  · exact .table ht
  · exact .column ht hcolumn
  · exact gives_docId hplan ht
  · split at hunique
    · obtain ⟨column, hcolumn, rfl⟩ := List.mem_map.mp hunique
      exact .column ht (List.mem_of_find?_eq_some (Option.mem_toList.mp hcolumn))
    · cases hunique

theorem gives_subtableColumns (hs : s ∈ plan.subtables) :
    plan.Gives docId ∧ plan.Gives rowId ∧ plan.Gives s.valueColumn := by
  have hgives : ∀ name ∈ s.columns.map Column.name, plan.Gives name :=
    List.forall_mem_map.mpr fun column hcolumn => .subtableColumn hs hcolumn
  have hnames : s.columns.map Column.name = [docId, rowId, s.valueColumn] := rfl
  rw [hnames, List.forall_mem_cons, List.forall_mem_cons, List.forall_mem_singleton] at hgives
  exact hgives

/-- The statement that creates a subtable names its parent as well. -/
theorem names_of_mem_names_subtable (hplan : c.plan = .ok plan) (hs : s ∈ plan.subtables)
    {name : String} (h : name ∈ (Statement.createTable s.create).names) : c.Names plan name := by
  obtain ⟨hdocId, hrowId, hvalues⟩ := gives_subtableColumns hs
  obtain ⟨t, ht, hparent⟩ := Plan.exists_parent_of_planned hplan hs
  have hnames : (Statement.createTable s.create).names =
      [s.name, docId, rowId, s.valueColumn, docId, rowId, s.parent] := rfl
  simp only [hnames, List.mem_cons, List.not_mem_nil, or_false] at h
  obtain rfl | rfl | rfl | rfl | rfl | rfl | rfl := h
  · exact .inr (.subtable hs)
  · exact .inl hdocId
  · exact .inl hrowId
  · exact .inl hvalues
  · exact .inl hdocId
  · exact .inl hrowId
  · exact .inl (hparent ▸ .table ht)

/-- What indexes a table names it and its columns, shadow columns of it, and the index. -/
theorem names_of_mem_names_forTable (ht : t ∈ plan.tables) {statement : Statement}
    (h : statement ∈ Indexing.forTable c.directory c.config c.policy t) {name : String}
    (hname : name ∈ (statement.fitted c.config.backend).names) : c.Names plan name := by
  have hindexes := Indexing.indexes_of_mem_forTable h
  cases statement with
  | createTable => exact hindexes.elim
  | addColumn a =>
    obtain rfl | hname := List.mem_cons.mp hname
    · exact .inl (hindexes ▸ .table ht)
    · obtain rfl := List.mem_singleton.mp hname
      exact .inr (.shadow ht (Indexing.mem_shadowNames_iff.mpr ⟨a, h, rfl⟩))
  | createIndex i =>
    obtain hname | hname := List.mem_append.mp hname
    · obtain rfl | hname := List.mem_cons.mp hname
      · exact .inr (.index (.inl (List.mem_flatMap.mpr ⟨t, ht, h⟩)))
      · obtain rfl := List.mem_singleton.mp hname
        exact .inl (hindexes ▸ .table ht)
    · obtain ⟨part, hpart, rfl⟩ := List.mem_map.mp hname
      have hkeyed := Indexing.mem_keyParts_forTable_iff.mp (List.mem_flatMap.mpr ⟨_, h, hpart⟩)
      cases hkeyed with
      | plain hcolumn => exact .inl (.column ht hcolumn)
      | shadow hshadow => exact .inr (.shadow ht hshadow)
      | unique _ _ hcolumn => exact .inl (.column ht (List.mem_of_find?_eq_some hcolumn))

theorem names_of_issues (hplan : c.plan = .ok plan) {columns : List Column} {statement : Statement}
    (h : c.Issues plan columns statement) {name : String} (hname : name ∈ statement.names) :
    c.Names plan name := by
  cases h with
  | table ht => exact .inl (gives_of_mem_names_create hplan ht hname)
  | column ht hcolumn =>
    obtain rfl | hname := List.mem_cons.mp hname
    · exact .inl (.table ht)
    · obtain rfl := List.mem_singleton.mp hname
      exact .inl (.column ht hcolumn)
  | subtable hs => exact names_of_mem_names_subtable hplan hs hname
  | values hs =>
    obtain rfl | hname := List.mem_cons.mp hname
    · exact .inr (.subtable hs)
    · obtain rfl := List.mem_singleton.mp hname
      exact .inl (gives_subtableColumns hs).2.2
  | @valueIndex s hs =>
    have hnames : ((Statement.createIndex
        (s.index c.config.backend c.config.textPrefixLength)).fitted c.config.backend).names =
        [c.config.backend.fit s.indexName, s.name, s.valueColumn] := rfl
    simp only [hnames, List.mem_cons, List.not_mem_nil, or_false] at hname
    obtain rfl | rfl | rfl := hname
    · exact .inr (.index (.inr ⟨s, hs, rfl⟩))
    · exact .inr (.subtable hs)
    · exact .inl (gives_subtableColumns hs).2.2
  | index ht h => exact names_of_mem_names_forTable ht h hname

theorem exists_issues_of_gives {name : String} (h : plan.Gives name) :
    ∃ columns statement, c.Issues plan columns statement ∧ name ∈ statement.names := by
  cases h with
  | table ht => exact ⟨_, _, .table ht, List.mem_cons_self⟩
  | column ht hcolumn =>
    exact ⟨_, _, .column ht hcolumn, List.mem_cons_of_mem _ (List.mem_singleton_self _)⟩
  | @subtableColumn s column hs hcolumn =>
    have hcreated : s.create.columns.map ColumnDef.name = s.columns.map Column.name := rfl
    have hname := List.mem_map_of_mem (f := Column.name) hcolumn
    rw [← hcreated] at hname
    refine ⟨_, _, .subtable hs, List.mem_append_left _ (List.mem_append_left _ ?_)⟩
    exact List.mem_cons_of_mem _ hname

theorem exists_issues_of_generates {name : String} (h : c.Generates plan name) :
    ∃ columns statement, c.Issues plan columns statement ∧ name ∈ statement.names := by
  cases h with
  | subtable hs => exact ⟨_, _, .subtable hs, List.mem_cons_self⟩
  | shadow ht hname =>
    obtain ⟨a, ha, rfl⟩ := Indexing.mem_shadowNames_iff.mp hname
    exact ⟨_, _, .index ht ha, List.mem_cons_of_mem _ (List.mem_singleton_self _)⟩
  | index hi =>
    obtain hi | ⟨s, hs, rfl⟩ := hi
    · obtain ⟨t, ht, hi⟩ := List.mem_flatMap.mp hi
      exact ⟨_, _, .index ht hi, List.mem_cons_self⟩
    · exact ⟨_, _, .valueIndex hs, List.mem_cons_self⟩

/-- **The names in the statements of a bootstrap** are those that the directory gives and those that
are made up. -/
theorem issues_name_iff (hplan : c.plan = .ok plan) {name : String} :
    (∃ columns statement, c.Issues plan columns statement ∧ name ∈ statement.names) ↔
      c.Names plan name := by
  constructor
  · rintro ⟨columns, statement, h, hname⟩
    exact names_of_issues hplan h hname
  · rintro (h | h)
    · exact exists_issues_of_gives h
    · exact exists_issues_of_generates h

/-! ### Names that fit -/

/-- **When made-up names fit.**  The names in the statements that some session is handed are those
that the directory gives and those that are made up for the plan.  No made-up name is longer than
the backend allows, exactly if the names of the parent and of the attribute of each subtable leave
room for an underscore, and on a backend that needs shadow columns, the name of each selected column
with JSON leaves room for a mark with each number.  The names of indexes always fit. -/
theorem generated_names_fit_iff (hplan : c.plan = .ok plan) :
    (∀ name, (plan.Gives name ∨ c.Generates plan name) ↔
      ∃ (σ τ : Type) (session : Session σ) (log : Log τ) (s : σ) (t : τ) (statement : Statement),
        statement ∈ c.issued session log s t ∧ name ∈ statement.names) ∧
    (∀ i, c.PlansIndex plan i →
      (c.config.backend.fit i.name).utf8ByteSize ≤ c.config.backend.maxNameLength) ∧
    ((∀ name, c.Generates plan name → name.utf8ByteSize ≤ c.config.backend.maxNameLength) ↔
      (∀ s ∈ plan.subtables, s.parent.utf8ByteSize + 1 + s.valueColumn.utf8ByteSize ≤
        c.config.backend.maxNameLength) ∧
      (c.config.NeedsShadows → ∀ t ∈ plan.tables, ∀ column ∈ t.columns,
        Indexing.Selects c.directory c.config (c.policy.forDialect c.config.dialect) t.name
          column.name → column.type.isJsonCapable = true →
        ∀ n < c.config.shadowPositions.toNat,
          column.name.utf8ByteSize + 9 + (Text.decimal n).utf8ByteSize ≤
            c.config.backend.maxNameLength)) := by
  refine ⟨fun name => ?_, fun i _ => c.config.backend.utf8ByteSize_fit_le i.name, ?_, ?_⟩
  · refine (issues_name_iff hplan).symm.trans ⟨?_, ?_⟩
    · rintro ⟨columns, statement, h, hname⟩
      obtain ⟨σ, τ, session, log, s, t, hissued⟩ := (issues_iff hplan).mp ⟨columns, h⟩
      exact ⟨σ, τ, session, log, s, t, statement, hissued, hname⟩
    · rintro ⟨σ, τ, session, log, s, t, statement, hissued, hname⟩
      obtain ⟨columns, h⟩ := (issues_iff hplan).mpr ⟨σ, τ, session, log, s, t, hissued⟩
      exact ⟨columns, statement, h, hname⟩
  · intro h
    refine ⟨fun s hs => ?_, fun hneeds t ht column hcolumn hselects htype n hn => ?_⟩
    · rw [← Subtable.utf8ByteSize_name]
      exact h _ (.subtable hs)
    · rw [← Indexing.utf8ByteSize_shadowName]
      refine h _ (.shadow ht (Indexing.mem_shadowNames_iff_selects.mpr ⟨hneeds, ?_⟩))
      exact ⟨column, hcolumn, hselects, htype, n, hn, rfl⟩
  · rintro ⟨hsubtables, hshadows⟩ name h
    cases h with
    | @subtable s hs =>
      rw [Subtable.utf8ByteSize_name]
      exact hsubtables s hs
    | @shadow t name ht hname =>
      obtain ⟨hneeds, column, hcolumn, hselects, htype, n, hn, rfl⟩ :=
        Indexing.mem_shadowNames_iff_selects.mp hname
      rw [Indexing.utf8ByteSize_shadowName]
      exact hshadows hneeds t ht column hcolumn hselects htype n hn
    | @index i => exact c.config.backend.utf8ByteSize_fit_le i.name

/-- A document with a subtable of a long name, and an attribute with several values. -/
def ticketDocument : SchemaDocument where
  attributes := [
    { names := ["jansUmaPermissionClaimsGatheringTicket"]
      subtables := ["jansUmaResourcePermission"] },
    { names := ["mail"], multivalued := true }]
  classes := [{ names := ["jansUmaResourcePermission"], may := ["mail"] }]

/-- The compiler of `ticketDocument` for a dialect. -/
def tickets (dialect : Dialect) : Compiler where
  config := { dialect, version := some { major := 5, minor := 7, patch := 44 } }
  directory := .ofDefinitions ticketDocument.attributes ticketDocument.classes
  policy := { mysql := { common := { fields := ["mail"] } } }

/-- The plan for `ticketDocument`. -/
def ticketPlan : Plan where
  tables := [{ name := "jansUmaResourcePermission", columns := bookkeeping ++ [⟨"mail", .json⟩] }]
  subtables := [{ parent := "jansUmaResourcePermission"
                  valueColumn := "jansUmaPermissionClaimsGatheringTicket"
                  valueType := .text }]

/-- MySQL has room for the name of the subtable, without a byte to spare. -/
theorem generated_names_fit_iff_tickets :
    (tickets .mysql).plan = .ok ticketPlan ∧
      ∀ name, (tickets .mysql).Generates ticketPlan name → name.utf8ByteSize ≤ 64 := by
  have hplan : (tickets .mysql).plan = .ok ticketPlan := rfl
  have hmarks : ∀ t ∈ ticketPlan.tables, ∀ column ∈ t.columns, ∀ n < 4,
      column.name.utf8ByteSize + 9 + (Text.decimal n).utf8ByteSize ≤ 64 := by decide
  refine ⟨hplan, (generated_names_fit_iff hplan).2.2.mpr ⟨by decide, ?_⟩⟩
  exact fun _ t ht column hcolumn _ _ n hn => hmarks t ht column hcolumn n hn

/-- PostgreSQL has no room for it. -/
theorem not_generated_names_fit :
    ¬ ∀ docs (c : Compiler) plan name, Directory.ofDocuments docs = .ok c.directory →
      c.plan = .ok plan → c.Generates plan name →
        name.utf8ByteSize ≤ c.config.backend.maxNameLength := by
  intro h
  have hfits := h [ticketDocument] (tickets .pgsql) ticketPlan _ rfl rfl
    (.subtable (List.mem_singleton_self _))
  exact absurd hfits (by decide)

end Compiler

end DirectoryTables
