import DirectoryTables.Statement.Sql
import DirectoryTables.Proofs.Backend.Fitting
import DirectoryTables.Proofs.Text.Lines

/-!
# Statements — Lines

Which statements a log keeps as they are, each on one line.  What is written between the parts of a
statement is on one line, so the statement is if its names, types and expressions are; and it ends
in a blank only if it ends in a type that does.

* `Statement.OneLine`: the parts of the statement are on one line, and no type ends in a blank.
* `Backend.isLine_render`: such a statement is a line of a log.
-/

namespace DirectoryTables

open Text

/-! ### Parts of statements -/

/-- A type named by its SQL text has a name on one line, which does not end in a blank. -/
def ColumnType.OneLine : ColumnType → Prop
  | array element => element.OneLine
  | other sql => Unbroken sql ∧ EndsSolid sql
  | _ => True

/-- The parts of the column are on one line. -/
structure ColumnDef.OneLine (c : ColumnDef) : Prop where
  name : Unbroken c.name
  type : c.type.OneLine
  generated : ∀ expression, c.generated = some expression → Unbroken expression

/-- The parts of the statement are on one line. -/
structure CreateTable.OneLine (t : CreateTable) : Prop where
  name : Unbroken t.name
  columns : ∀ c ∈ t.columns, c.OneLine
  primaryKey : ∀ column ∈ t.primaryKey, Unbroken column
  unique : ∀ column ∈ t.unique, Unbroken column
  parent : ∀ parent, t.parent = some parent → Unbroken parent

/-- The parts of the key are on one line. -/
def IndexKey.OneLine : IndexKey → Prop
  | columns parts => ∀ p ∈ parts, Unbroken p.name
  | expression sql => Unbroken sql

/-- The parts of the statement are on one line. -/
structure CreateIndex.OneLine (i : CreateIndex) : Prop where
  name : Unbroken i.name
  table : Unbroken i.table
  key : i.key.OneLine

/-- The parts of the statement are on one line. -/
def Statement.OneLine : Statement → Prop
  | createTable t => t.OneLine
  | addColumn a => Unbroken a.table ∧ a.column.OneLine
  | createIndex i => i.OneLine

/-- No digit is a line feed. -/
theorem Digest.digitChar_ne_newline (n : Nat) : Nat.digitChar n ≠ '\n' := by
  by_cases h : n < 16
  · have hdigit : ∀ d : Fin 16, Nat.digitChar d ≠ '\n' := by decide
    exact hdigit ⟨n, h⟩
  · rw [Nat.digitChar_eq_star.mpr (Nat.le_of_not_lt h)]
    decide

namespace Backend

/-! ### Names -/

theorem unbroken_quote (b : Backend) {name : String} (h : Unbroken name) :
    Unbroken (b.quote name) := by
  have hmark : ∀ mark, quoteMark? b.dialect = some mark → '\n' ≠ mark := by
    cases b.dialect <;> simp [quoteMark?]
  rw [quote]
  split
  · next mark hquote =>
    have hne := hmark mark hquote
    rw [unbroken_ofList, enclose]
    simp only [List.mem_append, List.mem_cons, List.mem_flatMap, List.not_mem_nil, or_false]
    rintro ((e | ⟨c, hc, hn⟩) | e)
    · exact hne e
    · split at hn
      · simp [hne] at hn
      · exact h (List.mem_singleton.mp hn ▸ hc)
    · exact hne e
  · exact h

theorem unbroken_fit (b : Backend) {name : String} (h : Unbroken name) : Unbroken (b.fit name) := by
  rw [fit, fitWith]
  split
  · exact h
  · rw [unbroken_ofList, List.mem_append, List.mem_cons]
    rintro (hmem | e | hmem)
    · have hkept := takeBytes_prefix (b.maxNameLength - 9) name.toList
      exact h (hkept.subset hmem)
    · exact absurd e (by decide)
    · obtain ⟨n, e⟩ := Digest.exists_digitChar_of_mem_hexDigest (List.mem_of_mem_take hmem)
      exact Digest.digitChar_ne_newline n e.symm

theorem unbroken_nameList (b : Backend) {names : List String} (h : ∀ n ∈ names, Unbroken n) :
    Unbroken (b.nameList names) :=
  unbroken_commaJoined (List.forall_mem_map.mpr fun n hn => b.unbroken_quote (h n hn))

/-! ### Types and columns -/

theorem unbroken_typeSql (b : Backend) {type : ColumnType} (h : type.OneLine) :
    Unbroken (b.typeSql type) := by
  induction type with
  | other sql => exact h.1
  | array element ih =>
    have helement := ih h
    rw [typeSql]
    cases b.dialect <;> simp +decide [helement]
  | varchar size =>
    rw [typeSql]
    cases b.dialect <;> simp +decide [decimal32, unbroken_decimal]
  | _ =>
    rw [typeSql]
    cases b.dialect <;> decide

theorem endsSolid_typeSql (b : Backend) {type : ColumnType} (h : type.OneLine) :
    EndsSolid (b.typeSql type) := by
  cases type with
  | other sql => exact h.2
  | array element =>
    rw [typeSql]
    cases b.dialect with
    | mysql => exact (by decide : EndsSolid "JSON")
    | pgsql => exact (by decide : EndsSolid "JSONB")
    | spanner => exact .append (by decide) _
  | varchar size => exact .append (by decide) _
  | _ =>
    rw [typeSql]
    cases b.dialect <;> decide

theorem unbroken_columnSql (b : Backend) {c : ColumnDef} (h : c.OneLine) :
    Unbroken (b.columnSql c) := by
  have hname := b.unbroken_quote h.name
  have htype := b.unbroken_typeSql h.type
  rw [columnSql]
  cases hgenerated : c.generated with
  | none => cases c.notNull <;> simp +decide [hname, htype]
  | some expression =>
    have hexpression := h.generated expression hgenerated
    cases c.notNull <;> cases b.dialect <;> simp +decide [hname, htype, hexpression]

/-- A column ends in a word of its own, or in its type. -/
theorem endsSolid_columnSql (b : Backend) {c : ColumnDef} (h : c.OneLine) :
    EndsSolid (b.columnSql c) := by
  rw [columnSql]
  cases c.notNull with
  | true => exact .append (by decide) _
  | false =>
    rw [if_neg Bool.false_ne_true, String.append_empty]
    cases c.generated with
    | none =>
      rw [String.append_empty]
      exact (b.endsSolid_typeSql h.type).append _
    | some expression =>
      refine .append ?_ _
      cases b.dialect with
      | mysql =>
        simp only [String.append_empty]
        exact .append (by decide) _
      | pgsql | spanner => exact .append (by decide) _

/-! ### Statements -/

/-- The parts of a table between the brackets, with its foreign key as the last one. -/
theorem unbroken_tableParts (b : Backend) {t : CreateTable} (h : t.OneLine) :
    Unbroken (commaJoined (t.columns.map b.columnSql ++
      ("PRIMARY KEY (" ++ b.nameList t.primaryKey ++ ")") ::
        t.unique.map (fun column => "UNIQUE (" ++ b.quote column ++ ")") ++
      match t.parent with
      | some parent =>
        ["FOREIGN KEY (" ++ b.quote docId ++ ") REFERENCES " ++ b.quote parent ++ "(" ++
          b.quote docId ++ ") ON DELETE CASCADE"]
      | none => [])) := by
  refine unbroken_commaJoined fun s hs => ?_
  have hdoc := b.unbroken_quote (by decide : Unbroken docId)
  rcases List.mem_append.mp hs with hs | hs
  · rcases List.mem_append.mp hs with hs | hs
    · obtain ⟨c, hc, rfl⟩ := List.mem_map.mp hs
      exact b.unbroken_columnSql (h.columns c hc)
    · obtain rfl | hs := List.mem_cons.mp hs
      · simp +decide [b.unbroken_nameList h.primaryKey]
      · obtain ⟨column, hc, rfl⟩ := List.mem_map.mp hs
        simp +decide [b.unbroken_quote (h.unique column hc)]
  · cases hparent : t.parent with
    | none => simp [hparent] at hs
    | some parent =>
      rw [hparent] at hs
      obtain rfl := List.mem_singleton.mp hs
      simp +decide [hdoc, b.unbroken_quote (h.parent parent hparent)]

theorem isLine_createTableSql (b : Backend) {t : CreateTable} (h : t.OneLine) :
    Log.IsLine (b.createTableSql t) := by
  have hname := b.unbroken_quote h.name
  rw [createTableSql]
  cases hd : b.dialect with
  | mysql | pgsql =>
    have hparts := b.unbroken_tableParts h
    refine Log.isLine_of ?_ (.append (by decide) _)
    simp only [unbroken_append]
    exact ⟨⟨⟨⟨by decide, hname⟩, by decide⟩, hparts⟩, by decide⟩
  | spanner =>
    have hkey := b.unbroken_nameList h.primaryKey
    have hcolumns : Unbroken (commaJoined (t.columns.map b.columnSql)) :=
      unbroken_commaJoined (List.forall_mem_map.mpr fun c hc => b.unbroken_columnSql (h.columns c hc))
    cases hparent : t.parent with
    | none =>
      simp only [String.append_empty]
      refine Log.isLine_of ?_ (.append (by decide) _)
      simp +decide [hname, hkey, hcolumns]
    | some parent =>
      have hquoted := b.unbroken_quote (h.parent parent hparent)
      refine Log.isLine_of ?_ (.append (.append (by decide) _) _)
      simp +decide [hname, hkey, hcolumns, hquoted]

theorem isLine_addColumnSql (b : Backend) {a : AddColumn} (htable : Unbroken a.table)
    (hcolumn : a.column.OneLine) : Log.IsLine (b.addColumnSql a) := by
  have hname := b.unbroken_quote htable
  have hsql := b.unbroken_columnSql hcolumn
  refine Log.isLine_of ?_ ((b.endsSolid_columnSql hcolumn).append _)
  unfold addColumnSql
  simp +decide [hname, hsql]

theorem unbroken_keyPartSql (b : Backend) {p : KeyPart} (h : Unbroken p.name) :
    Unbroken (b.keyPartSql p) := by
  have hname := b.unbroken_quote h
  rw [keyPartSql]
  cases p.prefixLength with
  | none => exact hname
  | some length => cases b.needsTextPrefix <;> simp +decide [hname, decimal32, unbroken_decimal]

theorem unbroken_indexKeySql (b : Backend) (kind : IndexKind) {key : IndexKey} (h : key.OneLine) :
    Unbroken (b.indexKeySql kind key) := by
  cases key with
  | columns parts =>
    have hparts : Unbroken (commaJoined (parts.map b.keyPartSql)) :=
      unbroken_commaJoined (List.forall_mem_map.mpr fun p hp => b.unbroken_keyPartSql (h p hp))
    simp +decide [indexKeySql, hparts]
  | expression sql =>
    have hsql : Unbroken sql := h
    cases hd : b.dialect <;> cases kind <;> simp +decide [indexKeySql, hd, hsql]

/-- The key of an index ends in a bracket. -/
theorem endsSolid_indexKeySql (b : Backend) (kind : IndexKind) (key : IndexKey) :
    EndsSolid (b.indexKeySql kind key) := by
  cases key with
  | columns parts => exact .append (by decide) _
  | expression sql =>
    cases hd : b.dialect <;> cases kind <;> simp only [indexKeySql, hd] <;>
      exact .append (by decide) _

theorem isLine_createIndexSql (b : Backend) {i : CreateIndex} (h : i.OneLine) :
    Log.IsLine (b.createIndexSql i) := by
  have hname := b.unbroken_quote (b.unbroken_fit h.name)
  have htable := b.unbroken_quote h.table
  have hkey := b.unbroken_indexKeySql i.kind h.key
  have hhead : Unbroken (b.indexHead i.kind) := by
    cases hd : b.dialect <;> cases i.kind <;> simp only [indexHead, hd] <;> decide
  refine Log.isLine_of ?_ ((b.endsSolid_indexKeySql i.kind i.key).append _)
  rw [createIndexSql]
  simp +decide [hhead, hname, htable, hkey]

/-- **Statements of parts on one line are lines of a log.** -/
theorem isLine_render (b : Backend) {s : Statement} (h : s.OneLine) : Log.IsLine (b.render s) := by
  cases s with
  | createTable t => exact b.isLine_createTableSql h
  | addColumn a => exact b.isLine_addColumnSql h.1 h.2
  | createIndex i => exact b.isLine_createIndexSql h

end Backend

end DirectoryTables
