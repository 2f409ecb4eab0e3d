import DirectoryTables.Proofs.Bootstrap.Convergence
import DirectoryTables.Proofs.Plan.Lines

/-!
# Bootstrap — Lines

Whether the statements of a bootstrap can be read back from the text that its log keeps.  The log
adds a line for each of them, and splitting what it added at its line feeds gives the statements
back exactly if each of them is a line: a line feed in a statement makes two lines of it, and blanks
at its end are not kept.

* `Compiler.bootstrap_lines`: what a bootstrap adds to the log and to the history of the database.
* `Compiler.OneLine`: the texts of the compiler are on one line; all its statements are then lines
  (`Compiler.isLine_of_pass`).
* `Compiler.bootstrap_readable`: the statements are read back exactly if they are lines, and they are
  for such a compiler.
* `Compiler.not_bootstrap_readable`: not for every compiler.
-/

namespace DirectoryTables

open Bootstrap

theorem Log.lines_reliable : Log.lines.Reliable := ⟨fun _ _ => rfl, fun _ => rfl⟩

theorem Log.lines_recordAll (b : Backend) (statements : List Statement) (text : String) :
    Log.lines.recordAll b statements text =
      text ++ String.join ((statements.map b.render).map line) := by
  induction statements generalizing text with
  | nil => simp [recordAll]
  | cons s statements ih =>
    refine (ih (text ++ line (b.render s))).trans ?_
    rw [List.map_cons, List.map_cons, String.join_cons, String.append_assoc]

namespace Bootstrap

/-! ### Steps on one line -/

/-- What the step is for is on one line. -/
def Step.OneLine : Step → Prop
  | table t => t.OneLine
  | subtable s => s.OneLine
  | index statement => statement.OneLine

variable {b : Backend} {cfg : Config}

theorem Step.OneLine.statements {x : Step} (h : x.OneLine) (b : Backend) (cfg : Config)
    (c : Catalog) : ∀ s ∈ x.statements b cfg c, s.OneLine := by
  have hfitted : ∀ {s : Statement}, s.OneLine → (s.fitted b).OneLine := by
    intro s hs
    cases s with
    | createTable | addColumn => exact hs
    | createIndex i => exact ⟨b.unbroken_fit hs.name, hs.table, hs.key⟩
  intro s hs
  cases x with
  | table t =>
    obtain ⟨-, column, hc, rfl⟩ | ⟨-, rfl⟩ := mem_statements_table.mp hs
    · exact ⟨h.name, (h.columns column (List.mem_of_mem_filter hc)).declaration⟩
    · exact h.create b cfg.personTable
  | subtable t =>
    obtain ⟨-, column, hc, rfl⟩ | ⟨-, rfl | rfl⟩ := mem_statements_subtable.mp hs
    · rw [List.mem_singleton.mp (List.mem_of_mem_filter hc)]
      exact ⟨h.name, h.values.declaration⟩
    · exact h.create
    · exact hfitted (h.index b cfg.textPrefixLength)
  | index statement =>
    obtain ⟨-, rfl⟩ := mem_statements_index.mp hs
    exact hfitted h

theorem Pass.oneLine {steps : List Step} {c c' : Catalog} {ss : List Statement}
    (h : Pass b cfg steps c ss c') (hsteps : ∀ x ∈ steps, x.OneLine) : ∀ s ∈ ss, s.OneLine := by
  induction h with
  | nil => exact fun _ hs => by cases hs
  | cons _ _ ih =>
    rw [List.forall_mem_cons] at hsteps
    exact List.forall_mem_append.mpr ⟨hsteps.1.statements b cfg _, ih hsteps.2⟩

end Bootstrap

namespace Compiler

variable {c : Compiler} {plan : Plan} {db : Database} {text : String} {report : Report}
  {p : Progress Database String}

/-! ### Compilers on one line -/

/-- The texts of the compiler that statements are made of are on one line, and no type that it gives
ends in a blank. -/
structure OneLine (c : Compiler) : Prop where
  directory : c.directory.OneLine
  config : c.config.OneLine
  policy : (c.policy.forDialect c.config.dialect).OneLine

theorem OneLine.steps (h : c.OneLine) (hplan : c.plan = .ok plan) :
    ∀ x ∈ c.steps plan, x.OneLine := by
  have htables : ∀ t ∈ plan.tables, t.OneLine := fun t ht =>
    Plan.oneLine_table h.directory h.config hplan ht
  simp only [Compiler.steps, List.forall_mem_append, List.forall_mem_map]
  exact ⟨⟨htables, fun s hs => Plan.oneLine_subtable h.directory h.config hplan hs⟩,
    Indexing.oneLine_forTables h.config h.policy htables⟩

/-- The statements of a pass are lines of a log. -/
theorem isLine_of_pass (h : c.OneLine) (hplan : c.plan = .ok plan) {start left : Catalog}
    {ss : List Statement}
    (hpass : Pass c.config.backend c.config (c.steps plan) start ss left) :
    ∀ sql ∈ ss.map c.config.backend.render, Log.IsLine sql :=
  List.forall_mem_map.mpr fun s hs =>
    c.config.backend.isLine_render (hpass.oneLine (h.steps hplan) s hs)

/-! ### The text of a log -/

/-- A bootstrap adds the statements of a pass to the history of the database, and the lines of their
texts to the log. -/
theorem bootstrap_lines (h : c.bootstrap Database.session Log.lines db text = (.ok report, p)) :
    ∃ ss left, (∃ plan, c.plan = .ok plan ∧
        Pass c.config.backend c.config (c.steps plan) db.catalog ss left) ∧
      p.session.executed = db.executed ++ ss.map c.config.backend.render ∧
      p.log = text ++ String.join ((ss.map c.config.backend.render).map Log.line) := by
  obtain ⟨plan, hplan⟩ := exists_plan_of_bootstrap h
  obtain ⟨first, ss, left, hpass, hrun, -⟩ := bootstrap_eq hplan Log.lines_reliable db text
  cases hrun.symm.trans h
  refine ⟨ss, left, ⟨plan, hplan, hpass⟩, ?_, Log.lines_recordAll _ ss text⟩
  simp [Database.after, Database.executed, Function.comp_def]

/-- Splitting what was added to the log at its line feeds gives the statements that the database was
given since, in order and unchanged. -/
def ReadsBack (db : Database) (text : String) (p : Progress Database String) : Prop :=
  ∃ added executed, p.log = text ++ added ∧ p.session.executed = db.executed ++ executed ∧
    Text.lines added = executed

theorem readsBack_iff {executed : List String}
    (hexecuted : p.session.executed = db.executed ++ executed)
    (hlog : p.log = text ++ String.join (executed.map Log.line)) :
    ReadsBack db text p ↔ ∀ sql ∈ executed, Log.IsLine sql := by
  constructor
  · rintro ⟨added, executed', hlog', hexecuted', hlines⟩
    obtain rfl := List.append_cancel_left (hexecuted.symm.trans hexecuted')
    have hchars : text.toList ++ (String.join (executed.map Log.line)).toList =
        text.toList ++ added.toList := by
      rw [← String.toList_append, ← String.toList_append, ← hlog, hlog']
    rw [← String.toList_injective (List.append_cancel_left hchars)] at hlines
    exact Log.lines_eq_iff.mp hlines
  · exact fun h => ⟨_, executed, hlog, hexecuted, Log.lines_eq_iff.mpr h⟩

/-- **Statements can be read back from the log.**  A bootstrap of a database in memory adds a line to
the log for each statement that it executes.  The statements are read back from what was added
exactly if each of them is a line, and they are when the texts of the compiler are on one line. -/
theorem bootstrap_readable
    (h : c.bootstrap Database.session Log.lines db text = (.ok report, p)) :
    (∃ executed, p.session.executed = db.executed ++ executed ∧
      p.log = text ++ String.join (executed.map Log.line) ∧
      (ReadsBack db text p ↔ ∀ sql ∈ executed, Log.IsLine sql)) ∧
    (c.OneLine → ReadsBack db text p) := by
  obtain ⟨ss, left, ⟨plan, hplan, hpass⟩, hexecuted, hlog⟩ := bootstrap_lines h
  have hiff := readsBack_iff hexecuted hlog
  exact ⟨⟨_, hexecuted, hlog, hiff⟩,
    fun hline => hiff.mpr (isLine_of_pass hline hplan hpass)⟩

/-- A compiler for one class, with the type of its attribute and an expression to index. -/
def indexedLogin (typeName expression : String) : Compiler where
  directory :=
    { attributes := Directory.defineAttribute .empty
        { names := ["login"], sql := some (.all (.plain typeName)) }
      classes := Directory.defineClass .empty { names := ["account"], may := ["login", "uid"] } }
  policy := { mysql := { tables := .ofPairs [("account", { custom := [expression] })] } }

theorem oneLine_indexedLogin {typeName expression : String}
    (htype : (TypeEntry.plain typeName).OneLine) (hexpression : Text.Unbroken expression) :
    (indexedLogin typeName expression).OneLine := by
  have hpath : Text.Unbroken "$.v" := by decide
  refine ⟨⟨fun a ha => ?_, fun cls hcls => ?_⟩, ⟨fun _ he => (by cases he),
    fun _ he => (by cases he), hpath⟩, fun _ ht => (by cases ht), fun entry he sql hsql => ?_⟩
  · obtain rfl := List.mem_singleton.mp ha
    exact ⟨(by decide : Text.Unbroken "login"),
      fun types e => by cases e; exact DialectTypes.oneLine_all htype⟩
  · obtain rfl := List.mem_singleton.mp hcls
    exact ⟨by decide, by decide, by decide⟩
  · obtain rfl := List.mem_singleton.mp he
    exact List.mem_singleton.mp hsql ▸ hexpression

/-- The table is there, and lacks two columns. -/
def accountTable : Database :=
  { catalog := Catalog.empty.withTable "account" ["doc_id", "objectClass", "dn"] }

theorem bootstrap_readable_indexedLogin :
    ∃ report p, (indexedLogin "CHAR(32)" "lower(`login`)").bootstrap Database.session Log.lines
        accountTable "" = (.ok report, p) ∧
      p.session.executed = ["ALTER TABLE `account` ADD COLUMN `login` CHAR(32)",
        "ALTER TABLE `account` ADD COLUMN `uid` TEXT",
        "CREATE INDEX `account_CustomIdx1` ON `account`((lower(`login`)))"] ∧
      ReadsBack accountTable "" p := by
  have hrun : (indexedLogin "CHAR(32)" "lower(`login`)").bootstrap Database.session Log.lines
        accountTable "" = (.ok _, _) := rfl
  have htype : (TypeEntry.plain "CHAR(32)").OneLine :=
    TypeEntry.oneLine_plain (by decide) rfl (by decide) (by decide)
  exact ⟨_, _, hrun, by decide +kernel,
    (bootstrap_readable hrun).2 (oneLine_indexedLogin htype (by decide))⟩

theorem not_readsBack {db : Database} (hdb : db.executed = [])
    (h : c.bootstrap Database.session Log.lines db text = (.ok report, p))
    (hnot : ¬ ∀ sql ∈ p.session.executed, Log.IsLine sql) : ¬ ReadsBack db text p := by
  obtain ⟨ss, left, -, hexecuted, hlog⟩ := bootstrap_lines h
  rw [readsBack_iff hexecuted hlog]
  rwa [hexecuted, hdb] at hnot

/-- Not every bootstrap can be read back: a line feed in an expression makes two lines of a
statement, and a type without a name leaves a blank at the end of one. -/
theorem not_bootstrap_readable :
    (∃ report p, (indexedLogin "CHAR(32)" "lower(\n`login`)").bootstrap Database.session Log.lines
      accountTable "" = (.ok report, p) ∧ ¬ ReadsBack accountTable "" p) ∧
    ∃ report p, (indexedLogin "" "lower(`login`)").bootstrap Database.session Log.lines
      accountTable "" = (.ok report, p) ∧ ¬ ReadsBack accountTable "" p := by
  have hbroken : (indexedLogin "CHAR(32)" "lower(\n`login`)").bootstrap Database.session Log.lines
      accountTable "" = (.ok _, _) := rfl
  have hblank : (indexedLogin "" "lower(`login`)").bootstrap Database.session Log.lines
      accountTable "" = (.ok _, _) := rfl
  exact ⟨⟨_, _, hbroken, not_readsBack rfl hbroken (by decide +kernel)⟩,
    ⟨_, _, hblank, not_readsBack rfl hblank (by decide +kernel)⟩⟩

end Compiler

end DirectoryTables
