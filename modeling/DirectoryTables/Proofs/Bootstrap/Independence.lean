import DirectoryTables.Proofs.Bootstrap.Additive
import DirectoryTables.Proofs.Catalog.Agreement

/-!
# Bootstrap — Independence

What a bootstrap reads and writes.  Everything it asks for and every statement it issues names only
planned tables and subtables of its own (`Compiler.within_steps`); so does the parent of a
subtable, and the table of a shadow column.

* `Pass.agrees`: a pass on a catalog is one, with the same statements, on every catalog that agrees
  on what its steps name.
* `bootstrap_commutes`: bootstraps that plan different names leave the same catalog in both orders.
-/

namespace DirectoryTables

namespace Bootstrap

variable {b : Backend} {cfg : Config} {names : String → Prop} {c c' d : Catalog}
  {steps : List Step} {ss : List Statement}

/-! ### What a step names -/

namespace Step

variable {x : Step}

/-- The step names only these tables: its own, and the parent of a subtable. -/
def Within (names : String → Prop) : Step → Prop
  | table t => names t.name
  | subtable s => names s.name ∧ names s.parent
  | index statement => statement.Within names

/-- The statements of a step name what the step names. -/
theorem within_of_mem (hx : x.Within names) {s : Statement} (hs : s ∈ x.statements b cfg c) :
    s.Within names := by
  cases x with
  | table t =>
    obtain ⟨-, column, -, rfl⟩ | ⟨-, rfl⟩ := mem_statements_table.mp hs
    · exact hx
    · exact ⟨hx, fun parent hp => by cases hp⟩
  | subtable t =>
    obtain ⟨-, column, -, rfl⟩ | ⟨-, rfl | rfl⟩ := mem_statements_subtable.mp hs
    · exact hx.1
    · exact ⟨hx.1, fun parent hp => by cases hp; exact hx.2⟩
    · exact hx.1
  | index statement =>
    obtain ⟨-, rfl⟩ := mem_statements_index.mp hs
    cases statement <;> exact hx

theorem missing_congr (h : c.AgreesOn names d) {name : String} (hn : names name)
    (columns : List Column) : c.missing name columns = d.missing name columns := by
  rw [Catalog.missing, Catalog.missing]
  exact List.filter_congr fun column _ => by rw [h.hasColumn hn]

/-- What a step issues depends on the tables it names, and on nothing else in the catalog. -/
theorem statements_congr (h : c.AgreesOn names d) (hx : x.Within names) :
    x.statements b cfg c = x.statements b cfg d := by
  cases x with
  | table t =>
    have ht : names t.name := hx
    rw [statements, statements, h.hasTable ht, missing_congr h ht]
  | subtable s => rw [statements, statements, h.hasTable hx.1, missing_congr h hx.1]
  | index statement =>
    have hs : statement.Within names := hx
    rw [statements, statements, h.holds hs]

end Step

/-! ### Passes -/

/-- **A pass reads only what its steps name.**  On every catalog that agrees on that, the same
steps issue the same statements, and the catalogs agree at the end. -/
theorem Pass.agrees (h : Pass b cfg steps c ss c') (hs : ∀ x ∈ steps, x.Within names)
    (ha : c.AgreesOn names d) : ∃ d', Pass b cfg steps d ss d' ∧ c'.AgreesOn names d' := by
  induction h generalizing d with
  | nil c => exact ⟨d, .nil d, ha⟩
  | @cons x steps c c₁ c' ss happ _ ih =>
    have hx : x.Within names := hs x List.mem_cons_self
    have hstep : x.statements b cfg c = x.statements b cfg d := Step.statements_congr ha hx
    obtain ⟨d₁, hd₁, ha₁⟩ := ha.applyAll (fun s hmem => Step.within_of_mem hx hmem) happ
    obtain ⟨d', hd', ha'⟩ := ih (fun y hy => hs y (List.mem_cons_of_mem x hy)) ha₁
    rw [hstep] at hd₁ ⊢
    exact ⟨d', .cons hd₁ hd', ha'⟩

end Bootstrap

namespace Compiler

open Bootstrap

variable {c₁ c₂ : Compiler} {plan plan₁ plan₂ : Plan} {start left₁ left₂ : Catalog}
  {ss₁ ss₂ : List Statement}

/-- Every step of a plan names only planned tables and subtables. -/
theorem within_steps {c : Compiler} (hplan : c.plan = .ok plan) {x : Step}
    (hx : x ∈ c.steps plan) : x.Within c.Plans := by
  have htarget : c.Plans x.target := plans_target hplan hx
  obtain ⟨t, -, rfl⟩ | ⟨s, hs, rfl⟩ | ⟨statement, hs, rfl⟩ := mem_steps_iff.mp hx
  · exact htarget
  · obtain ⟨t, ht, hparent⟩ := Plan.exists_parent_of_planned hplan hs
    exact ⟨htarget, plan, hplan, .inl ⟨t, ht, hparent⟩⟩
  · -- a statement that indexes a table creates none, so it names its own table only
    obtain ⟨t, -, hindexes⟩ := Indexing.exists_indexes_of_mem hs
    cases statement with
    | createTable => exact hindexes.elim
    | addColumn => exact htarget
    | createIndex => exact htarget

/-! ### Bootstraps of different names -/

/-- A pass for a plan leaves every table that is not planned as it was. -/
theorem table?_of_pass {c : Compiler} (hplan : c.plan = .ok plan) {ss : List Statement}
    {left : Catalog} (h : Pass c.config.backend c.config (c.steps plan) start ss left)
    {name : String} (hname : ¬ c.Plans name) : left.table? name = start.table? name :=
  table?_of_midway hplan h ⟨ss, List.prefix_refl ss, h.applyAll⟩ hname

/-- A pass is not affected by an earlier one that plans none of its names: it issues what it would
have issued before, and leaves its own tables as it would have left them. -/
theorem exists_pass_after (h₁ : c₁.plan = .ok plan₁) (h₂ : c₂.plan = .ok plan₂)
    (hdisjoint : ∀ name, c₂.Plans name → ¬ c₁.Plans name)
    (hpass₁ : Pass c₁.config.backend c₁.config (c₁.steps plan₁) start ss₁ left₁)
    (hpass₂ : Pass c₂.config.backend c₂.config (c₂.steps plan₂) start ss₂ left₂) :
    ∃ both, Pass c₂.config.backend c₂.config (c₂.steps plan₂) left₁ ss₂ both ∧
      left₂.AgreesOn c₂.Plans both := by
  have hsame : start.AgreesOn c₂.Plans left₁ := fun name hname =>
    (table?_of_pass h₁ hpass₁ (hdisjoint name hname)).symm
  exact hpass₂.agrees (fun x hx => within_steps h₂ hx) hsame

/-- **Independent bootstraps commute.**  If no table or subtable is planned by both compilers, then
on every database in memory the bootstrap of the first followed by that of the second leaves the
same tables, with the same columns in order and the same indexes, as in the other order.  All four
bootstraps succeed with logs that never fail. -/
theorem bootstrap_commutes {τ τ' : Type} {log : Log τ} {log' : Log τ'} (h₁ : c₁.plan = .ok plan₁)
    (h₂ : c₂.plan = .ok plan₂) (hdisjoint : ∀ name, c₁.Plans name → ¬ c₂.Plans name)
    (hlog : log.Reliable) (hlog' : log'.Reliable) (db : Database) (t : τ) (t' : τ') :
    ∃ r₁ p₁ r₁₂ p₁₂ r₂ p₂ r₂₁ p₂₁,
      c₁.bootstrap Database.session log db t = (.ok r₁, p₁) ∧
      c₂.bootstrap Database.session log' p₁.session t' = (.ok r₁₂, p₁₂) ∧
      c₂.bootstrap Database.session log' db t' = (.ok r₂, p₂) ∧
      c₁.bootstrap Database.session log p₂.session t = (.ok r₂₁, p₂₁) ∧
      ∀ name, p₁₂.session.catalog.table? name = p₂₁.session.catalog.table? name := by
  have hdisjoint' : ∀ name, c₂.Plans name → ¬ c₁.Plans name :=
    fun name hname₂ hname₁ => hdisjoint name hname₁ hname₂
  obtain ⟨r₁, ss₁, left₁, hpass₁, hrun₁, -⟩ := bootstrap_eq h₁ hlog db t
  obtain ⟨r₂, ss₂, left₂, hpass₂, hrun₂, -⟩ := bootstrap_eq h₂ hlog' db t'
  obtain ⟨r₁₂, ss₁₂, left₁₂, hpass₁₂, hrun₁₂, -⟩ := bootstrap_eq h₂ hlog'
    (db.after c₁.config.backend ss₁ left₁) t'
  obtain ⟨r₂₁, ss₂₁, left₂₁, hpass₂₁, hrun₂₁, -⟩ := bootstrap_eq h₁ hlog
    (db.after c₂.config.backend ss₂ left₂) t
  have hown₂ : left₂.AgreesOn c₂.Plans left₁₂ := by
    obtain ⟨both, hboth, hagree⟩ := exists_pass_after h₁ h₂ hdisjoint' hpass₁ hpass₂
    rwa [(hpass₁₂.unique hboth).2]
  have hown₁ : left₁.AgreesOn c₁.Plans left₂₁ := by
    obtain ⟨both, hboth, hagree⟩ := exists_pass_after h₂ h₁ hdisjoint hpass₂ hpass₁
    rwa [(hpass₂₁.unique hboth).2]
  refine ⟨r₁, _, r₁₂, _, r₂, _, r₂₁, _, hrun₁, hrun₁₂, hrun₂, hrun₂₁, fun name => ?_⟩
  have hframe₁₂ : ¬ c₂.Plans name → left₁₂.table? name = left₁.table? name :=
    table?_of_pass h₂ hpass₁₂
  have hframe₂₁ : ¬ c₁.Plans name → left₂₁.table? name = left₂.table? name :=
    table?_of_pass h₁ hpass₂₁
  change left₁₂.table? name = left₂₁.table? name
  by_cases hname₁ : c₁.Plans name
  · rw [hframe₁₂ (hdisjoint name hname₁), hown₁ name hname₁]
  · by_cases hname₂ : c₂.Plans name
    · rw [hframe₂₁ hname₁, hown₂ name hname₂]
    · rw [hframe₁₂ hname₂, hframe₂₁ hname₁, table?_of_pass h₁ hpass₁ hname₁,
        table?_of_pass h₂ hpass₂ hname₂]

/-- A compiler for one class, with a column of several values that is indexed by shadow columns. -/
def tagging : Compiler where
  directory :=
    { attributes := Directory.defineAttribute .empty { names := ["tag"], multivalued := true }
      classes := Directory.defineClass .empty { names := ["jansGrp"], may := ["tag"] } }
  config := { version := some { major := 5, minor := 7, patch := 0 } }
  policy := { mysql := { common := { fields := ["tag"] } } }

/-- The plan for `tagging`. -/
def taggingPlan : Plan where
  tables := [{ name := "jansGrp", columns := bookkeeping ++ [⟨"tag", .json⟩] }]

/-- The table of `mailing` is there without the column `uid`, that of `tagging` is not. -/
theorem bootstrap_commutes_tagging :
    mailing.plan = .ok mailingPlan ∧ tagging.plan = .ok taggingPlan ∧
      (∀ name, mailing.Plans name → ¬ tagging.Plans name) ∧ Log.memory.Reliable ∧
      ∃ r₁ p₁ r₁₂ p₁₂ r₂ p₂ r₂₁ p₂₁,
        mailing.bootstrap Database.session Log.memory
          { catalog := Catalog.empty.withTable "gluuPerson" ["doc_id", "DN"] } [] = (.ok r₁, p₁) ∧
        tagging.bootstrap Database.session Log.memory p₁.session [] = (.ok r₁₂, p₁₂) ∧
        tagging.bootstrap Database.session Log.memory
          { catalog := Catalog.empty.withTable "gluuPerson" ["doc_id", "DN"] } [] = (.ok r₂, p₂) ∧
        mailing.bootstrap Database.session Log.memory p₂.session [] = (.ok r₂₁, p₂₁) ∧
        ∀ name, p₁₂.session.catalog.table? name = p₂₁.session.catalog.table? name := by
  have hmailing : mailing.plan = .ok mailingPlan := rfl
  have htagging : tagging.plan = .ok taggingPlan := rfl
  have hdisjoint : ∀ name, mailing.Plans name → ¬ tagging.Plans name := fun name h h' =>
    (show ∀ a ∈ ["gluuPerson", "gluuPerson_mail"], a ∉ ["jansGrp"] by decide) name
      ((plans_iff hmailing).mp h) ((plans_iff htagging).mp h')
  exact ⟨hmailing, htagging, hdisjoint, Log.memory_reliable,
    bootstrap_commutes hmailing htagging hdisjoint Log.memory_reliable Log.memory_reliable _ [] []⟩

end Compiler

end DirectoryTables
