import DirectoryTables.Proofs.Bootstrap.Resumption

/-!
# Bootstrap — Additive

What a bootstrap leaves alone, whether it succeeds or fails.  Each statement of a pass comes from
one of its steps and is about the table of that step (`Pass.exists_target`), and every step is
about a planned table or subtable (`Compiler.plans_target`).  So a bootstrap only adds to what was
there, and touches no other table (`bootstrap_additive`).
-/

namespace DirectoryTables

namespace Bootstrap

variable {b : Backend} {cfg : Config} {c c' : Catalog} {steps : List Step} {ss : List Statement}

/-- Each statement of a pass comes from one of its steps. -/
theorem Pass.exists_step (h : Pass b cfg steps c ss c') {s : Statement} (hs : s ∈ ss) :
    ∃ x ∈ steps, ∃ met, s ∈ x.statements b cfg met := by
  induction h with
  | nil => cases hs
  | cons _ _ ih =>
    obtain hs | hs := List.mem_append.mp hs
    · exact ⟨_, List.mem_cons_self, _, hs⟩
    · obtain ⟨x, hx, hmem⟩ := ih hs
      exact ⟨x, List.mem_cons_of_mem _ hx, hmem⟩

/-- Each statement of a pass of one stage comes from one of the items of that stage. -/
theorem Pass.exists_item {α : Type} {f : α → Step} {items : List α}
    (h : Pass b cfg (items.map f) c ss c') {s : Statement} (hs : s ∈ ss) :
    ∃ item ∈ items, ∃ met, s ∈ (f item).statements b cfg met := by
  obtain ⟨x, hx, met, hmem⟩ := h.exists_step hs
  obtain ⟨item, hitem, rfl⟩ := List.mem_map.mp hx
  exact ⟨item, hitem, met, hmem⟩

/-- The statements of a pass are about the tables of its steps. -/
theorem Pass.exists_target (h : Pass b cfg steps c ss c') {s : Statement} (hs : s ∈ ss) :
    ∃ x ∈ steps, s.table = x.target := by
  obtain ⟨x, hx, met, hmem⟩ := h.exists_step hs
  exact ⟨x, hx, Step.table_of_mem hmem⟩

end Bootstrap

namespace Compiler

open Bootstrap

variable {τ : Type} {c : Compiler} {plan : Plan}

/-- The name is that of a planned table or of a planned subtable. -/
def Plans (c : Compiler) (name : String) : Prop :=
  ∃ plan, c.plan = .ok plan ∧
    ((∃ t ∈ plan.tables, t.name = name) ∨ ∃ s ∈ plan.subtables, s.name = name)

theorem plans_iff (hplan : c.plan = .ok plan) {name : String} :
    c.Plans name ↔ name ∈ plan.tables.map Table.name ++ plan.subtables.map Subtable.name := by
  rw [List.mem_append, List.mem_map, List.mem_map]
  constructor
  · rintro ⟨plan', hplan', h⟩
    cases hplan.symm.trans hplan'
    exact h
  · exact fun h => ⟨plan, hplan, h⟩

/-- Every step is about a planned table or subtable. -/
theorem plans_target (hplan : c.plan = .ok plan) {x : Step} (hx : x ∈ c.steps plan) :
    c.Plans x.target := by
  refine ⟨plan, hplan, ?_⟩
  obtain ⟨t, ht, rfl⟩ | ⟨s, hs, rfl⟩ | ⟨statement, hs, rfl⟩ := mem_steps_iff.mp hx
  · exact .inl ⟨t, ht, rfl⟩
  · exact .inr ⟨s, hs, rfl⟩
  · obtain ⟨t, ht, hindexes⟩ := Indexing.exists_indexes_of_mem hs
    exact .inl ⟨t, ht, hindexes.table_eq.symm⟩

/-- Statements of a pass for a plan touch no other tables, and neither do the first of them. -/
theorem table?_of_midway (hplan : c.plan = .ok plan) {start left straight : Catalog}
    {ss : List Statement}
    (h : Pass c.config.backend c.config (c.steps plan) start ss straight)
    (hm : start.Midway ss left) {name : String} (hname : ¬ c.Plans name) :
    left.table? name = start.table? name := by
  obtain ⟨ss₁, hissued, happ⟩ := hm
  refine Catalog.table?_of_applyAll happ fun s hs e => hname ?_
  obtain ⟨x, hx, htarget⟩ := h.exists_target (hissued.subset hs)
  rw [e, htarget]
  exact plans_target hplan hx

/-- Without a plan nothing is done. -/
theorem leftBy_of_plan_error {e : ConfigError} (h : c.plan = .error e)
    (fails : Nat → Call → Option SessionError) (log : Log τ) (db : Database) (t : τ) :
    c.leftBy fails log db t = db := by
  simp only [leftBy, bootstrap, h]

/-- **A bootstrap only adds.**  Whatever calls fail, and whatever the log does, each table that was
there has its columns before any new ones and its indexes among any new ones; a table that goes by
the name of no planned table or subtable is as it was; and a new table goes by such a name. -/
theorem bootstrap_additive (c : Compiler) (fails : Nat → Call → Option SessionError) (log : Log τ)
    (db : Database) (t : τ) :
    db.catalog.Grows (c.leftBy fails log db t).catalog ∧
      (∀ name, ¬ c.Plans name →
        (c.leftBy fails log db t).catalog.table? name = db.catalog.table? name) ∧
      ∀ name, (c.leftBy fails log db t).catalog.hasTable name = true →
        db.catalog.hasTable name = false → c.Plans name := by
  have hframe : db.catalog.Grows (c.leftBy fails log db t).catalog ∧ ∀ name, ¬ c.Plans name →
      (c.leftBy fails log db t).catalog.table? name = db.catalog.table? name := by
    cases hplan : c.plan with
    | error e =>
      rw [leftBy_of_plan_error hplan]
      exact ⟨.refl _, fun _ _ => rfl⟩
    | ok plan =>
      obtain ⟨ss, straight, hpass, -⟩ := exists_pass_steps hplan db.catalog
      have hm := midway_leftBy hplan hpass fails log t
      exact ⟨hm.start_grows, fun name hname => table?_of_midway hplan hpass hm hname⟩
  refine ⟨hframe.1, hframe.2, fun name hnew hold => ?_⟩
  -- A table of any other name was there already, since nothing touched it.
  by_contra hname
  rw [Catalog.hasTable, hframe.2 name hname, ← Catalog.hasTable, hold] at hnew
  cases hnew

end Compiler

end DirectoryTables
