import DirectoryTables.Proofs.Bootstrap.Convergence
import DirectoryTables.Proofs.Bootstrap.Interruption

/-!
# Bootstrap — Resumption

A bootstrap that was interrupted, by a call of the session or of the log that failed, and a later
one on the database it left (`Compiler.leftBy`).  Together they end with the catalog of one
bootstrap that was not interrupted, but for one index (`bootstrap_resumes`): the index of a
subtable comes with the subtable, so it stays missing where the interruption fell between the
two (`Compiler.Unfinished`).
-/

namespace DirectoryTables

namespace Bootstrap

variable {b : Backend} {cfg : Config} {c c' : Catalog} {name : String} {steps : List Step}
  {ss : List Statement}

/-! ### The index of a subtable -/

/-- A table that is there has the index of a subtable. -/
def Indexed (b : Backend) (name : String) (c : Catalog) : Prop :=
  c.hasTable name = true → c.hasIndex name (b.fit (name ++ "Idx")) = true

/-- A subtable that a step creates gets its index in the same step. -/
theorem Step.indexed_of_applyAll {x : Step} (h : c.applyAll (x.statements b cfg c) = .ok c')
    (hx : x.Spares name) (hc : Indexed b name c) : Indexed b name c' := by
  intro ht'
  by_cases ht : c.hasTable name = true
  · exact (Catalog.grows_of_applyAll h).hasIndex (hc ht)
  · -- the table is new, so the step is about it
    have htarget : name = x.target := by
      by_contra hne
      have hsame : c'.table? name = c.table? name := Catalog.table?_of_applyAll h
        fun s hs => table_of_mem hs ▸ hne
      rw [Catalog.hasTable, hsame] at ht'
      exact ht ht'
    cases x with
    | table t => exact absurd htarget.symm hx
    | index statement => exact absurd htarget.symm hx
    | subtable s =>
      obtain rfl : name = s.name := htarget
      rw [statements, if_neg ht] at h
      obtain ⟨c₁, -, h₁⟩ := Catalog.applyAll_cons_eq_ok_iff.mp h
      rw [Catalog.applyAll_singleton] at h₁
      obtain ⟨t, -, -, -, rfl⟩ := Catalog.createIndex_eq_ok_iff.mp h₁
      have hset := Catalog.table?_set_self c₁ s.name (t.withIndex (b.fit s.indexName))
      refine (Catalog.hasIndex_of_table? hset _).trans ?_
      rw [CatalogTable.hasIndex_withIndex]
      simp [Subtable.indexName]

/-- A subtable that the steps of a pass create has its index at the end. -/
theorem Pass.indexed (h : Pass b cfg steps c ss c') (hs : ∀ x ∈ steps, x.Spares name)
    (hc : Indexed b name c) : Indexed b name c' := by
  induction h with
  | nil => exact hc
  | cons happ _ ih =>
    exact ih (fun y hy => hs y (List.mem_cons_of_mem _ hy))
      (Step.indexed_of_applyAll happ (hs _ List.mem_cons_self) hc)

/-- Steps that spare a table that is there create no index on it. -/
theorem Pass.sparesIndexes (h : Pass b cfg steps c ss c') (hs : ∀ x ∈ steps, x.Spares name)
    (ht : c.hasTable name = true) : ∀ s ∈ ss, s.SparesIndexes name := by
  induction h with
  | nil => intro s hmem; cases hmem
  | cons happ _ ih =>
    intro s hmem
    obtain hmem | hmem := List.mem_append.mp hmem
    · exact (hs _ List.mem_cons_self).sparesIndexes ht hmem
    · exact ih (fun y hy => hs y (List.mem_cons_of_mem _ hy))
        ((Catalog.grows_of_applyAll happ).hasTable ht) s hmem

/-- A table that is there gets no index from steps that spare it. -/
theorem Pass.hasIndex_of_spares (h : Pass b cfg steps c ss c') (hs : ∀ x ∈ steps, x.Spares name)
    (ht : c.hasTable name = true) (index : String) :
    c'.hasIndex name index = c.hasIndex name index :=
  Catalog.hasIndex_of_applyAll h.applyAll (h.sparesIndexes hs ht) ht index

end Bootstrap

namespace Compiler

open Bootstrap

variable {c : Compiler} {plan : Plan} {start left straight resumed : Catalog}
  {ss ss' : List Statement}

/-! ### A pass on what an interrupted one left -/

/-- The steps of a plan spare every table that is not planned as such. -/
theorem spares_steps {name : String} (h : ∀ t ∈ plan.tables, t.name ≠ name) :
    ∀ x ∈ c.steps plan, x.Spares name := by
  intro x hx
  obtain ⟨t, ht, rfl⟩ | ⟨s, -, rfl⟩ | ⟨statement, hs, rfl⟩ := mem_steps_iff.mp hx
  · exact h t ht
  · trivial
  · obtain ⟨t, ht, hindexes⟩ := Indexing.exists_indexes_of_mem hs
    exact fun e => h t ht (hindexes.table_eq.symm.trans e)

/-- A pass on a catalog that an interrupted pass left ends where the whole pass does, or lacks the
index of one subtable. -/
theorem resume (hplan : c.plan = .ok plan)
    (h : Pass c.config.backend c.config (c.steps plan) start ss straight)
    (hm : start.Midway ss left) :
    ∃ ss' resumed, Pass c.config.backend c.config (c.steps plan) left ss' resumed ∧
      (resumed = straight ∨ ∃ s ∈ plan.subtables, start.hasTable s.name = false ∧
        (∀ t ∈ plan.tables, t.name ≠ s.name) ∧ left.hasTable s.name = true ∧
        Catalog.AddsIndex s.name (c.config.backend.fit s.indexName) resumed straight) := by
  have ho := ordered_steps hplan
  have hsteps : c.steps plan = plan.tables.map Step.table ++ (plan.subtables.map Step.subtable ++
      (c.indexPlan plan.tables).map Step.index) := List.append_assoc _ _ _
  have hspares := @spares_steps c plan
  rw [hsteps] at h ho hspares ⊢
  obtain ⟨hotables, horest⟩ := ho.of_append
  rw [List.append_nil] at horest
  obtain ⟨ss₁, c₁, ss₂, h₁, h₂, rfl⟩ := h.of_append
  have hset : ∀ y ∈ plan.tables.map Step.table, y.Settled c.config.backend c₁ :=
    h₁.settled hotables fun y hy => by cases hy
  obtain hm | hm := hm.of_append h₁.applyAll
  · -- interrupted among the tables
    have hno : ∀ s, Step.subtable s ∉ plan.tables.map Step.table := by
      intro s hs
      obtain ⟨t, -, e⟩ := List.mem_map.mp hs
      cases e
    obtain ⟨ss', m', hm', rfl | ⟨s, hs, -⟩⟩ := h₁.resume hotables (fun y hy => by cases hy)
      (fun s hs => absurd hs (hno s)) hm
    · exact ⟨_, straight, hm'.append h₂, .inl rfl⟩
    · exact absurd hs (hno s)
  · -- interrupted after the tables: they are there, so none of them has the name of a subtable
    -- that was created later
    have hplanned : ∀ s : Subtable, c₁.hasTable s.name = false →
        ∀ t ∈ plan.tables, t.name ≠ s.name := by
      intro s hs t ht e
      have : c₁.hasTable t.name = true := (hset _ (List.mem_map_of_mem ht)).1
      rw [e, hs] at this
      cases this
    have htables : Pass c.config.backend c.config (plan.tables.map Step.table) left [] left :=
      .of_settled fun y hy => (hset y hy).mono hm.start_grows
    obtain ⟨ss', m', hm', hend⟩ := h₂.resume horest hset
      (fun s _ hs x hx => hspares (hplanned s hs) x (List.mem_append_right _ hx)) hm
    refine ⟨_, m', htables.append hm', hend.imp_right ?_⟩
    rintro ⟨s, hs, hno, ht, hadds⟩
    obtain hs | hs := List.mem_append.mp hs
    · obtain ⟨s', hmem, e⟩ := List.mem_map.mp hs
      cases e
      exact ⟨s, hmem, h₁.grows.hasTable_eq_false hno, hplanned s hno, ht, hadds⟩
    · obtain ⟨statement, -, e⟩ := List.mem_map.mp hs
      cases e

/-! ### Interrupted bootstraps -/

section Interrupted

variable {τ τ₁ τ₂ : Type} {log₁ : Log τ₁} {log₂ : Log τ₂}

/-- The database that a bootstrap leaves in which those calls fail, without an effect, for which
`fails` gives an error. -/
def leftBy (c : Compiler) (fails : Nat → Call → Option SessionError) (log : Log τ) (db : Database)
    (t : τ) : Database :=
  (c.bootstrap (Database.session.interrupted fails) log (db, 0) t).2.session.1

/-- The interrupted bootstrap created a subtable, and not its index. -/
structure Unfinished (c : Compiler) (plan : Plan) (start left : Catalog) (s : Subtable) : Prop where
  planned : s ∈ plan.subtables
  /-- The subtable was not there, -/
  absent : start.hasTable s.name = false
  /-- no planned table goes by its name, -/
  noTable : ∀ t ∈ plan.tables, t.name ≠ s.name
  /-- it is there now, -/
  present : left.hasTable s.name = true
  /-- but its index is not. -/
  noIndex : left.hasIndex s.name (c.config.backend.fit s.indexName) = false

/-- An interrupted bootstrap leaves the catalog after some of the first statements of the pass. -/
theorem midway_leftBy (hplan : c.plan = .ok plan) {db : Database}
    (h : Pass c.config.backend c.config (c.steps plan) db.catalog ss straight)
    (fails : Nat → Call → Option SessionError) (log : Log τ) (t : τ) :
    db.catalog.Midway ss (c.leftBy fails log db t).catalog := by
  obtain ⟨changes, indexes, hcourse, -⟩ := course_of_pass h
  rw [leftBy, bootstrap_session hplan]
  exact Migration.run_interrupted hcourse rfl

/-- What is missing after an interrupted pass and another one: the index of each subtable that the
first left unfinished. -/
theorem resumed_iff (hplan : c.plan = .ok plan)
    (h : Pass c.config.backend c.config (c.steps plan) start ss straight)
    (hm : start.Midway ss left)
    (h' : Pass c.config.backend c.config (c.steps plan) left ss' resumed) (name : String) :
    resumed.hasTable name = straight.hasTable name ∧
      resumed.columns name = straight.columns name ∧
      ∀ index, resumed.hasIndex name index = true ↔ straight.hasIndex name index = true ∧
        ¬ ∃ s, c.Unfinished plan start left s ∧ name = s.name ∧
          index = c.config.backend.fit s.indexName := by
  have hmade : ∀ s, c.Unfinished plan start left s →
      straight.hasIndex s.name (c.config.backend.fit s.indexName) = true := by
    intro s hs
    have hstart : Indexed c.config.backend s.name start := fun ht => by
      rw [hs.absent] at ht
      cases ht
    exact h.indexed (spares_steps hs.noTable) hstart ((hm.grows h.applyAll).hasTable hs.present)
  have hmissing : ∀ s, c.Unfinished plan start left s →
      ¬ resumed.hasIndex s.name (c.config.backend.fit s.indexName) = true := by
    intro s hs hi
    rw [h'.hasIndex_of_spares (spares_steps hs.noTable) hs.present, hs.noIndex] at hi
    cases hi
  obtain ⟨ss'', r, hr, hend⟩ := resume hplan h hm
  cases (h'.unique hr).2
  -- in either case an unfinished subtable has its index in the one catalog and not in the other
  obtain rfl | ⟨s, hs, hno, hplanned, ht, hadds⟩ := hend
  · refine ⟨rfl, rfl, fun index => (and_iff_left ?_).symm⟩
    rintro ⟨s, hs, rfl, rfl⟩
    exact hmissing s hs (hmade s hs)
  · have hunfinished : c.Unfinished plan start left s := by
      refine ⟨hs, hno, hplanned, ht, Bool.eq_false_iff.mpr fun hi => ?_⟩
      exact ((hadds.hasIndex_iff _ _).mp (h'.grows.hasIndex hi)).2 ⟨rfl, rfl⟩
    refine ⟨hadds.hasTable name, hadds.columns name, fun index => ?_⟩
    rw [hadds.hasIndex_iff]
    refine and_congr_right fun hin => not_congr ⟨?_, ?_⟩
    · rintro ⟨rfl, rfl⟩
      exact ⟨s, hunfinished, rfl, rfl⟩
    · rintro ⟨s', hs', rfl, rfl⟩
      by_contra hne
      exact hmissing s' hs' ((hadds.hasIndex_iff _ _).mpr ⟨hin, hne⟩)

/-- **An interrupted bootstrap can be resumed.**  Whatever calls failed, a bootstrap of the
database that was left succeeds, and so does one of the database that the interrupted one started
on.  They end with the same tables with the same columns, and with the same indexes, except that
the first lacks the index of each subtable that was left unfinished. -/
theorem bootstrap_resumes (hplan : c.plan = .ok plan) (hlog₁ : log₁.Reliable)
    (hlog₂ : log₂.Reliable) (fails : Nat → Call → Option SessionError) (log : Log τ)
    (db : Database) (t : τ) (t₁ : τ₁) (t₂ : τ₂) :
    ∃ report₁ p₁ report₂ p₂,
      c.bootstrap Database.session log₁ (c.leftBy fails log db t) t₁ = (.ok report₁, p₁) ∧
      c.bootstrap Database.session log₂ db t₂ = (.ok report₂, p₂) ∧
      ∀ name, p₁.session.catalog.hasTable name = p₂.session.catalog.hasTable name ∧
        p₁.session.catalog.columns name = p₂.session.catalog.columns name ∧
        ∀ index, p₁.session.catalog.hasIndex name index = true ↔
          p₂.session.catalog.hasIndex name index = true ∧
            ¬ ∃ s, c.Unfinished plan db.catalog (c.leftBy fails log db t).catalog s ∧
              name = s.name ∧ index = c.config.backend.fit s.indexName := by
  obtain ⟨report₁, ss₁, resumed, h₁, hrun₁, -⟩ :=
    bootstrap_eq hplan hlog₁ (c.leftBy fails log db t) t₁
  obtain ⟨report₂, ss₂, straight, h₂, hrun₂, -⟩ := bootstrap_eq hplan hlog₂ db t₂
  exact ⟨report₁, _, report₂, _, hrun₁, hrun₂,
    resumed_iff hplan h₂ (midway_leftBy hplan h₂ fails log t) h₁⟩

/-- The connection is lost when the index of the subtable of `mailing` is asked for. -/
def mailingFails : Nat → Call → Option SessionError := fun _ call =>
  if call = .indexExists "gluuPerson_mail" "gluuPerson_mailIdx" then
    some (.backend "connection lost")
  else none

theorem bootstrap_resumes_mailing :
    mailing.plan = .ok mailingPlan ∧ Log.memory.Reliable ∧
      ∃ report₁ p₁ report₂ p₂,
        mailing.bootstrap Database.session Log.memory
            (mailing.leftBy mailingFails Log.memory {} []) [] = (.ok report₁, p₁) ∧
        mailing.bootstrap Database.session Log.memory {} [] = (.ok report₂, p₂) ∧
        ∀ name, p₁.session.catalog.hasTable name = p₂.session.catalog.hasTable name ∧
          p₁.session.catalog.columns name = p₂.session.catalog.columns name := by
  have hplan : mailing.plan = .ok mailingPlan := rfl
  obtain ⟨report₁, p₁, report₂, p₂, h₁, h₂, h⟩ :=
    bootstrap_resumes hplan Log.memory_reliable Log.memory_reliable mailingFails Log.memory {} []
      [] []
  exact ⟨hplan, Log.memory_reliable, report₁, p₁, report₂, p₂, h₁, h₂,
    fun name => ⟨(h name).1, (h name).2.1⟩⟩

/-- Resumed bootstraps do not always end with the same catalog: the index of a subtable is lost
when the interruption falls between the subtable and its index. -/
theorem not_resumes_exactly :
    ¬ ∀ (c : Compiler) (plan : Plan), c.plan = .ok plan →
      ∀ (db : Database) (fails : Nat → Call → Option SessionError) (name index : String),
        (c.bootstrap Database.session Log.memory (c.leftBy fails Log.memory db [])
            []).2.session.catalog.hasIndex name index =
          (c.bootstrap Database.session Log.memory db []).2.session.catalog.hasIndex name
            index := by
  intro h
  have hlost := h mailing mailingPlan rfl {} mailingFails "gluuPerson_mail" "gluuPerson_mailIdx"
  have hresumed : (mailing.bootstrap Database.session Log.memory
      (mailing.leftBy mailingFails Log.memory {} []) []).2.session.catalog.hasIndex
        "gluuPerson_mail" "gluuPerson_mailIdx" = false := rfl
  have hstraight : (mailing.bootstrap Database.session Log.memory {}
      []).2.session.catalog.hasIndex "gluuPerson_mail" "gluuPerson_mailIdx" = true := rfl
  rw [hresumed, hstraight] at hlost
  cases hlost

end Interrupted

end Compiler

end DirectoryTables
