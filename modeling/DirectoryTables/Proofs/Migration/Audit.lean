import DirectoryTables.Proofs.Migration.Attempt

/-!
# Migrations — Audit

What a log holds after a migration.  Each statement is handed to the log right after it was handed
to the session, whatever either of them answered, and nothing else is: the log can be told from the
events of the session alone.

* `Progress.Audited`: the log and the count are those of the events in between.
* `audited_run`: they are after any run, on every session and with every log.
* `Operation`: what can be asked of a session through migrations, one operation at a time.
* `Operation.audited_carryOut`: the log and the count after operations, failed ones included.
* `Operation.skipped`: an operation without a statement leaves both as they were.
-/

namespace DirectoryTables

variable {α σ τ : Type}

/-! ### Texts handed over and recorded -/

/-- The texts of the statements handed to the session. -/
def Event.texts (events : List Event) : List String :=
  (handed events).map Prod.fst

theorem Event.texts_append (events events' : List Event) :
    texts (events ++ events') = texts events ++ texts events' := by
  simp only [texts, handed, List.filterMap_append, List.map_append]

/-- The log after texts were handed to it, one after another. -/
def Log.recordTexts (log : Log τ) (sqls : List String) (t : τ) : τ :=
  sqls.foldl (fun t sql => (log.record sql t).2) t

theorem Log.recordTexts_append (log : Log τ) (sqls sqls' : List String) (t : τ) :
    log.recordTexts (sqls ++ sqls') t = log.recordTexts sqls' (log.recordTexts sqls t) :=
  List.foldl_append

theorem Log.memory_recordTexts (sqls lines : List String) :
    Log.memory.recordTexts sqls lines = lines ++ sqls.map Log.entry := by
  induction sqls generalizing lines with
  | nil => exact (List.append_nil lines).symm
  | cons sql sqls ih =>
    refine (ih (lines ++ [entry sql])).trans ?_
    rw [List.append_assoc, List.singleton_append, List.map_cons]

/-! ### Runs -/

/-- From `p` to `p'` the session met the events, the log was handed the texts of the statements
among them and nothing else, and each of these was counted. -/
structure Progress.Audited (log : Log τ) (p : Progress (σ × List Event) τ) (events : List Event)
    (p' : Progress (σ × List Event) τ) : Prop where
  session : p'.session.2 = p.session.2 ++ events
  log : p'.log = log.recordTexts (Event.texts events) p.log
  issued : p'.issued = p.issued + (Event.texts events).length

namespace Progress.Audited

variable {log : Log τ} {p p₁ p' : Progress (σ × List Event) τ} {events events' : List Event}

theorem refl (log : Log τ) (p : Progress (σ × List Event) τ) : p.Audited log [] p :=
  ⟨(List.append_nil _).symm, rfl, rfl⟩

theorem trans (h : p.Audited log events p₁) (h' : p₁.Audited log events' p') :
    p.Audited log (events ++ events') p' := by
  constructor
  · rw [h'.session, h.session, List.append_assoc]
  · rw [h'.log, h.log, Event.texts_append, Log.recordTexts_append]
  · rw [h'.issued, h.issued, Event.texts_append, List.length_append, Nat.add_assoc]

theorem exists_trans (h : p.Audited log events p₁) (h' : ∃ events', p₁.Audited log events' p') :
    ∃ events, p.Audited log events p' :=
  let ⟨_, h'⟩ := h'
  ⟨_, h.trans h'⟩

end Progress.Audited

namespace Migration

variable {b : Backend} {session : Session σ} {log : Log τ}

theorem audited_runStatement (b : Backend) (session : Session σ) (log : Log τ) (s : Statement)
    (p : Progress (σ × List Event) τ) :
    ∃ answer, p.Audited log [.executed (b.render s) s answer]
      (runStatement b session.recorded log s p).2 := by
  refine ⟨(session.execute (b.render s) s p.session.1).1, ?_⟩
  simp only [runStatement, Session.recorded]
  split <;> exact ⟨rfl, rfl, rfl⟩

theorem audited_runQuestion (ask : σ × List Event → Except SessionError α × (σ × List Event))
    (event : Except SessionError α → Event) (hask : ∀ s, (ask s).2.2 = s.2 ++ [event (ask s).1])
    (hevent : ∀ answer, Event.texts [event answer] = []) (log : Log τ)
    (p : Progress (σ × List Event) τ) :
    ∃ answer, p.Audited log [event answer] (runQuestion ask p).2 := by
  refine ⟨(ask p.session).1, hask p.session, ?_, ?_⟩
  · rw [hevent]; rfl
  · rw [hevent]; rfl

/-- **The log is that of the events.**  A run hands to the log what it hands to the session, whatever
either of them answers. -/
theorem audited_run (b : Backend) (session : Session σ) (log : Log τ) (m : Migration α)
    (p : Progress (σ × List Event) τ) :
    ∃ events, p.Audited log events (m.run b session.recorded log p).2 := by
  -- A call that fails ends the run right after its event.
  induction m generalizing p with
  | done a => exact ⟨[], .refl log p⟩
  | issue s next ih =>
    obtain ⟨answer, h⟩ := audited_runStatement b session log s p
    rw [run]
    generalize runStatement b session.recorded log s p = call at h
    rcases call with ⟨_ | _, p₁⟩
    · exact ⟨_, h⟩
    · exact h.exists_trans (ih p₁)
  | askTable t next ih =>
    obtain ⟨answer, h⟩ := audited_runQuestion (session.recorded.tableExists t) (.askedTable t)
      (fun _ => rfl) (fun _ => rfl) log p
    rw [run]
    generalize runQuestion (session.recorded.tableExists t) p = call at h
    rcases call with ⟨_ | x, p₁⟩
    · exact ⟨_, h⟩
    · exact h.exists_trans (ih x p₁)
  | askColumns t next ih =>
    obtain ⟨answer, h⟩ := audited_runQuestion (session.recorded.tableColumns t) (.askedColumns t)
      (fun _ => rfl) (fun _ => rfl) log p
    rw [run]
    generalize runQuestion (session.recorded.tableColumns t) p = call at h
    rcases call with ⟨_ | x, p₁⟩
    · exact ⟨_, h⟩
    · exact h.exists_trans (ih x p₁)
  | askIndex t i next ih =>
    obtain ⟨answer, h⟩ := audited_runQuestion (session.recorded.indexExists t i) (.askedIndex t i)
      (fun _ => rfl) (fun _ => rfl) log p
    rw [run]
    generalize runQuestion (session.recorded.indexExists t i) p = call at h
    rcases call with ⟨_ | x, p₁⟩
    · exact ⟨_, h⟩
    · exact h.exists_trans (ih x p₁)

/-- Where the migration ends with `false`, no statement has been issued, be it before (`issued`) or
by the migration. -/
def Tells : Migration Bool → (issued : Bool) → Prop
  | done a, issued => issued = true → a = true
  | issue _ next, _ => next.Tells true
  | askTable _ next, issued => ∀ x, (next x).Tells issued
  | askColumns _ next, issued => ∀ x, (next x).Tells issued
  | askIndex _ _ next, issued => ∀ x, (next x).Tells issued

theorem Tells.run_false {m : Migration Bool} {issued : Bool} {p p' : Progress σ τ}
    (h : m.Tells issued) (hrun : m.run b session log p = (.ok false, p')) :
    issued = false ∧ p'.log = p.log ∧ p'.issued = p.issued := by
  induction m generalizing issued p with
  | done a =>
    cases hrun
    exact ⟨Bool.eq_false_iff.mpr fun hissued => Bool.false_ne_true (h hissued), rfl, rfl⟩
  | issue s next ih =>
    rw [run] at hrun
    split at hrun
    · exact absurd (ih h hrun).1 Bool.true_eq_false.mp
    · cases hrun
  | askTable t next ih | askColumns t next ih | askIndex t i next ih =>
    rw [run] at hrun
    split at hrun
    · next x p₁ hcall =>
      -- A question leaves the log and the count alone.
      obtain ⟨-, rfl⟩ := Prod.ext_iff.mp hcall
      have hrest := ih x (h x) hrun
      exact hrest
    · cases hrun

end Migration

/-! ### Operations -/

/-- What can be asked of a session through migrations, one operation at a time. -/
inductive Operation where
  | execute (statement : Statement)
  | addColumn (table : String) (column : ColumnDef)
  | createTableIfAbsent (t : CreateTable)
  | createIndexIfAbsent (i : CreateIndex)
  | applyIfAbsent (statement : Statement)
  | tableExists (table : String)
  | tableColumns (table : String)
  | columnExists (table column : String)
  | indexExists (table index : String)

namespace Operation

variable {b : Backend} {session : Session σ} {log : Log τ} {operation : Operation}

/-- The operation as a migration, which says whether a statement was issued. -/
def migration (b : Backend) : Operation → Migration Bool
  | execute s => .issue s (.done true)
  | addColumn table column => do
    Migration.addColumn table column
    return true
  | createTableIfAbsent t => .createTableIfAbsent t
  | createIndexIfAbsent i => .createIndexIfAbsent b i
  | applyIfAbsent s => .applyIfAbsent b s
  | tableExists t => .askTable t fun _ => .done false
  | tableColumns t => .askColumns t fun _ => .done false
  | columnExists t c => do
    let _ ← Migration.hasColumn t c
    return false
  | indexExists t i => .askIndex t i fun _ => .done false

theorem tells_migration (b : Backend) (operation : Operation) :
    (operation.migration b).Tells false := by
  have hunless : ∀ (present : Bool) (s : Statement),
      (if present then .done false else .issue s (.done true) : Migration Bool).Tells false := by
    intro present s
    cases present with
    | true => exact fun h => h
    | false => exact fun _ => rfl
  cases operation with
  | execute | addColumn => exact fun _ => rfl
  | createTableIfAbsent t => exact fun present => hunless present _
  | createIndexIfAbsent i => exact fun present => hunless present _
  | applyIfAbsent s =>
    cases s with
    | createTable t => exact fun present => hunless present _
    | createIndex i => exact fun present => hunless present _
    | addColumn a =>
      intro columns
      show (if Text.listsName columns a.column.name then _ else _ : Migration Bool).Tells false
      cases Text.listsName columns a.column.name with
      | true => exact fun h => h
      | false => exact fun _ => rfl
  | tableExists | tableColumns | columnExists | indexExists => exact fun _ h => h

/-- The operations carried out, each on what those before it left, whether they failed or not. -/
def carryOut (b : Backend) (session : Session σ) (log : Log τ) (operations : List Operation)
    (p : Progress σ τ) : Progress σ τ :=
  operations.foldl (fun p operation => ((operation.migration b).run b session log p).2) p

theorem audited_carryOut (b : Backend) (session : Session σ) (log : Log τ)
    (operations : List Operation) (p : Progress (σ × List Event) τ) :
    ∃ events, p.Audited log events (carryOut b session.recorded log operations p) := by
  induction operations generalizing p with
  | nil => exact ⟨[], .refl log p⟩
  | cons operation operations ih =>
    obtain ⟨events, h⟩ := Migration.audited_run b session log (operation.migration b) p
    exact h.exists_trans (ih _)

theorem carryOut_of_projects {σ' τ' : Type} {f : σ → σ'} {g : τ → τ'} {session' : Session σ'}
    {log' : Log τ'} (hs : Session.Projects f session session') (hl : Log.Projects g log log')
    (operations : List Operation) (p : Progress σ τ) :
    carryOut b session' log' operations (p.map f g) =
      (carryOut b session log operations p).map f g := by
  induction operations generalizing p with
  | nil => rfl
  | cons operation operations ih =>
    simp only [carryOut, List.foldl_cons, Migration.run_of_projects hs hl] at ih ⊢
    exact ih _

/-- The calls that operations make of a session, each with its answer. -/
def trace (b : Backend) (session : Session σ) (log : Log τ) (operations : List Operation)
    (p : Progress σ τ) : List Event :=
  (carryOut b session.recorded log operations
    { session := (p.session, []), log := p.log, issued := p.issued }).session.2

/-- **Operations are audited.**  After any operations the log was handed what the session was handed,
and the count is that of these statements. -/
theorem carryOut_audited (b : Backend) (session : Session σ) (log : Log τ)
    (operations : List Operation) (p : Progress σ τ) :
    (carryOut b session log operations p).log =
        log.recordTexts (Event.texts (trace b session log operations p)) p.log ∧
      (carryOut b session log operations p).issued =
        p.issued + (Event.texts (trace b session log operations p)).length := by
  obtain ⟨events, h⟩ := audited_carryOut b session log operations
    { session := (p.session, []), log := p.log, issued := p.issued }
  have hproject := carryOut_of_projects (b := b) session.recorded_projects log.projects_id operations
    { session := (p.session, []), log := p.log, issued := p.issued }
  have htrace : trace b session log operations p = events := h.session
  have hrun : carryOut b session log operations p = _ := hproject
  rw [htrace, hrun]
  exact ⟨h.log, h.issued⟩

/-- An operation that says it issued no statement leaves the log and the count as they were. -/
theorem skipped {p p' : Progress σ τ}
    (h : (operation.migration b).run b session log p = (.ok false, p')) :
    p'.log = p.log ∧ p'.issued = p.issued :=
  ((tells_migration b operation).run_false h).2

end Operation

end DirectoryTables
