import DirectoryTables.Migration.Run

/-!
# Migrations — Projection

Sessions and logs that keep more in their states than others do, such as those that keep what they
were asked.  A function on states *projects* one session onto another when each call has the same
answer on both, and leaves the projection of the state (`Session.Projects`, `Log.Projects`).  A run
then has the same result on both, and leaves the projection of the progress (`run_of_projects`).
-/

namespace DirectoryTables

variable {σ σ' τ τ' α : Type}

/-- Seen through `f`, each call of a migration to `session` is the call to `session'`. -/
structure Session.Projects (f : σ → σ') (session : Session σ) (session' : Session σ') :
    Prop where
  execute : ∀ sql statement s, session'.execute sql statement (f s) =
    ((session.execute sql statement s).1, f (session.execute sql statement s).2)
  tableExists : ∀ table s, session'.tableExists table (f s) =
    ((session.tableExists table s).1, f (session.tableExists table s).2)
  tableColumns : ∀ table s, session'.tableColumns table (f s) =
    ((session.tableColumns table s).1, f (session.tableColumns table s).2)
  indexExists : ∀ table index s, session'.indexExists table index (f s) =
    ((session.indexExists table index s).1, f (session.indexExists table index s).2)

/-- Seen through `g`, each call to `log` is the call to `log'`. -/
structure Log.Projects (g : τ → τ') (log : Log τ) (log' : Log τ') : Prop where
  record : ∀ sql t, log'.record sql (g t) = ((log.record sql t).1, g (log.record sql t).2)
  flush : ∀ t, log'.flush (g t) = ((log.flush t).1, g (log.flush t).2)

theorem Session.projects_id (session : Session σ) : Projects id session session :=
  ⟨fun _ _ _ => rfl, fun _ _ => rfl, fun _ _ => rfl, fun _ _ _ => rfl⟩

theorem Log.projects_id (log : Log τ) : Projects id log log := ⟨fun _ _ => rfl, fun _ => rfl⟩

/-- The progress with both states projected. -/
def Progress.map (f : σ → σ') (g : τ → τ') (p : Progress σ τ) : Progress σ' τ' :=
  { session := f p.session, log := g p.log, issued := p.issued }

namespace Migration

variable {f : σ → σ'} {g : τ → τ'} {session : Session σ} {session' : Session σ'} {log : Log τ}
  {log' : Log τ'} {b : Backend}

theorem runStatement_of_projects (hs : Session.Projects f session session')
    (hl : Log.Projects g log log') (statement : Statement) (p : Progress σ τ) :
    runStatement b session' log' statement (p.map f g) =
      ((runStatement b session log statement p).1,
        (runStatement b session log statement p).2.map f g) := by
  simp only [runStatement, Progress.map, hs.execute, hl.record]
  split <;> rfl

theorem runQuestion_of_projects {ask : σ → Except SessionError α × σ}
    {ask' : σ' → Except SessionError α × σ'} (h : ∀ s, ask' (f s) = ((ask s).1, f (ask s).2))
    (p : Progress σ τ) :
    runQuestion ask' (p.map f g) = ((runQuestion ask p).1, (runQuestion ask p).2.map f g) := by
  simp only [runQuestion, Progress.map, h]

/-- **A run is projected call by call.** -/
theorem run_of_projects (hs : Session.Projects f session session')
    (hl : Log.Projects g log log') (m : Migration α) (p : Progress σ τ) :
    m.run b session' log' (p.map f g) =
      ((m.run b session log p).1, (m.run b session log p).2.map f g) := by
  induction m generalizing p with
  | done a => rfl
  | issue statement next ih =>
    rw [run, run, runStatement_of_projects hs hl]
    rcases runStatement b session log statement p with ⟨_ | _, p'⟩
    · rfl
    · exact ih p'
  | askTable table next ih =>
    rw [run, run, runQuestion_of_projects (hs.tableExists table)]
    rcases runQuestion (session.tableExists table) p with ⟨_ | x, p'⟩
    · rfl
    · exact ih x p'
  | askColumns table next ih =>
    rw [run, run, runQuestion_of_projects (hs.tableColumns table)]
    rcases runQuestion (session.tableColumns table) p with ⟨_ | x, p'⟩
    · rfl
    · exact ih x p'
  | askIndex table index next ih =>
    rw [run, run, runQuestion_of_projects (hs.indexExists table index)]
    rcases runQuestion (session.indexExists table index) p with ⟨_ | x, p'⟩
    · rfl
    · exact ih x p'

end Migration

end DirectoryTables
