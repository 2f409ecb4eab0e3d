import DirectoryTables.Proofs.Bootstrap.Checks
import DirectoryTables.Proofs.Migration.Attempt

/-!
# Bootstrap — Failure

A bootstrap on a session and with a log that may fail (`bootstrap_breaks_off`).  It is the
beginning of the bootstrap on which nothing fails: it hands over the first of the same statements,
makes no call after the first failure, leaves the catalog of the statements that were accepted, and
reports that failure.
-/

namespace DirectoryTables

namespace Compiler

variable {σ τ τ₀ : Type} {c : Compiler} {plan : Plan} {database : σ → Database}
  {session : Session σ}

/-- What the log answered to the statements that a bootstrap was to record. -/
def logAnswers (c : Compiler) (session : Session σ) (log : Log τ) (s : σ) (t : τ) :
    List (Except FileError Unit) :=
  (c.bootstrap session log.recorded s (t, [])).2.log.2

/-- What occurs in a bootstrap: the calls that it makes of the session, and for each statement what
the log answered. -/
def occurrences (c : Compiler) (session : Session σ) (log : Log τ) (s : σ) (t : τ) :
    List Occurrence :=
  Occurrence.pair (c.trace session log s t) (c.logAnswers session log s t)

/-! ### Bootstraps are attempts -/

/-- A bootstrap on a session and with a log that both keep what they were asked. -/
def recorded (c : Compiler) (session : Session σ) (log : Log τ) (s : σ) (t : τ) :
    Except RunError Report × Progress (σ × List Event) (τ × List (Except FileError Unit)) :=
  c.bootstrap session.recorded log.recorded (s, []) (t, [])

theorem bootstrap_eq_recorded (c : Compiler) (session : Session σ) (log : Log τ) (s : σ) (t : τ) :
    c.bootstrap session log s t = ((c.recorded session log s t).1,
      (c.recorded session log s t).2.map Prod.fst Prod.fst) :=
  bootstrap_of_projects session.recorded_projects log.recorded_projects c (s, []) (t, [])

theorem trace_eq_recorded (c : Compiler) (session : Session σ) (log : Log τ) (s : σ) (t : τ) :
    c.trace session log s t = (c.recorded session log s t).2.session.2 :=
  congrArg (fun run => run.2.session.2)
    (bootstrap_of_projects session.recorded.projects_id log.recorded_projects c (s, []) (t, []))

theorem logAnswers_eq_recorded (c : Compiler) (session : Session σ) (log : Log τ) (s : σ) (t : τ) :
    c.logAnswers session log s t = (c.recorded session log s t).2.log.2 :=
  congrArg (fun run => run.2.log.2)
    (bootstrap_of_projects session.recorded_projects log.recorded.projects_id c (s, []) (t, []))

/-- Flushing the log at the end adds nothing to what was kept, and an error of the migration is that
of the bootstrap. -/
theorem recorded_of_run (hplan : c.plan = .ok plan) {log : Log τ} {s : σ} {t : τ}
    {r : Except RunError (SchemaReport × IndexReport)}
    {p : Progress (σ × List Event) (τ × List (Except FileError Unit))}
    (hrun : (c.migration plan).run c.config.backend session.recorded log.recorded
      { session := (s, []), log := (t, []) } = (r, p)) :
    (c.recorded session log s t).2.session = p.session ∧
      (c.recorded session log s t).2.log.2 = p.log.2 ∧
      ∀ error, r = .error error → (c.recorded session log s t).1 = .error error := by
  simp only [recorded, bootstrap, hplan, hrun]
  cases r with
  | error e => exact ⟨rfl, rfl, fun error h => by cases h; rfl⟩
  | ok reports =>
    simp only [Log.recorded]
    cases (log.flush p.log.1).1 <;> exact ⟨rfl, rfl, fun error h => by cases h⟩

/-- A bootstrap on a session that fails cleanly is an attempt at its migration. -/
theorem exists_attempt (hplan : c.plan = .ok plan) (hsession : session.FailsCleanly database)
    (log : Log τ) (s : σ) (t : τ) :
    ∃ os r, Migration.Attempt c.config.backend (c.migration plan) (database s).catalog os r
        (database (c.bootstrap session log s t).2.session).catalog ∧
      c.trace session log s t = os.map Occurrence.event ∧ c.occurrences session log s t = os ∧
      ∀ error, r = .error error → (c.bootstrap session log s t).1 = .error error := by
  obtain ⟨os, hmet, hattempt⟩ := Migration.attempt_of_run (b := c.config.backend) hsession log
    (c.migration plan) { session := (s, []), log := (t, []) }
  obtain ⟨hstate, hanswers, herror⟩ := recorded_of_run hplan (Prod.eta _).symm
  rw [← hstate] at hattempt
  have htrace : c.trace session log s t = os.map Occurrence.event := by
    rw [trace_eq_recorded, hstate, hmet.events, List.nil_append]
  have hlogged : c.logAnswers session log s t = os.filterMap Occurrence.logged := by
    rw [logAnswers_eq_recorded, hanswers, hmet.answers, List.nil_append]
  rw [bootstrap_eq_recorded, occurrences, htrace, hlogged]
  exact ⟨os, _, hattempt, rfl, hattempt.pair_eq, herror⟩

/-! ### Bootstraps that fail -/

/-- **A bootstrap that fails is the beginning of a good one.**  On a session on which any calls may
fail without an effect, and with any log, it hands over the first of the statements, each with its
text, that the bootstrap does on which nothing fails.  It leaves the catalog of those that were
accepted.  The first failure is the last thing that occurs, and is reported.  Where nothing fails,
all statements are handed over. -/
theorem bootstrap_breaks_off {good : Log τ₀} (hplan : c.plan = .ok plan)
    (hsession : session.FailsCleanly database) (hgood : good.Reliable) (log : Log τ) (s : σ) (t : τ)
    (t₀ : τ₀) :
    Event.handed (c.trace session log s t) <+:
        Event.handed (c.trace Database.session good (database s) t₀) ∧
      (∀ x ∈ Event.handed (c.trace session log s t), x.1 = c.config.backend.render x.2) ∧
      (database s).catalog.applyAll (Event.accepted (c.trace session log s t)) =
        .ok (database (c.bootstrap session log s t).2.session).catalog ∧
      Occurrence.Stops (c.occurrences session log s t) (c.bootstrap session log s t).1 ∧
      ((∀ o ∈ c.occurrences session log s t, o.failure? = none) →
        Event.handed (c.trace session log s t) =
          Event.handed (c.trace Database.session good (database s) t₀)) := by
  obtain ⟨report, ss, left, hpass, hrun, -⟩ := bootstrap_eq hplan hgood (database s) t₀
  obtain ⟨changes, indexes, hcourse, -⟩ := course_of_pass hpass
  obtain ⟨os, r, hattempt, htrace, hos, herror⟩ := exists_attempt hplan hsession log s t
  -- the bootstrap on which nothing fails is an attempt with a result
  have hstraight : Event.handed (c.trace Database.session good (database s) t₀) =
      ss.map fun s => (c.config.backend.render s, s) := by
    obtain ⟨os', r', hattempt', htrace', -, herror'⟩ :=
      exists_attempt hplan Database.session_failsCleanly good (database s) t₀
    rw [htrace']
    cases r' with
    | error e =>
      have := herror' e rfl
      rw [hrun] at this
      cases this
    | ok reports => exact hattempt'.handed_eq hcourse
  have hhanded := hattempt.handed_prefix hcourse
  rw [hstraight, htrace, hos]
  refine ⟨hhanded, fun x hx => ?_, hattempt.applyAll_accepted, ?_, fun hnone => ?_⟩
  · obtain ⟨s, -, rfl⟩ := List.mem_map.mp (hhanded.subset hx)
    rfl
  · intro before o after heq error he
    obtain ⟨hafter, hr⟩ := hattempt.stops before o after heq error he
    exact ⟨hafter, herror error hr⟩
  · obtain ⟨reports, rfl⟩ := hattempt.exists_eq_ok hnone
    exact hattempt.handed_eq hcourse

/-- The connection is lost at the fourth call. -/
def losesFourthCall : Nat → Call → Option SessionError := fun number _ =>
  if number = 3 then some (.backend "connection lost") else none

/-- The log that has space for one entry only. -/
def shortLog : Log (List String × Nat) :=
  Log.memory.interrupted (fun number => if number = 0 then none else some .noSpace) none

/-- The table of `mailing` lacks two columns.  The statement that adds the second one fails, and is
not recorded either. -/
theorem bootstrap_breaks_off_mailing :
    mailing.plan = .ok mailingPlan ∧
      (Database.session.interrupted losesFourthCall).FailsCleanly Prod.fst ∧
      Log.memory.Reliable ∧
      Event.handed (mailing.trace (Database.session.interrupted losesFourthCall) shortLog
          ({ catalog := Catalog.empty.withTable "gluuPerson" ["doc_id", "DN"] }, 0) ([], 0)) <+:
        Event.handed (mailing.trace Database.session Log.memory
          { catalog := Catalog.empty.withTable "gluuPerson" ["doc_id", "DN"] } []) ∧
      (mailing.bootstrap (Database.session.interrupted losesFourthCall) shortLog
          ({ catalog := Catalog.empty.withTable "gluuPerson" ["doc_id", "DN"] }, 0) ([], 0)).1 =
        .error (.execution "ALTER TABLE `gluuPerson` ADD COLUMN `uid` TEXT"
          (.backend "connection lost")) := by
  have hplan : mailing.plan = .ok mailingPlan := rfl
  have hsession : (Database.session.interrupted losesFourthCall).FailsCleanly Prod.fst :=
    Database.session_failsCleanly.interrupted losesFourthCall
  let start : Database := { catalog := Catalog.empty.withTable "gluuPerson" ["doc_id", "DN"] }
  obtain ⟨hhanded, -, -, hstops, -⟩ := bootstrap_breaks_off hplan hsession Log.memory_reliable
    shortLog (start, 0) ([], 0) []
  let occurrences := mailing.occurrences (Database.session.interrupted losesFourthCall) shortLog
    (start, 0) ([], 0)
  let last : Occurrence :=
    { event := .executed "ALTER TABLE `gluuPerson` ADD COLUMN `uid` TEXT"
        (.addColumn { table := "gluuPerson", column := { name := "uid", type := .text } })
        (.error (.backend "connection lost"))
      logged := some (.error .noSpace) }
  have hdrop : occurrences.drop 3 = [last] := rfl
  have hlast : occurrences = occurrences.take 3 ++ [last] := by
    rw [← hdrop, List.take_append_drop]
  have hresult := hstops (occurrences.take 3) last [] hlast _ rfl
  exact ⟨hplan, hsession, Log.memory_reliable, hhanded, hresult.2⟩

end Compiler

end DirectoryTables
