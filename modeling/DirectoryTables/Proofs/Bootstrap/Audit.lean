import DirectoryTables.Proofs.Bootstrap.Checks
import DirectoryTables.Proofs.Migration.Audit

/-!
# Bootstrap — Audit

What a log holds after a bootstrap, on any session: what the session was handed, and nothing else.

* `Compiler.bootstrap_audited`: the log and the counts are those of the statements in the trace.
* `Compiler.audit_complete`: a log in memory has one line for each statement, after operations as
  after a bootstrap.
-/

namespace DirectoryTables.Compiler

variable {σ τ : Type}

/-- A bootstrap is audited on a session that keeps its events, and its report has the count. -/
theorem audited_bootstrap (c : Compiler) (session : Session σ) {log : Log τ}
    (hflush : ∀ t, (log.flush t).2 = t) (s : σ) (t : τ) :
    (∃ events, Progress.Audited log { session := (s, []), log := t } events
        (c.bootstrap session.recorded log (s, []) t).2) ∧
      ∀ report, (c.bootstrap session.recorded log (s, []) t).1 = .ok report →
        report.statements = (c.bootstrap session.recorded log (s, []) t).2.issued := by
  cases hplan : c.plan with
  | error e =>
    simp only [bootstrap, hplan]
    exact ⟨⟨[], .refl log _⟩, fun report h => by cases h⟩
  | ok plan =>
    obtain ⟨events, h⟩ := Migration.audited_run c.config.backend session log (c.migration plan)
      { session := (s, []), log := t }
    simp only [bootstrap, hplan]
    generalize (c.migration plan).run c.config.backend session.recorded log
      { session := (s, []), log := t } = run at h
    rcases run with ⟨_ | _, p⟩
    · exact ⟨⟨events, h⟩, fun report h => by cases h⟩
    · have hlog : (log.flush p.log).2 = log.recordTexts (Event.texts events) t :=
        (hflush p.log).trans h.log
      cases hf : (log.flush p.log).1 with
      | error e =>
        simp only [hf]
        exact ⟨⟨events, h.session, hlog, h.issued⟩, fun report h => by cases h⟩
      | ok _ =>
        simp only [hf]
        exact ⟨⟨events, h.session, hlog, h.issued⟩, fun report h => by cases h; rfl⟩

/-- **A bootstrap is audited.**  The log was handed what the session was handed, and the count and
the report tell how many statements these were. -/
theorem bootstrap_audited (c : Compiler) (session : Session σ) {log : Log τ}
    (hflush : ∀ t, (log.flush t).2 = t) (s : σ) (t : τ) :
    (c.bootstrap session log s t).2.log =
        log.recordTexts (Event.texts (c.trace session log s t)) t ∧
      (c.bootstrap session log s t).2.issued = (Event.texts (c.trace session log s t)).length ∧
      ∀ report, (c.bootstrap session log s t).1 = .ok report →
        report.statements = (Event.texts (c.trace session log s t)).length := by
  obtain ⟨⟨events, h⟩, hreport⟩ := c.audited_bootstrap session hflush s t
  have htrace : c.trace session log s t = events := h.session
  have hissued := h.issued.trans (Nat.zero_add _)
  rw [bootstrap_recorded, htrace]
  exact ⟨h.log, hissued, fun report hr => (hreport report hr).trans hissued⟩

/-- **Logs in memory are complete.**  On any session, whatever it answers, the lines added by any
operations are the entries of the statements handed to it, one for each and in order, and the count
is their number; an operation that issued no statement adds none.  The same goes for a bootstrap,
however it ends. -/
theorem audit_complete (session : Session σ) :
    (∀ (b : Backend) (operations : List Operation) (p : Progress σ (List String)),
      (Operation.carryOut b session Log.memory operations p).log = p.log ++
          (Event.texts (Operation.trace b session Log.memory operations p)).map Log.entry ∧
        (Operation.carryOut b session Log.memory operations p).issued = p.issued +
          (Event.texts (Operation.trace b session Log.memory operations p)).length) ∧
    (∀ (b : Backend) (operation : Operation) (p p' : Progress σ (List String)),
      (operation.migration b).run b session Log.memory p = (.ok false, p') →
        p'.log = p.log ∧ p'.issued = p.issued) ∧
    ∀ (c : Compiler) (s : σ) (lines : List String),
      (c.bootstrap session Log.memory s lines).2.log =
          lines ++ (Event.texts (c.trace session Log.memory s lines)).map Log.entry ∧
        (c.bootstrap session Log.memory s lines).2.issued =
          (Event.texts (c.trace session Log.memory s lines)).length ∧
        ∀ report, (c.bootstrap session Log.memory s lines).1 = .ok report →
          report.statements = (Event.texts (c.trace session Log.memory s lines)).length := by
  refine ⟨fun b operations p => ?_, fun b operation p p' h => Operation.skipped h,
    fun c s lines => ?_⟩
  · rw [← Log.memory_recordTexts]
    exact Operation.carryOut_audited b session Log.memory operations p
  · rw [← Log.memory_recordTexts]
    exact c.bootstrap_audited session (fun _ => rfl) s lines

end DirectoryTables.Compiler
