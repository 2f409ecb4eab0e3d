import DirectoryTables.Proofs.Migration.Projection

/-!
# Migrations — Trace

The calls that a migration makes of a session, each with its answer (`Event`).  `Session.recorded`
keeps them beside the state of any session, and answers as that session does
(`Session.recorded_projects`).

A migration is *guarded* (`Guarded`) when each statement it issues is permitted by the events
before it, whatever the session answered to the questions.  In a run of a guarded migration every
statement was permitted (`run_guarded`), on every session and with every log.
-/

namespace DirectoryTables

/-- A call of a session with its answer. -/
inductive Event where
  | executed (sql : String) (statement : Statement) (answer : Except SessionError Unit)
  | askedTable (table : String) (answer : Except SessionError Bool)
  | askedColumns (table : String) (answer : Except SessionError (List String))
  | askedIndex (table index : String) (answer : Except SessionError Bool)

namespace Session

variable {σ : Type}

/-- The session with the events so far, the latest last. -/
def recorded (session : Session σ) : Session (σ × List Event) where
  execute sql statement s :=
    let r := session.execute sql statement s.1
    (r.1, r.2, s.2 ++ [.executed sql statement r.1])
  tableExists table s :=
    let r := session.tableExists table s.1
    (r.1, r.2, s.2 ++ [.askedTable table r.1])
  tableColumns table s :=
    let r := session.tableColumns table s.1
    (r.1, r.2, s.2 ++ [.askedColumns table r.1])
  indexExists table index s :=
    let r := session.indexExists table index s.1
    (r.1, r.2, s.2 ++ [.askedIndex table index r.1])
  serverVersion s :=
    let r := session.serverVersion s.1
    (r.1, r.2, s.2)

/-- Recording changes nothing else. -/
theorem recorded_projects (session : Session σ) : Projects Prod.fst session.recorded session :=
  ⟨fun _ _ _ => rfl, fun _ _ => rfl, fun _ _ => rfl, fun _ _ _ => rfl⟩

end Session

/-- The progress without the events. -/
def Progress.unrecorded {σ τ : Type} (p : Progress (σ × List Event) τ) : Progress σ τ :=
  { session := p.session.1, log := p.log, issued := p.issued }

namespace Migration

variable {α β σ τ : Type} {b : Backend} {session : Session σ} {log : Log τ}

/-! ### Guarded migrations -/

section Guarded

variable {Permitted : List Event → String → Statement → Prop}

/-- Each statement is permitted by the events before it, on any answers of the session; where the
migration ends with a result, that and the events satisfy `Q`. -/
def Guarded (Permitted : List Event → String → Statement → Prop) (b : Backend) :
    Migration α → List Event → (α → List Event → Prop) → Prop
  | done a, events, Q => Q a events
  | issue s next, events, Q => Permitted events (b.render s) s ∧
      next.Guarded Permitted b (events ++ [.executed (b.render s) s (.ok ())]) Q
  | askTable t next, events, Q =>
      ∀ x, (next x).Guarded Permitted b (events ++ [.askedTable t (.ok x)]) Q
  | askColumns t next, events, Q =>
      ∀ x, (next x).Guarded Permitted b (events ++ [.askedColumns t (.ok x)]) Q
  | askIndex t i next, events, Q =>
      ∀ x, (next x).Guarded Permitted b (events ++ [.askedIndex t i (.ok x)]) Q

theorem Guarded.bind {m : Migration α} {k : α → Migration β} {events : List Event}
    {Q : β → List Event → Prop}
    (h : m.Guarded Permitted b events fun a events => (k a).Guarded Permitted b events Q) :
    (m >>= k).Guarded Permitted b events Q := by
  induction m generalizing events with
  | done a => exact h
  | issue s next ih => exact ⟨h.1, ih h.2⟩
  | askTable t next ih | askColumns t next ih | askIndex t i next ih => exact fun x => ih x (h x)

theorem Guarded.mono {m : Migration α} {events : List Event} {Q Q' : α → List Event → Prop}
    (h : m.Guarded Permitted b events Q) (hQ : ∀ a events, Q a events → Q' a events) :
    m.Guarded Permitted b events Q' := by
  induction m generalizing events with
  | done a => exact hQ a events h
  | issue s next ih => exact ⟨h.1, ih h.2⟩
  | askTable t next ih | askColumns t next ih | askIndex t i next ih => exact fun x => ih x (h x)

/-- Every statement among the events was permitted by those before it. -/
def AllPermitted (Permitted : List Event → String → Statement → Prop) (events : List Event) :
    Prop :=
  ∀ before sql s answer after, events = before ++ .executed sql s answer :: after →
    Permitted before sql s

theorem allPermitted_nil : AllPermitted Permitted [] := by
  intro before sql s answer after h
  cases before <;> cases h

theorem AllPermitted.concat {events : List Event} {e : Event} (h : AllPermitted Permitted events)
    (he : ∀ sql s answer, e = .executed sql s answer → Permitted events sql s) :
    AllPermitted Permitted (events ++ [e]) := by
  intro before sql s answer after heq
  rcases List.eq_nil_or_concat after with rfl | ⟨after, last, rfl⟩
  · obtain ⟨rfl, hlast⟩ := List.append_inj' heq rfl
    cases hlast
    exact he sql s answer rfl
  · rw [List.concat_eq_append, ← List.cons_append, ← List.append_assoc] at heq
    obtain ⟨rfl, -⟩ := List.append_inj' heq rfl
    exact h before sql s answer after rfl

theorem runStatement_events {s : Statement} {p p' : Progress (σ × List Event) τ}
    {r : Except RunError Unit} (h : runStatement b session.recorded log s p = (r, p')) :
    ∃ answer, p'.session.2 = p.session.2 ++ [.executed (b.render s) s answer] ∧
      (r = .ok () → answer = .ok ()) := by
  simp only [runStatement, Session.recorded] at h
  refine ⟨(session.execute (b.render s) s p.session.1).1, ?_⟩
  split at h
  · cases h
    exact ⟨rfl, fun e => by cases e⟩
  · cases h
    exact ⟨rfl, fun e => by cases e⟩
  · next hok _ =>
    cases h
    exact ⟨rfl, fun _ => hok⟩

/-- A question that is answered adds an event with the answer. -/
theorem runQuestion_events {ι : Type} {ask : σ → Except SessionError ι × σ}
    (event : Except SessionError ι → Event) {p p' : Progress (σ × List Event) τ} {x : ι}
    (h : runQuestion (fun s : σ × List Event =>
      ((ask s.1).1, (ask s.1).2, s.2 ++ [event (ask s.1).1])) p = (.ok x, p')) :
    p'.session.2 = p.session.2 ++ [event (.ok x)] := by
  obtain ⟨hanswer, rfl⟩ := Prod.ext_iff.mp h
  cases ha : (ask p.session.1).1 with
  | error e =>
    simp only [runQuestion, ha] at hanswer
    cases hanswer
  | ok y =>
    simp only [runQuestion, ha] at hanswer ⊢
    cases hanswer
    rfl

/-- A question adds an event with the answer it got. -/
theorem AllPermitted.question {ι : Type} {ask : σ → Except SessionError ι × σ}
    (event : Except SessionError ι → Event) {p p' : Progress (σ × List Event) τ}
    {r : Except RunError ι} (hp : AllPermitted Permitted p.session.2)
    (hevent : ∀ answer sql s answer', event answer ≠ .executed sql s answer')
    (h : runQuestion (fun s : σ × List Event =>
      ((ask s.1).1, (ask s.1).2, s.2 ++ [event (ask s.1).1])) p = (r, p')) :
    AllPermitted Permitted p'.session.2 ∧
      ∀ x, r = .ok x → p'.session.2 = p.session.2 ++ [event (.ok x)] := by
  refine ⟨?_, fun x hx => runQuestion_events event (hx ▸ h)⟩
  cases h
  exact hp.concat fun sql s answer e => absurd e (hevent _ sql s answer)

/-- **In a run of a guarded migration every statement was permitted**, whatever the session
answered and whatever the log did. -/
theorem run_guarded {m : Migration α} {p : Progress (σ × List Event) τ}
    {Q : α → List Event → Prop} (h : m.Guarded Permitted b p.session.2 Q)
    (hp : AllPermitted Permitted p.session.2) :
    AllPermitted Permitted (m.run b session.recorded log p).2.session.2 := by
  induction m generalizing p with
  | done a => exact hp
  | issue s next ih =>
    rw [run]
    rcases hr : runStatement b session.recorded log s p with ⟨r, p'⟩
    obtain ⟨answer, hevents, hok⟩ := runStatement_events hr
    have hp' : AllPermitted Permitted p'.session.2 := by
      rw [hevents]
      exact hp.concat fun sql s' answer' e => by cases e; exact h.1
    cases r with
    | error e => exact hp'
    | ok u =>
      refine ih ?_ hp'
      rw [hevents, hok rfl]
      exact h.2
  | askTable t next ih =>
    rw [run]
    rcases hr : runQuestion (session.recorded.tableExists t) p with ⟨r, p'⟩
    obtain ⟨hp', hok⟩ := hp.question (.askedTable t) (fun _ _ _ _ e => by cases e) hr
    cases r with
    | error e => exact hp'
    | ok x => exact ih x (hok x rfl ▸ h x) hp'
  | askColumns t next ih =>
    rw [run]
    rcases hr : runQuestion (session.recorded.tableColumns t) p with ⟨r, p'⟩
    obtain ⟨hp', hok⟩ := hp.question (.askedColumns t) (fun _ _ _ _ e => by cases e) hr
    cases r with
    | error e => exact hp'
    | ok x => exact ih x (hok x rfl ▸ h x) hp'
  | askIndex t i next ih =>
    rw [run]
    rcases hr : runQuestion (session.recorded.indexExists t i) p with ⟨r, p'⟩
    obtain ⟨hp', hok⟩ := hp.question (.askedIndex t i) (fun _ _ _ _ e => by cases e) hr
    cases r with
    | error e => exact hp'
    | ok x => exact ih x (hok x rfl ▸ h x) hp'

/-- A run of a guarded migration with a result ends as it was guarded. -/
theorem run_guarded_eq_ok {m : Migration α} {a : α} {p p' : Progress (σ × List Event) τ}
    {Q : α → List Event → Prop} (h : m.Guarded Permitted b p.session.2 Q)
    (hrun : m.run b session.recorded log p = (.ok a, p')) : Q a p'.session.2 := by
  induction m generalizing p with
  | done a' =>
    cases hrun
    exact h
  | issue s next ih =>
    rw [run] at hrun
    split at hrun
    · next p₁ hr =>
      obtain ⟨answer, hevents, hok⟩ := runStatement_events hr
      refine ih ?_ hrun
      rw [hevents, hok rfl]
      exact h.2
    · cases hrun
  | askTable t next ih =>
    rw [run] at hrun
    split at hrun
    · next x p₁ hr => exact ih x (runQuestion_events (.askedTable t) hr ▸ h x) hrun
    · cases hrun
  | askColumns t next ih =>
    rw [run] at hrun
    split at hrun
    · next x p₁ hr => exact ih x (runQuestion_events (.askedColumns t) hr ▸ h x) hrun
    · cases hrun
  | askIndex t i next ih =>
    rw [run] at hrun
    split at hrun
    · next x p₁ hr => exact ih x (runQuestion_events (.askedIndex t i) hr ▸ h x) hrun
    · cases hrun

end Guarded

end Migration

end DirectoryTables
