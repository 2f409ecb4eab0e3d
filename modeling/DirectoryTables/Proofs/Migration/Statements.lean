import DirectoryTables.Proofs.Migration.Audit
import Mathlib.Data.List.Basic

/-!
# Migrations — Statements

The statements that a migration can issue, whatever it is answered (`CanIssue`), and the results it
can end with (`CanReturn`).  Both are said by recursion on the migration, and follow `bind`
(`canIssue_bind`, `canReturn_bind`).

* `canIssue_of_executed`: a run hands to the session nothing but statements that can be issued, on
  any session and with any log.
* `exists_executed_of_canIssue`: each of them is handed over in some run.  The session that gives
  the answers for it answers from a list (`Session.scripted`).
-/

namespace DirectoryTables

/-! ### Sessions that answer from a list -/

/-- The session that takes its answers from a list.  Every statement is accepted. -/
def Session.scripted : Session (List (Bool × List String)) where
  execute _ _ answers := (.ok (), answers)
  tableExists _ answers := (.ok (answers.headD (false, [])).1, answers.tail)
  tableColumns _ answers := (.ok (answers.headD (false, [])).2, answers.tail)
  indexExists _ _ answers := (.ok (answers.headD (false, [])).1, answers.tail)

namespace Migration

variable {α β ι σ τ : Type} {b : Backend} {s : Statement}

/-! ### What a migration can do -/

/-- On some answers the migration ends with the result. -/
def CanReturn (a : α) : Migration α → Prop
  | done a' => a' = a
  | issue _ next => next.CanReturn a
  | askTable _ next => ∃ x, (next x).CanReturn a
  | askColumns _ next => ∃ x, (next x).CanReturn a
  | askIndex _ _ next => ∃ x, (next x).CanReturn a

/-- On some answers the migration issues the statement. -/
def CanIssue (s : Statement) : Migration α → Prop
  | done _ => False
  | issue s' next => s' = s ∨ next.CanIssue s
  | askTable _ next => ∃ x, (next x).CanIssue s
  | askColumns _ next => ∃ x, (next x).CanIssue s
  | askIndex _ _ next => ∃ x, (next x).CanIssue s

theorem exists_canReturn (m : Migration α) : ∃ a, m.CanReturn a := by
  induction m with
  | done a => exact ⟨a, rfl⟩
  | issue s next ih => exact ih
  | askTable t next ih | askIndex t i next ih =>
    obtain ⟨a, h⟩ := ih false
    exact ⟨a, false, h⟩
  | askColumns t next ih =>
    obtain ⟨a, h⟩ := ih []
    exact ⟨a, [], h⟩

theorem canReturn_pure {a a' : α} : (pure a' : Migration α).CanReturn a ↔ a' = a := Iff.rfl

theorem not_canIssue_pure (a : α) : ¬ (pure a : Migration α).CanIssue s := id

theorem canReturn_bind {m : Migration α} {k : α → Migration β} {x : β} :
    (m >>= k).CanReturn x ↔ ∃ a, m.CanReturn a ∧ (k a).CanReturn x := by
  change (m.bind k).CanReturn x ↔ _
  induction m with
  | done a => simp [bind, CanReturn]
  | issue s next ih => exact ih
  | askTable t next ih | askColumns t next ih | askIndex t i next ih =>
    simp only [bind, CanReturn, ih, ← exists_and_right]
    exact exists_comm

/-- A migration followed by another one issues what the first one does, and what the second one does
after a result that the first one can end with. -/
theorem canIssue_bind {m : Migration α} {k : α → Migration β} :
    (m >>= k).CanIssue s ↔ m.CanIssue s ∨ ∃ a, m.CanReturn a ∧ (k a).CanIssue s := by
  change (m.bind k).CanIssue s ↔ _
  induction m with
  | done a => simp [bind, CanIssue, CanReturn]
  | issue s' next ih => simp only [bind, CanIssue, CanReturn, ih, or_assoc]
  | askTable t next ih | askColumns t next ih | askIndex t i next ih =>
    simp only [bind, CanIssue, CanReturn, ih, exists_or, ← exists_and_right]
    exact or_congr_right exists_comm

/-- What follows issues the same after every result. -/
theorem canIssue_bind_of_forall {m : Migration α} {k : α → Migration β} {P : Prop}
    (h : ∀ a, (k a).CanIssue s ↔ P) : (m >>= k).CanIssue s ↔ m.CanIssue s ∨ P := by
  obtain ⟨a, ha⟩ := exists_canReturn m
  simp only [canIssue_bind, h]
  exact or_congr_right ⟨fun ⟨_, _, hP⟩ => hP, fun hP => ⟨a, ha, hP⟩⟩

/-- What follows issues nothing. -/
theorem canIssue_bind_pure {m : Migration α} {f : α → β} :
    (m >>= fun a => pure (f a)).CanIssue s ↔ m.CanIssue s := by
  rw [canIssue_bind_of_forall fun a => iff_false_intro (not_canIssue_pure (f a)), or_false]

theorem canIssue_mapM {f : ι → Migration α} {xs : List ι} :
    (xs.mapM f).CanIssue s ↔ ∃ x ∈ xs, (f x).CanIssue s := by
  induction xs with
  | nil => simpa using not_canIssue_pure []
  | cons x xs ih =>
    rw [List.mapM_cons, List.exists_mem_cons_iff, ← ih]
    exact canIssue_bind_of_forall fun a => canIssue_bind_pure

/-- Steps that issue the same whatever the state is. -/
theorem canIssue_foldlM {f : α → ι → Migration α} {P : ι → Prop}
    (h : ∀ a x, (f a x).CanIssue s ↔ P x) {xs : List ι} (a : α) :
    (xs.foldlM f a).CanIssue s ↔ ∃ x ∈ xs, P x := by
  induction xs generalizing a with
  | nil => simpa using not_canIssue_pure a
  | cons x xs ih =>
    rw [List.foldlM_cons, List.exists_mem_cons_iff, ← h a x]
    exact canIssue_bind_of_forall ih

/-! ### Runs -/

/-- A migration is guarded by what it can issue. -/
theorem guarded_canIssue {P : Statement → Prop} {m : Migration α}
    (h : ∀ s, m.CanIssue s → P s) (events : List Event) :
    m.Guarded (fun _ _ s => P s) b events fun _ _ => True := by
  induction m generalizing events with
  | done a => trivial
  | issue s next ih => exact ⟨h s (.inl rfl), ih (fun s hs => h s (.inr hs)) _⟩
  | askTable t next ih | askColumns t next ih | askIndex t i next ih =>
    exact fun x => ih x (fun s hs => h s ⟨x, hs⟩) _

/-- **What a run hands over can be issued**, whatever the session and the log answer. -/
theorem canIssue_of_executed {m : Migration α} {session : Session σ} {log : Log τ}
    {p : Progress (σ × List Event) τ} (hp : p.session.2 = []) {sql : String}
    {answer : Except SessionError Unit}
    (h : .executed sql s answer ∈ (m.run b session.recorded log p).2.session.2) :
    m.CanIssue s := by
  have hall : AllPermitted (fun _ _ s => m.CanIssue s)
      (m.run b session.recorded log p).2.session.2 :=
    run_guarded (guarded_canIssue (fun _ => id) p.session.2) (hp ▸ allPermitted_nil)
  obtain ⟨before, after, e⟩ := List.append_of_mem h
  exact hall before sql s answer after e

/-- What was met before a run is met after it. -/
theorem mem_events_run (m : Migration α) {session : Session σ} {log : Log τ}
    {p : Progress (σ × List Event) τ} {event : Event} (h : event ∈ p.session.2) :
    event ∈ (m.run b session.recorded log p).2.session.2 := by
  obtain ⟨events, haudited⟩ := audited_run b session log m p
  rw [haudited.session]
  exact List.mem_append_left _ h

/-- **What can be issued is handed over in some run**, if the answers of the session are right. -/
theorem exists_executed_of_canIssue {m : Migration α} (h : m.CanIssue s) (b : Backend) :
    ∃ answers, ∀ p : Progress (List (Bool × List String) × List Event) (List String),
      p.session.1 = answers → .executed (b.render s) s (.ok ()) ∈
        (m.run b Session.scripted.recorded Log.memory p).2.session.2 := by
  -- a question takes one answer from the list, the one that leads to the statement
  induction m with
  | done a => exact h.elim
  | issue s' next ih =>
    obtain rfl | h := h
    · refine ⟨[], fun p _ => mem_events_run next ?_⟩
      exact List.mem_append_right _ (List.mem_singleton_self _)
    · obtain ⟨answers, hrun⟩ := ih h
      exact ⟨answers, fun p hp => hrun _ hp⟩
  | askTable t next ih | askIndex t i next ih =>
    obtain ⟨x, h⟩ := h
    obtain ⟨answers, hrun⟩ := ih x h
    refine ⟨(x, []) :: answers, fun ⟨⟨_, _⟩, _, _⟩ hp => ?_⟩
    cases hp
    exact hrun _ rfl
  | askColumns t next ih =>
    obtain ⟨x, h⟩ := h
    obtain ⟨answers, hrun⟩ := ih x h
    refine ⟨(false, x) :: answers, fun ⟨⟨_, _⟩, _, _⟩ hp => ?_⟩
    cases hp
    exact hrun _ rfl

end Migration

end DirectoryTables
