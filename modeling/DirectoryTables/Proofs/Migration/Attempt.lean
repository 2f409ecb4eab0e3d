import DirectoryTables.Proofs.Migration.Course
import DirectoryTables.Proofs.Migration.Trace

/-!
# Migrations — Attempt

What a migration does where calls may fail.  A session *fails cleanly* when each call does what a
database in memory does, or fails and leaves the database as it was (`Session.FailsCleanly`).  On
such a session, with any log, a run is an attempt (`attempt_of_run`): `Attempt b m c os r left`
says what occurred, call by call, with which result the attempt ended, and the catalog it left.

* `Attempt.stops`: the first failure is the last occurrence, and the result tells of it.
* `Attempt.applyAll_accepted`: the catalog that was left is that of the accepted statements.
* `Attempt.handed_prefix`, `Attempt.handed_eq`: the statements are the first of the course, and all
  of them when nothing failed.
-/

namespace DirectoryTables

variable {σ τ α β : Type}

/-! ### Sessions that fail cleanly -/

/-- A call does what the proper call does to the database, or fails and leaves it as it was. -/
def Session.CallFailsCleanly (database : σ → Database)
    (proper : Database → Except SessionError α × Database)
    (call : σ → Except SessionError α × σ) : Prop :=
  ∀ s, ((call s).1, database (call s).2) = proper (database s) ∨
    (∃ e, (call s).1 = .error e) ∧ database (call s).2 = database s

/-- The session is one with a database in memory, except that any calls may fail without an
effect.  What else its states hold may change in any way. -/
structure Session.FailsCleanly (database : σ → Database) (session : Session σ) : Prop where
  execute : ∀ sql statement, CallFailsCleanly database
    (Database.session.execute sql statement) (session.execute sql statement)
  tableExists : ∀ table, CallFailsCleanly database
    (Database.session.tableExists table) (session.tableExists table)
  tableColumns : ∀ table, CallFailsCleanly database
    (Database.session.tableColumns table) (session.tableColumns table)
  indexExists : ∀ table index, CallFailsCleanly database
    (Database.session.indexExists table index) (session.indexExists table index)

/-- The database in memory itself, which need not fail. -/
theorem Database.session_failsCleanly : Database.session.FailsCleanly id :=
  ⟨fun _ _ _ => .inl rfl, fun _ _ => .inl rfl, fun _ _ => .inl rfl, fun _ _ _ => .inl rfl⟩

namespace Session

variable {database : σ → Database} {session : Session σ}

theorem CallFailsCleanly.numbered {proper : Database → Except SessionError α × Database}
    {answer : σ → Except SessionError α × σ} (h : CallFailsCleanly database proper answer)
    (fails : Nat → Call → Option SessionError) (call : Call) :
    CallFailsCleanly (fun s : σ × Nat => database s.1) proper
      (Session.numbered fails call answer) := by
  intro s
  cases hf : fails s.2 call with
  | none =>
    rw [Session.numbered, hf]
    exact h s.1
  | some e =>
    rw [Session.numbered, hf]
    exact .inr ⟨⟨e, rfl⟩, rfl⟩

/-- A session that fails cleanly still does when further calls fail without an effect. -/
theorem FailsCleanly.interrupted (h : session.FailsCleanly database)
    (fails : Nat → Call → Option SessionError) :
    (session.interrupted fails).FailsCleanly fun s => database s.1 :=
  ⟨fun sql statement => (h.execute sql statement).numbered fails _,
    fun table => (h.tableExists table).numbered fails _,
    fun table => (h.tableColumns table).numbered fails _,
    fun table index => (h.indexExists table index).numbered fails _⟩

/-- A statement fails and leaves the catalog as it was, or is accepted and carried out. -/
theorem FailsCleanly.execute_cases (h : session.FailsCleanly database) (sql : String)
    (statement : Statement) (s : σ) :
    (∃ e, (session.execute sql statement s).1 = .error e ∧
        (database (session.execute sql statement s).2).catalog = (database s).catalog) ∨
      (session.execute sql statement s).1 = .ok () ∧
        (database s).catalog.apply statement =
          .ok (database (session.execute sql statement s).2).catalog := by
  obtain hproper | ⟨⟨e, he⟩, hsame⟩ := h.execute sql statement s
  · obtain ⟨hanswer, hdatabase⟩ := Prod.ext_iff.mp hproper
    simp only [Database.session, Database.execute] at hanswer hdatabase
    rw [hanswer, hdatabase]
    cases (database s).catalog.apply statement with
    | error e => exact .inl ⟨e, rfl, rfl⟩
    | ok c => exact .inr ⟨rfl, rfl⟩
  · exact .inl ⟨e, he, by rw [hsame]⟩

/-- A question leaves the database as it was, and what it answers is right. -/
theorem CallFailsCleanly.question {answer : Database → α} {ask : σ → Except SessionError α × σ}
    (h : CallFailsCleanly database (fun db => (.ok (answer db), db)) ask) (s : σ) :
    database (ask s).2 = database s ∧ ∀ x, (ask s).1 = .ok x → x = answer (database s) := by
  obtain hproper | ⟨⟨e, he⟩, hsame⟩ := h s
  · obtain ⟨hanswer, hdatabase⟩ := Prod.ext_iff.mp hproper
    exact ⟨hdatabase, fun x hx => by cases hanswer.symm.trans hx; rfl⟩
  · exact ⟨hsame, fun x hx => by rw [he] at hx; cases hx⟩

end Session

/-! ### What occurs in a run -/

/-- The log with what it answered so far to statements that it was to record, the latest last. -/
def Log.recorded (log : Log τ) : Log (τ × List (Except FileError Unit)) where
  record sql t :=
    let r := log.record sql t.1
    (r.1, r.2, t.2 ++ [r.1])
  flush t :=
    let r := log.flush t.1
    (r.1, r.2, t.2)

/-- Keeping the answers changes nothing else. -/
theorem Log.recorded_projects (log : Log τ) : Projects Prod.fst log.recorded log :=
  ⟨fun _ _ => rfl, fun _ => rfl⟩

/-- A call of a session with its answer, and with the answer of the log when it is a statement that
was to be recorded. -/
structure Occurrence where
  event : Event
  logged : Option (Except FileError Unit) := none

namespace Occurrence

/-- The calls of a session in order, with the answers of a log: each statement is recorded right
after the call. -/
def pair : List Event → List (Except FileError Unit) → List Occurrence
  | [], _ => []
  | .executed sql statement answer :: events, logged :: answers =>
    { event := .executed sql statement answer, logged := some logged } :: pair events answers
  | event :: events, answers => { event } :: pair events answers

/-- The error with which a run ends that meets the occurrence: a statement that failed, with its
text, whether it was recorded or not; a question that failed; or a statement that was accepted,
but not recorded. -/
def failure? (o : Occurrence) : Option RunError :=
  match o.event, o.logged with
  | .executed sql _ (.error e), _ => some (.execution sql e)
  | .askedTable _ (.error e), _ => some (.introspection e)
  | .askedColumns _ (.error e), _ => some (.introspection e)
  | .askedIndex _ _ (.error e), _ => some (.introspection e)
  | .executed _ _ (.ok ()), some (.error e) => some (.auditLog e)
  | _, _ => none

/-- A failure among the occurrences is the last of them, and its error is the result. -/
def Stops (os : List Occurrence) (r : Except RunError α) : Prop :=
  ∀ before o after, os = before ++ o :: after →
    ∀ error, o.failure? = some error → after = [] ∧ r = .error error

theorem Stops.nil (r : Except RunError α) : Stops [] r := by
  intro before o after h
  cases before <;> cases h

theorem Stops.singleton {o : Occurrence} {error : RunError} (ho : o.failure? = some error) :
    Stops [o] (.error error : Except RunError α) := by
  intro before o' after heq error' he
  obtain ⟨rfl, hrest⟩ | ⟨rest, rfl, hrest⟩ := List.cons_eq_append_iff.mp heq
  · cases hrest
    cases ho.symm.trans he
    exact ⟨rfl, rfl⟩
  · cases rest <;> cases hrest

theorem Stops.cons {o : Occurrence} {os : List Occurrence} {r : Except RunError α}
    (ho : o.failure? = none) (h : Stops os r) : Stops (o :: os) r := by
  intro before o' after heq error he
  obtain ⟨rfl, hrest⟩ | ⟨rest, rfl, hrest⟩ := List.cons_eq_append_iff.mp heq
  · cases hrest
    cases ho.symm.trans he
  · exact h rest o' after hrest error he

end Occurrence

/-- From `p` to `p'` a session and a log, which keep what they were asked, met the occurrences
`os`. -/
structure Progress.Met (p : Progress (σ × List Event) (τ × List (Except FileError Unit)))
    (os : List Occurrence) (p' : Progress (σ × List Event) (τ × List (Except FileError Unit))) :
    Prop where
  events : p'.session.2 = p.session.2 ++ os.map Occurrence.event
  answers : p'.log.2 = p.log.2 ++ os.filterMap Occurrence.logged

namespace Progress.Met

variable {p p₁ p' : Progress (σ × List Event) (τ × List (Except FileError Unit))}
  {os os' : List Occurrence}

theorem refl (p : Progress (σ × List Event) (τ × List (Except FileError Unit))) : p.Met [] p :=
  ⟨(List.append_nil _).symm, (List.append_nil _).symm⟩

theorem trans (h : p.Met os p₁) (h' : p₁.Met os' p') : p.Met (os ++ os') p' := by
  constructor
  · rw [h'.events, h.events, List.map_append, List.append_assoc]
  · rw [h'.answers, h.answers, List.filterMap_append, List.append_assoc]

end Progress.Met

namespace Event

/-- The statements handed to the session, each with its text. -/
def handed (events : List Event) : List (String × Statement) :=
  events.filterMap fun
    | executed sql statement _ => some (sql, statement)
    | _ => none

/-- The statements that the session accepted. -/
def accepted (events : List Event) : List Statement :=
  events.filterMap fun
    | executed _ statement (.ok ()) => some statement
    | _ => none

end Event

namespace Migration

/-- Carried out on `c` where calls may fail without an effect, `m` meets the occurrences `os`, ends
with the result `r` and leaves the catalog `left`. -/
inductive Attempt (b : Backend) :
    Migration α → Catalog → List Occurrence → Except RunError α → Catalog → Prop where
  | done (a : α) (c : Catalog) : Attempt b (.done a) c [] (.ok a) c
  | issue {s : Statement} {next : Migration α} {c c₁ left : Catalog} {os : List Occurrence}
      {r : Except RunError α} (h : c.apply s = .ok c₁) (t : Attempt b next c₁ os r left) :
      Attempt b (.issue s next) c
        ({ event := .executed (b.render s) s (.ok ()), logged := some (.ok ()) } :: os) r left
  | failed (s : Statement) (next : Migration α) (c : Catalog) (e : SessionError)
      (logged : Except FileError Unit) :
      Attempt b (.issue s next) c
        [{ event := .executed (b.render s) s (.error e), logged := some logged }]
        (.error (.execution (b.render s) e)) c
  | unrecorded {s : Statement} (next : Migration α) {c c₁ : Catalog} (h : c.apply s = .ok c₁)
      (e : FileError) :
      Attempt b (.issue s next) c
        [{ event := .executed (b.render s) s (.ok ()), logged := some (.error e) }]
        (.error (.auditLog e)) c₁
  | askTable {table : String} {next : Bool → Migration α} {c left : Catalog}
      {os : List Occurrence} {r : Except RunError α}
      (t : Attempt b (next (c.hasTable table)) c os r left) :
      Attempt b (.askTable table next) c
        ({ event := .askedTable table (.ok (c.hasTable table)) } :: os) r left
  | askTableFailed (table : String) (next : Bool → Migration α) (c : Catalog) (e : SessionError) :
      Attempt b (.askTable table next) c [{ event := .askedTable table (.error e) }]
        (.error (.introspection e)) c
  | askColumns {table : String} {next : List String → Migration α} {c left : Catalog}
      {os : List Occurrence} {r : Except RunError α}
      (t : Attempt b (next (c.columns table)) c os r left) :
      Attempt b (.askColumns table next) c
        ({ event := .askedColumns table (.ok (c.columns table)) } :: os) r left
  | askColumnsFailed (table : String) (next : List String → Migration α) (c : Catalog)
      (e : SessionError) :
      Attempt b (.askColumns table next) c [{ event := .askedColumns table (.error e) }]
        (.error (.introspection e)) c
  | askIndex {table index : String} {next : Bool → Migration α} {c left : Catalog}
      {os : List Occurrence} {r : Except RunError α}
      (t : Attempt b (next (c.hasIndex table index)) c os r left) :
      Attempt b (.askIndex table index next) c
        ({ event := .askedIndex table index (.ok (c.hasIndex table index)) } :: os) r left
  | askIndexFailed (table index : String) (next : Bool → Migration α) (c : Catalog)
      (e : SessionError) :
      Attempt b (.askIndex table index next) c [{ event := .askedIndex table index (.error e) }]
        (.error (.introspection e)) c

namespace Attempt

variable {b : Backend} {m : Migration α} {c c' left : Catalog} {os : List Occurrence}
  {r : Except RunError α} {ss : List Statement} {a : α}

/-- What occurred is told by the calls and by the answers of the log. -/
theorem pair_eq (h : Attempt b m c os r left) :
    Occurrence.pair (os.map Occurrence.event) (os.filterMap Occurrence.logged) = os := by
  induction h with
  | done => rfl
  | issue _ _ ih => exact congrArg (_ :: ·) ih
  | askTable _ ih | askColumns _ ih | askIndex _ ih => exact congrArg (_ :: ·) ih
  | failed | unrecorded | askTableFailed | askColumnsFailed | askIndexFailed => rfl

/-- **The first failure ends an attempt.**  Nothing occurs after it, and the result tells of it. -/
theorem stops (h : Attempt b m c os r left) : Occurrence.Stops os r := by
  induction h with
  | done => exact .nil _
  | issue _ _ ih => exact ih.cons rfl
  | askTable _ ih | askColumns _ ih | askIndex _ ih => exact ih.cons rfl
  | failed | unrecorded | askTableFailed | askColumnsFailed | askIndexFailed =>
    exact .singleton rfl

/-- An attempt on which nothing failed has a result. -/
theorem exists_eq_ok (h : Attempt b m c os r left) (hos : ∀ o ∈ os, o.failure? = none) :
    ∃ a, r = .ok a := by
  induction h with
  | done a => exact ⟨a, rfl⟩
  | issue _ _ ih => exact ih fun o ho => hos o (List.mem_cons_of_mem _ ho)
  | askTable _ ih | askColumns _ ih | askIndex _ ih =>
    exact ih fun o ho => hos o (List.mem_cons_of_mem _ ho)
  | failed | unrecorded | askTableFailed | askColumnsFailed | askIndexFailed =>
    cases hos _ List.mem_cons_self

/-- The catalog that an attempt leaves is that of the accepted statements. -/
theorem applyAll_accepted (h : Attempt b m c os r left) :
    c.applyAll (Event.accepted (os.map Occurrence.event)) = .ok left := by
  induction h with
  | done => rfl
  | issue h _ ih => exact Catalog.applyAll_cons_eq_ok_iff.mpr ⟨_, h, ih⟩
  | unrecorded _ h => exact Catalog.applyAll_cons_eq_ok_iff.mpr ⟨_, h, rfl⟩
  | askTable _ ih | askColumns _ ih | askIndex _ ih => exact ih
  | failed | askTableFailed | askColumnsFailed | askIndexFailed => rfl

/-- **The statements of an attempt are the first of the course.** -/
theorem handed_prefix (h : Attempt b m c os r left) (h' : Course m c ss a c') :
    Event.handed (os.map Occurrence.event) <+: ss.map fun s => (b.render s, s) := by
  induction h generalizing ss with
  | done => exact List.nil_prefix
  | issue h _ ih =>
    cases h' with
    | issue h' t' =>
      cases h.symm.trans h'
      exact List.cons_prefix_cons.mpr ⟨rfl, ih t'⟩
  | failed | unrecorded =>
    cases h' with
    | issue => exact List.cons_prefix_cons.mpr ⟨rfl, List.nil_prefix⟩
  | askTable _ ih => cases h' with | askTable t' => exact ih t'
  | askColumns _ ih => cases h' with | askColumns t' => exact ih t'
  | askIndex _ ih => cases h' with | askIndex t' => exact ih t'
  | askTableFailed | askColumnsFailed | askIndexFailed => exact List.nil_prefix

/-- An attempt with a result hands over all statements of the course. -/
theorem handed_eq {a' : α} (h : Attempt b m c os (.ok a') left) (h' : Course m c ss a c') :
    Event.handed (os.map Occurrence.event) = ss.map fun s => (b.render s, s) := by
  -- The attempts that broke off are ruled out by the result.
  generalize hr : Except.ok a' = r at h
  induction h generalizing ss with
  | done => cases h'; rfl
  | issue h _ ih =>
    cases h' with
    | issue h' t' =>
      cases h.symm.trans h'
      exact congrArg (_ :: ·) (ih t' hr)
  | askTable _ ih => cases h' with | askTable t' => exact ih t' hr
  | askColumns _ ih => cases h' with | askColumns t' => exact ih t' hr
  | askIndex _ ih => cases h' with | askIndex t' => exact ih t' hr
  | failed | unrecorded | askTableFailed | askColumnsFailed | askIndexFailed => cases hr

end Attempt

/-! ### Runs are attempts -/

section Runs

variable {database : σ → Database} {session : Session σ} {log : Log τ} {b : Backend}
  {p p' : Progress (σ × List Event) (τ × List (Except FileError Unit))}

/-- A statement that is handed over fails without an effect, is accepted but not recorded, or is
accepted and recorded. -/
theorem runStatement_cases (h : session.FailsCleanly database) {s : Statement}
    {r : Except RunError Unit}
    (hr : runStatement b session.recorded log.recorded s p = (r, p')) :
    (∃ e logged,
        p.Met [{ event := .executed (b.render s) s (.error e), logged := some logged }] p' ∧
        r = .error (.execution (b.render s) e) ∧
        (database p'.session.1).catalog = (database p.session.1).catalog) ∨
      (database p.session.1).catalog.apply s = .ok (database p'.session.1).catalog ∧
        ∃ logged, p.Met [{ event := .executed (b.render s) s (.ok ()), logged := some logged }] p' ∧
          r = logged.mapError .auditLog := by
  simp only [runStatement, Session.recorded, Log.recorded] at hr
  obtain ⟨e, he, hsame⟩ | ⟨hok, happ⟩ := h.execute_cases (b.render s) s p.session.1
  · left
    rw [he] at hr
    cases hr
    exact ⟨e, _, ⟨rfl, rfl⟩, rfl, hsame⟩
  · right
    rw [hok] at hr
    cases hl : (log.record (b.render s) p.log.1).1 <;> rw [hl] at hr <;> cases hr <;>
      exact ⟨happ, _, ⟨rfl, rfl⟩, rfl⟩

/-- A question that a session answers, or fails on, without an effect. -/
theorem runQuestion_cases {ι : Type} {answer : Database → ι}
    {ask : σ → Except SessionError ι × σ} (event : Except SessionError ι → Event)
    (h : Session.CallFailsCleanly database (fun db => (.ok (answer db), db)) ask)
    {r : Except RunError ι}
    (hr : runQuestion (fun s : σ × List Event =>
      ((ask s.1).1, (ask s.1).2, s.2 ++ [event (ask s.1).1])) p = (r, p')) :
    (database p'.session.1).catalog = (database p.session.1).catalog ∧
      ((∃ e, p.Met [{ event := event (.error e) }] p' ∧ r = .error (.introspection e)) ∨
        p.Met [{ event := event (.ok (answer (database p.session.1))) }] p' ∧
          r = .ok (answer (database p.session.1))) := by
  cases hr
  obtain ⟨hsame, hright⟩ := h.question p.session.1
  refine ⟨congrArg Database.catalog hsame, ?_⟩
  have hanswers : p.log.2 = p.log.2 ++ [] := (List.append_nil _).symm
  cases ha : (ask p.session.1).1 with
  | error e => exact .inl ⟨e, ⟨by rw [← ha]; rfl, hanswers⟩, rfl⟩
  | ok x =>
    obtain rfl := hright x ha
    exact .inr ⟨⟨by rw [← ha]; rfl, hanswers⟩, rfl⟩

/-- **A run is an attempt**, on every session that fails cleanly, and with every log. -/
theorem attempt_of_run (h : session.FailsCleanly database) (log : Log τ) (m : Migration α)
    (p : Progress (σ × List Event) (τ × List (Except FileError Unit))) :
    ∃ os, p.Met os (m.run b session.recorded log.recorded p).2 ∧
      Attempt b m (database p.session.1).catalog os
        (m.run b session.recorded log.recorded p).1
        (database (m.run b session.recorded log.recorded p).2.session.1).catalog := by
  -- A question leaves the catalog as it was, so the attempt at the rest starts from the same one.
  induction m generalizing p with
  | done a => exact ⟨[], .refl p, .done a _⟩
  | issue s next ih =>
    rw [run]
    rcases hr : runStatement b session.recorded log.recorded s p with ⟨r, p'⟩
    obtain ⟨e, logged, hmet, rfl, hsame⟩ | ⟨happ, logged, hmet, rfl⟩ := runStatement_cases h hr
    · exact ⟨_, hmet, hsame ▸ .failed s next _ e logged⟩
    · cases logged with
      | error e => exact ⟨_, hmet, .unrecorded next happ e⟩
      | ok =>
        obtain ⟨os, hmet', t⟩ := ih p'
        exact ⟨_, hmet.trans hmet', .issue happ t⟩
  | askTable table next ih =>
    rw [run]
    rcases hr : runQuestion (session.recorded.tableExists table) p with ⟨r, p'⟩
    obtain ⟨hsame, ⟨e, hmet, rfl⟩ | ⟨hmet, rfl⟩⟩ :=
      runQuestion_cases (.askedTable table) (h.tableExists table) hr
    · exact ⟨_, hmet, hsame ▸ .askTableFailed table next _ e⟩
    · obtain ⟨os, hmet', t⟩ := ih _ p'
      exact ⟨_, hmet.trans hmet', .askTable (hsame ▸ t)⟩
  | askColumns table next ih =>
    rw [run]
    rcases hr : runQuestion (session.recorded.tableColumns table) p with ⟨r, p'⟩
    obtain ⟨hsame, ⟨e, hmet, rfl⟩ | ⟨hmet, rfl⟩⟩ :=
      runQuestion_cases (.askedColumns table) (h.tableColumns table) hr
    · exact ⟨_, hmet, hsame ▸ .askColumnsFailed table next _ e⟩
    · obtain ⟨os, hmet', t⟩ := ih _ p'
      exact ⟨_, hmet.trans hmet', .askColumns (hsame ▸ t)⟩
  | askIndex table index next ih =>
    rw [run]
    rcases hr : runQuestion (session.recorded.indexExists table index) p with ⟨r, p'⟩
    obtain ⟨hsame, ⟨e, hmet, rfl⟩ | ⟨hmet, rfl⟩⟩ :=
      runQuestion_cases (.askedIndex table index) (h.indexExists table index) hr
    · exact ⟨_, hmet, hsame ▸ .askIndexFailed table index next _ e⟩
    · obtain ⟨os, hmet', t⟩ := ih _ p'
      exact ⟨_, hmet.trans hmet', .askIndex (hsame ▸ t)⟩

end Runs

end Migration

end DirectoryTables
