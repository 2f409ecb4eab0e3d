import DirectoryTables.Migration.Run
import DirectoryTables.Proofs.Catalog.Growth

/-!
# Migrations — Course

What a migration does to a catalog where every call works.  `Course m c ss a c'` says that `m`
started on `c` issues the statements `ss`, that each of them is accepted, and that it ends with `a`
on `c'`.  It speaks of neither session nor log, and ties both kinds of runs together:

* `run_of_course`: on a database in memory with a reliable log, the run is the course.
* `exists_course_of_run`: with any log, a run that succeeds is the course.
* `run_interrupted`: where calls of the session and the log may fail, the run leaves the catalog
  after some of the first statements of the course.
-/

namespace DirectoryTables

/-- A log on which no call fails. -/
structure Log.Reliable {τ : Type} (log : Log τ) : Prop where
  record : ∀ sql t, (log.record sql t).1 = .ok ()
  flush : ∀ t, (log.flush t).1 = .ok ()

theorem Log.memory_reliable : Log.memory.Reliable := ⟨fun _ _ => rfl, fun _ => rfl⟩

/-- The log after the texts of several statements were recorded. -/
def Log.recordAll {τ : Type} (log : Log τ) (b : Backend) (statements : List Statement) (t : τ) :
    τ :=
  statements.foldl (fun t s => (log.record (b.render s) t).2) t

/-- The database after several statements, with the catalog that they leave. -/
def Database.after (db : Database) (b : Backend) (statements : List Statement) (c : Catalog) :
    Database :=
  { db with
    catalog := c
    history := db.history ++ statements.map fun s => (s.verb, b.render s) }

/-- `left` is the catalog after some of the first of the statements `ss`. -/
def Catalog.Midway (c : Catalog) (ss : List Statement) (left : Catalog) : Prop :=
  ∃ ss₁, ss₁ <+: ss ∧ c.applyAll ss₁ = .ok left

theorem Catalog.Midway.start (c : Catalog) (ss : List Statement) : c.Midway ss c :=
  ⟨[], List.nil_prefix, rfl⟩

theorem Catalog.Midway.cons {c c₁ left : Catalog} {s : Statement} {ss : List Statement}
    (h : c.apply s = .ok c₁) (t : c₁.Midway ss left) : c.Midway (s :: ss) left := by
  obtain ⟨ss₁, hpre, happ⟩ := t
  exact ⟨s :: ss₁, List.cons_prefix_cons.mpr ⟨rfl, hpre⟩,
    Catalog.applyAll_cons_eq_ok_iff.mpr ⟨c₁, h, happ⟩⟩

/-- An interruption falls within the first statements, or after them. -/
theorem Catalog.Midway.of_append {c c₁ left : Catalog} {ss₁ ss₂ : List Statement}
    (h : c.Midway (ss₁ ++ ss₂) left) (h₁ : c.applyAll ss₁ = .ok c₁) :
    c.Midway ss₁ left ∨ c₁.Midway ss₂ left := by
  obtain ⟨u, ⟨w, hw⟩, hu⟩ := h
  obtain ⟨v, rfl, -⟩ | ⟨v, rfl, rfl⟩ := List.append_eq_append_iff.mp hw
  · exact .inl ⟨u, List.prefix_append u v, hu⟩
  · obtain ⟨c₂, hc₂, happ⟩ := applyAll_append_eq_ok_iff.mp hu
    cases h₁.symm.trans hc₂
    exact .inr ⟨v, List.prefix_append v w, happ⟩

/-- What came before the interruption only adds to what was there. -/
theorem Catalog.Midway.start_grows {c left : Catalog} {ss : List Statement}
    (h : c.Midway ss left) : c.Grows left := by
  obtain ⟨ss₁, -, h₁⟩ := h
  exact grows_of_applyAll h₁

/-- What comes after the interruption only adds to what is there. -/
theorem Catalog.Midway.grows {c c' left : Catalog} {ss : List Statement} (h : c.Midway ss left)
    (happ : c.applyAll ss = .ok c') : left.Grows c' := by
  obtain ⟨ss₁, ⟨ss₂, rfl⟩, h₁⟩ := h
  obtain ⟨c₁, hc₁, h₂⟩ := applyAll_append_eq_ok_iff.mp happ
  cases h₁.symm.trans hc₁
  exact grows_of_applyAll h₂

namespace Migration

variable {α β ι τ : Type}

/-- Carried out on `c` where every call works, `m` issues `ss`, all accepted, and ends with `a` on
`c'`. -/
inductive Course : Migration α → Catalog → List Statement → α → Catalog → Prop where
  | done (a : α) (c : Catalog) : Course (.done a) c [] a c
  | issue {s : Statement} {next : Migration α} {c c₁ c' : Catalog} {ss : List Statement} {a : α}
      (h : c.apply s = .ok c₁) (t : Course next c₁ ss a c') :
      Course (.issue s next) c (s :: ss) a c'
  | askTable {table : String} {next : Bool → Migration α} {c c' : Catalog} {ss : List Statement}
      {a : α} (t : Course (next (c.hasTable table)) c ss a c') :
      Course (.askTable table next) c ss a c'
  | askColumns {table : String} {next : List String → Migration α} {c c' : Catalog}
      {ss : List Statement} {a : α} (t : Course (next (c.columns table)) c ss a c') :
      Course (.askColumns table next) c ss a c'
  | askIndex {table index : String} {next : Bool → Migration α} {c c' : Catalog}
      {ss : List Statement} {a : α} (t : Course (next (c.hasIndex table index)) c ss a c') :
      Course (.askIndex table index next) c ss a c'

namespace Course

variable {m : Migration α} {k : α → Migration β} {c c₁ c' : Catalog} {ss ss' : List Statement}
  {a : α} {b : β}

theorem bind (h : Course m c ss a c₁) (h' : Course (k a) c₁ ss' b c') :
    Course (m >>= k) c (ss ++ ss') b c' := by
  induction h with
  | done => exact h'
  | issue h _ ih => exact .issue h (ih h')
  | askTable _ ih => exact .askTable (ih h')
  | askColumns _ ih => exact .askColumns (ih h')
  | askIndex _ ih => exact .askIndex (ih h')

/-- A course that is followed by an answer. -/
theorem map (f : α → β) (h : Course m c ss a c') :
    Course (m >>= fun a => pure (f a)) c ss (f a) c' := by
  have t : Course (pure (f a)) c' [] (f a) c' := .done (f a) c'
  simpa using h.bind (k := fun a => pure (f a)) t

/-- What a migration issues, and how it ends, depends on nothing but the catalog it starts on. -/
theorem unique (h : Course m c ss a c₁) {a' : α} (h' : Course m c ss' a' c') :
    ss = ss' ∧ a = a' ∧ c₁ = c' := by
  induction h generalizing ss' with
  | done => cases h'; exact ⟨rfl, rfl, rfl⟩
  | issue h _ ih =>
    cases h' with
    | issue h' t' =>
      cases h.symm.trans h'
      obtain ⟨rfl, rfl, rfl⟩ := ih t'
      exact ⟨rfl, rfl, rfl⟩
  | askTable _ ih => cases h' with | askTable t' => exact ih t'
  | askColumns _ ih => cases h' with | askColumns t' => exact ih t'
  | askIndex _ ih => cases h' with | askIndex t' => exact ih t'

/-- Migrations in sequence that have nothing to do have nothing to do together. -/
theorem mapM_nil {f : ι → Migration α} {g : ι → α} {xs : List ι}
    (h : ∀ x ∈ xs, Course (f x) c [] (g x) c) : Course (xs.mapM f) c [] (xs.map g) c := by
  induction xs with
  | nil => exact .done [] c
  | cons x xs ih =>
    rw [List.mapM_cons]
    have hx : Course (f x) c [] (g x) c := h x List.mem_cons_self
    have hxs : Course (xs.mapM f) c [] (xs.map g) c :=
      ih fun y hy => h y (List.mem_cons_of_mem x hy)
    exact hx.bind (hxs.map (g x :: ·))

end Course

/-! ### Runs on which nothing fails -/

/-- **A run is its course**, on a database in memory with a log that never fails. -/
theorem run_of_course (b : Backend) {log : Log τ} (hlog : log.Reliable) {m : Migration α}
    {c c' : Catalog} {ss : List Statement} {a : α} (h : Course m c ss a c')
    {p : Progress Database τ} (hp : p.session.catalog = c) :
    m.run b Database.session log p =
      (.ok a, { session := p.session.after b ss c', log := log.recordAll b ss p.log,
                issued := p.issued + ss.length }) := by
  induction h generalizing p with
  | done => subst hp; simp [run, Database.after, Log.recordAll]
  | @issue s next _ c₁ _ _ _ h t ih =>
    subst hp
    have hs : runStatement b Database.session log s p =
        (.ok (), { session := p.session.after b [s] c₁, log := log.recordAll b [s] p.log,
                   issued := p.issued + 1 }) := by
      simp only [runStatement, Database.session, Database.execute, h, hlog.record]
      rfl
    rw [run, hs]
    refine (ih rfl).trans ?_
    simp [Database.after, Log.recordAll, Nat.add_assoc, Nat.add_comm 1]
  | askTable t ih | askColumns t ih | askIndex t ih =>
    subst hp
    exact ih rfl

/-- A statement that a run went past was accepted. -/
theorem runStatement_eq_ok {b : Backend} {log : Log τ} {s : Statement}
    {p p' : Progress Database τ} (h : runStatement b Database.session log s p = (.ok (), p')) :
    ∃ c₁, p.session.catalog.apply s = .ok c₁ ∧ p'.session = p.session.after b [s] c₁ ∧
      p'.issued = p.issued + 1 := by
  simp only [runStatement, Database.session, Database.execute] at h
  cases happ : p.session.catalog.apply s with
  | error e => simp only [happ] at h; cases h
  | ok c₁ =>
    simp only [happ] at h
    cases hrecord : (log.record (b.render s) p.log).1 with
    | error e => rw [hrecord] at h; cases h
    | ok _ => rw [hrecord] at h; cases h; exact ⟨c₁, rfl, rfl, rfl⟩

/-- **A run that succeeds has a course**, whatever the log: a run ends where a call of the log
fails. -/
theorem exists_course_of_run {b : Backend} {log : Log τ} {m : Migration α} {a : α}
    {p p' : Progress Database τ} (h : m.run b Database.session log p = (.ok a, p')) :
    ∃ ss c', Course m p.session.catalog ss a c' ∧ p'.session = p.session.after b ss c' ∧
      p'.issued = p.issued + ss.length := by
  induction m generalizing p with
  | done a => cases h; exact ⟨[], _, .done _ _, by simp [Database.after], rfl⟩
  | issue s next ih =>
    rw [run] at h
    split at h
    case h_1 p₁ hs =>
      obtain ⟨c₁, happ, hsession, hissued⟩ := runStatement_eq_ok hs
      obtain ⟨ss, c', hcourse, hsession', hissued'⟩ := ih h
      rw [hsession] at hcourse hsession'
      refine ⟨s :: ss, c', .issue happ hcourse, ?_, ?_⟩
      · simp [hsession', Database.after]
      · rw [hissued', hissued, List.length_cons, Nat.add_assoc, Nat.add_comm 1]
    case h_2 => cases h
  | askTable table next ih =>
    obtain ⟨ss, c', hcourse, hleft⟩ := ih _ h
    exact ⟨ss, c', .askTable hcourse, hleft⟩
  | askColumns table next ih =>
    obtain ⟨ss, c', hcourse, hleft⟩ := ih _ h
    exact ⟨ss, c', .askColumns hcourse, hleft⟩
  | askIndex table index next ih =>
    obtain ⟨ss, c', hcourse, hleft⟩ := ih _ h
    exact ⟨ss, c', .askIndex hcourse, hleft⟩

/-! ### Runs on which calls may fail -/

section Interrupted

variable {fails : Nat → Call → Option SessionError} {b : Backend} {log : Log τ}
  {p : Progress (Database × Nat) τ}

/-- A question leaves the database as it was, whether it fails or not. -/
theorem runQuestion_numbered {call : Call} {answer : Database → ι} {r : Except RunError ι}
    {p' : Progress (Database × Nat) τ}
    (h : runQuestion (Session.numbered fails call fun db => (.ok (answer db), db)) p = (r, p')) :
    p'.session.1 = p.session.1 ∧ ∀ x, r = .ok x → x = answer p.session.1 := by
  simp only [runQuestion, Session.numbered] at h
  cases hf : fails p.session.2 call with
  | none => rw [hf] at h; cases h; exact ⟨rfl, fun x hx => by cases hx; rfl⟩
  | some e => rw [hf] at h; cases h; exact ⟨rfl, fun x hx => by cases hx⟩

/-- A statement that the database accepts is carried out, unless it fails in the session; when only
the log fails, it was carried out. -/
theorem runStatement_interrupted {s : Statement} {c₁ : Catalog} {r : Except RunError Unit}
    {p' : Progress (Database × Nat) τ} (hs : p.session.1.catalog.apply s = .ok c₁)
    (h : runStatement b (Database.session.interrupted fails) log s p = (r, p')) :
    (p'.session.1.catalog = p.session.1.catalog ∧ r ≠ .ok ()) ∨ p'.session.1.catalog = c₁ := by
  simp only [runStatement, Session.interrupted, Session.numbered, Database.session,
    Database.execute, hs] at h
  cases hf : fails p.session.2 (.execute (b.render s) s) with
  | some e => rw [hf] at h; cases h; exact .inl ⟨rfl, fun e => by cases e⟩
  | none =>
    rw [hf] at h
    cases hr : (log.record (b.render s) p.log).1 <;> rw [hr] at h <;> cases h <;> exact .inr rfl

/-- **What an interrupted run leaves behind**: the catalog after some of the first statements of
the course. -/
theorem run_interrupted {m : Migration α} {c c' : Catalog} {ss : List Statement} {a : α}
    (h : Course m c ss a c') (hp : p.session.1.catalog = c) :
    c.Midway ss (m.run b (Database.session.interrupted fails) log p).2.session.1.catalog := by
  induction h generalizing p with
  | done => subst hp; exact .start _ _
  | issue h t ih =>
    subst hp
    rw [run]
    split
    · next p' hr =>
      obtain ⟨-, hne⟩ | hp' := runStatement_interrupted h hr
      · exact absurd rfl hne
      · exact .cons h (ih hp')
    · next e p' hr =>
      -- the statement failed, or it was carried out and the log failed
      obtain ⟨hp', -⟩ | hp' := runStatement_interrupted h hr
      · exact hp' ▸ .start _ _
      · exact .cons h (hp' ▸ .start _ _)
  | askTable t ih | askColumns t ih | askIndex t ih =>
    subst hp
    rw [run]
    split
    · next x p' hr =>
      obtain ⟨hp', hx⟩ := runQuestion_numbered hr
      obtain rfl := hx x rfl
      exact ih (congrArg Database.catalog hp')
    · next e p' hr =>
      obtain ⟨hp', -⟩ := runQuestion_numbered hr
      exact congrArg Database.catalog hp' ▸ .start _ _

end Interrupted

end Migration

end DirectoryTables
