import DirectoryTables.Proofs.Backend.Boundaries
import DirectoryTables.Proofs.Bootstrap.Checks
import DirectoryTables.Proofs.Migration.Attempt

/-!
# Bootstrap — Fitted

The fitted name of an index.  Fitting is safe, tight and idempotent, whatever digest marks the
names that are cut (`FitsTightly`).  So an index has one name: the catalog is asked for it, the
statement has it as data and in its text, and it is reported (`index_names_alike`).

* `NamedAlike`: an index that is created is one of those planned, under its fitted name, and that
  name is in the text and in the question before.
* `guarded_applyIndexes`: every index is named alike, and the report lists those created.
-/

namespace DirectoryTables

/-- What fitting makes of a name. -/
structure Backend.FitsTightly (digest : String → List Char) (limit : Nat) (name : String) :
    Prop where
  short : name.utf8ByteSize ≤ limit → fitWith digest limit name = name
  long : limit < name.utf8ByteSize → IsCut digest limit name (fitWith digest limit name)
  again : fitWith digest limit (fitWith digest limit name) = fitWith digest limit name

theorem Backend.fitsTightly {digest : String → List Char} (hdigest : IsDigest digest) {limit : Nat}
    (hlimit : 9 ≤ limit) (name : String) : FitsTightly digest limit name :=
  ⟨fitWith_of_le, isCut_fitWith hdigest hlimit, fitWith_fitWith hdigest hlimit name⟩

namespace Bootstrap

open Migration

variable {b : Backend} {planned : List Statement} {events : List Event}

/-- An index that is created is one of those planned, under its fitted name; its table was asked
for an index of that name right before, and the text has that name. -/
def NamedAlike (b : Backend) (planned : List Statement) (before : List Event) (sql : String) :
    Statement → Prop
  | .createIndex i => (∃ x, .createIndex x ∈ planned ∧ i = { x with name := b.fit x.name }) ∧
      Checked b before sql (.createIndex i)
  | .createTable _ | .addColumn _ => True

/-- The events since `earlier` are those of a report that goes on from `r` to `r'`. -/
def Reports (r r' : IndexReport) (earlier events : List Event) : Prop :=
  ∃ since, events = earlier ++ since ∧
    r'.created = r.created ++ (Event.accepted since).filterMap Statement.createdIndex?

theorem Reports.trans {r₁ r₂ r₃ : IndexReport} {events₁ events₂ events₃ : List Event}
    (h : Reports r₁ r₂ events₁ events₂) (h' : Reports r₂ r₃ events₂ events₃) :
    Reports r₁ r₃ events₁ events₃ := by
  obtain ⟨since, rfl, hcreated⟩ := h
  obtain ⟨since', rfl, hcreated'⟩ := h'
  refine ⟨since ++ since', List.append_assoc _ _ _, ?_⟩
  rw [hcreated', hcreated, Event.accepted, Event.accepted, Event.accepted, List.filterMap_append,
    List.filterMap_append, List.append_assoc]

/-- A question tells of no index that was created. -/
theorem reports_skipped (b : Backend) (r : IndexReport) (s : Statement) (events : List Event)
    {question : Event} (h : Event.accepted [question] = []) :
    Reports r (r.add b s false) events (events ++ [question]) :=
  ⟨_, rfl, by rw [h]; exact (List.append_nil _).symm⟩

theorem guarded_applyIfAbsent {s : Statement} (hs : s ∈ planned) (events : List Event) :
    (applyIfAbsent b s).Guarded (NamedAlike b planned) b events fun issued events' =>
      ∀ r : IndexReport, Reports r (r.add b s issued) events events' := by
  cases s with
  | createTable t =>
    intro present
    cases present with
    | true => exact fun r => reports_skipped b r _ events rfl
    | false =>
      exact ⟨trivial, fun r => ⟨_, List.append_assoc _ _ _, (List.append_nil _).symm⟩⟩
  | addColumn a =>
    intro columns
    change Guarded _ b (if Text.listsName columns a.column.name then _ else _ : Migration Bool) _ _
    cases Text.listsName columns a.column.name with
    | true => exact fun r => reports_skipped b r _ events rfl
    | false =>
      exact ⟨trivial, fun r => ⟨_, List.append_assoc _ _ _, (List.append_nil _).symm⟩⟩
  | createIndex i =>
    intro present
    cases present with
    | true => exact fun r => reports_skipped b r _ events rfl
    | false =>
      refine ⟨⟨⟨i, hs, rfl⟩, ?_, events, rfl⟩, fun r => ⟨_, List.append_assoc _ _ _, rfl⟩⟩
      rw [Backend.render, Backend.createIndexSql, Backend.fit_fit]

/-- **The report lists the indexes that are created**, and each is named alike. -/
theorem guarded_applyIndexes {ss : List Statement} (hss : ∀ s ∈ ss, s ∈ planned)
    (r : IndexReport) (events : List Event) :
    (ss.foldlM (fun (report : IndexReport) statement => do
        return report.add b statement (← applyIfAbsent b statement)) r).Guarded
      (NamedAlike b planned) b events fun r' events' => Reports r r' events events' := by
  induction ss generalizing r events with
  | nil => exact ⟨[], (List.append_nil _).symm, (List.append_nil _).symm⟩
  | cons s ss ih =>
    rw [List.foldlM_cons]
    refine .bind (.bind ?_)
    refine (guarded_applyIfAbsent (hss s List.mem_cons_self) events).mono fun issued events' h => ?_
    have hrest := ih (fun s' hs' => hss s' (List.mem_cons_of_mem s hs')) (r.add b s issued) events'
    exact hrest.mono fun r' events'' h' => (h r).trans h'

/-- **An index has one name.**  With any digest a name that is short enough is fitted to itself, one
that is too long is cut at the last boundary that leaves room for the mark, and what is fitted is
fitted to itself.  When indexes are made, on any session and with any log, each that is created has
the fitted name of one that was planned in the question, in the statement and in its text, and the
report lists these names. -/
theorem index_names_alike (b : Backend) {digest : String → List Char}
    (hdigest : Backend.IsDigest digest) {σ τ : Type} (session : Session σ) (log : Log τ)
    (planned : List Statement) (s : σ) (t : τ) {r : Except RunError IndexReport}
    {p : Progress (σ × List Event) τ}
    (h : (applyIndexes b planned).run b session.recorded log { session := (s, []), log := t } =
      (r, p)) :
    (∀ name, Backend.FitsTightly digest b.maxNameLength name) ∧
      AllPermitted (NamedAlike b planned) p.session.2 ∧
      ∀ report, r = .ok report →
        report.created = (Event.accepted p.session.2).filterMap Statement.createdIndex? := by
  have hguarded : (applyIndexes b planned).Guarded (NamedAlike b planned) b [] fun r' events' =>
      Reports {} r' [] events' := guarded_applyIndexes (fun _ hs => hs) {} []
  refine ⟨Backend.fitsTightly hdigest b.nine_le_maxNameLength, ?_, ?_⟩
  · obtain ⟨-, rfl⟩ := Prod.ext_iff.mp h
    exact run_guarded hguarded allPermitted_nil
  · rintro report rfl
    obtain ⟨since, hsince, hcreated⟩ := run_guarded_eq_ok hguarded h
    rw [hsince]
    exact hcreated

/-- MySQL of an unknown version, where a name has 64 bytes at most. -/
def plainMysql : Backend where
  dialect := .mysql
  version := none

/-- A database with a table for permissions. -/
def permissions : Database where
  catalog := Catalog.empty.withTable "jansUmaResourcePermission" ["doc_id"]

/-- An index for permissions whose name is too long. -/
def permissionIndex : CreateIndex :=
  .plain (Backend.ticketIndex "jansUmaResourcePermission") "jansUmaResourcePermission"
    { name := "doc_id" }

/-- The index is created and reported under the name that it is cut to. -/
theorem index_names_alike_permissions :
    ∃ p : Progress (Database × List Event) (List String),
      (applyIndexes plainMysql [.createIndex permissionIndex]).run plainMysql
          Database.session.recorded Log.memory { session := (permissions, []), log := [] } =
        (.ok { created := [plainMysql.fit permissionIndex.name] }, p) ∧
      Backend.IsDigest Digest.hexDigest ∧
      (∀ name, Backend.FitsTightly Digest.hexDigest 64 name) ∧
      AllPermitted (NamedAlike plainMysql [.createIndex permissionIndex]) p.session.2 ∧
      (Event.accepted p.session.2).filterMap Statement.createdIndex? =
        [plainMysql.fit permissionIndex.name] ∧
      plainMysql.fit permissionIndex.name ≠ permissionIndex.name := by
  refine ⟨_, rfl, Backend.isDigest_hexDigest, ?_⟩
  obtain ⟨hfits, hnamed, hreport⟩ := index_names_alike plainMysql Backend.isDigest_hexDigest
    Database.session Log.memory [.createIndex permissionIndex] permissions [] rfl
  refine ⟨hfits, hnamed, (hreport _ rfl).symm, fun h => ?_⟩
  have hle : (plainMysql.fit permissionIndex.name).utf8ByteSize ≤ 64 :=
    plainMysql.utf8ByteSize_fit_le permissionIndex.name
  rw [h] at hle
  exact absurd hle (by decide)

end Bootstrap

end DirectoryTables
