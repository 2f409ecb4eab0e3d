import DirectoryTables.Proofs.Bootstrap.Steps
import DirectoryTables.Proofs.Catalog.Changes
import DirectoryTables.Proofs.Catalog.Refusal

/-!
# Migrations — Absence

Applying a statement unless its object is there, on any database in memory and for any statement.
It does nothing where the object is there, and is otherwise the statement itself, with the name of
an index fitted (`run_applyIfAbsent`).  What the question looks for is what the statement makes
(`holds_of_apply_fitted`), and what the database takes for a duplicate (`holds_of_duplicate`); so
the statement is never refused for a duplicate, and applying it again does nothing
(`applyIfAbsent_sound`).
-/

namespace DirectoryTables

namespace Catalog

variable {b : Backend} {c c' : Catalog} {s : Statement}

/-- An accepted statement makes its object. -/
theorem holds_of_apply_fitted (h : c.apply (s.fitted b) = .ok c') : c'.holds b s = true := by
  cases s with
  | createTable t => exact (hasTable_of_apply h).mpr (.inr rfl)
  | addColumn a => exact (hasColumn_of_apply_iff h).mpr (.inr ⟨rfl, rfl⟩)
  | createIndex i => exact (hasIndex_of_apply_iff h).mpr (.inr ⟨_, rfl, rfl, rfl⟩)

/-- A statement is refused for a duplicate only where its object is there. -/
theorem holds_of_duplicate {object : String} (h : Refusal c (s.fitted b) (.duplicate object)) :
    c.holds b s = true := by
  cases s with
  | createTable t => cases h with | tablePresent h => exact h
  | addColumn a => cases h with | columnPresent ht h => exact (hasColumn_of_table? ht _).trans h
  | createIndex i => cases h with | indexPresent ht h => exact (hasIndex_of_table? ht _).trans h

end Catalog

namespace Migration

variable {τ : Type} {b : Backend} {log : Log τ} {s : Statement} {p q : Progress Database τ}

theorem run_unless (b : Backend) (log : Log τ) (present : Bool) (m : Migration Bool)
    (p : Progress Database τ) :
    (if present then done false else m).run b Database.session log p =
      if present then (.ok false, p) else m.run b Database.session log p := by
  cases present <;> rfl

/-- **Applied unless it is there**, a statement is issued with the name of an index fitted, or
nothing is done. -/
theorem run_applyIfAbsent (b : Backend) (log : Log τ) (s : Statement) (p : Progress Database τ) :
    (applyIfAbsent b s).run b Database.session log p =
      if p.session.catalog.holds b s then (.ok false, p)
      else (issue (s.fitted b) (done true)).run b Database.session log p := by
  cases s with
  | createTable t => exact run_unless b log (p.session.catalog.hasTable t.name) _ p
  | addColumn a =>
    exact run_unless b log (p.session.catalog.hasColumn a.table a.column.name) _ p
  | createIndex i =>
    exact run_unless b log (p.session.catalog.hasIndex i.table (b.fit i.name)) _ p

theorem run_applyIfAbsent_of_holds (b : Backend) (log : Log τ)
    (h : p.session.catalog.holds b s = true) :
    (applyIfAbsent b s).run b Database.session log p = (.ok false, p) := by
  rw [run_applyIfAbsent, if_pos h]

/-- What becomes of a statement whose object is not there: it is accepted and makes the object, or
it is refused, but not for a duplicate. -/
theorem run_applyIfAbsent_cases (hlog : log.Reliable) (h : p.session.catalog.holds b s = false) :
    (∃ q, (applyIfAbsent b s).run b Database.session log p = (.ok true, q) ∧
      q.session.catalog.holds b s = true) ∨
    ∃ cause q, (applyIfAbsent b s).run b Database.session log p =
        (.error (.execution (b.render (s.fitted b)) cause), q) ∧
      ∀ object, cause ≠ .duplicate object := by
  rw [run_applyIfAbsent, if_neg (Bool.eq_false_iff.mp h)]
  cases happ : p.session.catalog.apply (s.fitted b) with
  | ok c' =>
    have hcourse : Course (issue (s.fitted b) (done true)) p.session.catalog [s.fitted b] true c' :=
      .issue happ (.done true c')
    exact .inl ⟨_, run_of_course b hlog hcourse rfl, Catalog.holds_of_apply_fitted happ⟩
  | error cause =>
    have hrefusal := Catalog.apply_eq_error_iff.mp happ
    refine .inr ⟨cause, (runStatement b Database.session log (s.fitted b) p).2, ?_, ?_⟩
    · simp only [run, runStatement, Database.session, Database.execute_of_error happ]
    · rintro object rfl
      rw [Catalog.holds_of_duplicate hrefusal] at h
      cases h

/-- **Applying a statement if absent is sound**, whatever the statement and the database, where the
log does not fail.  It never fails for a duplicate; where it succeeds the object is there, and
applying the statement again does nothing; and it says that it issued nothing exactly if the object
was there before, and then nothing is issued, recorded or changed. -/
theorem applyIfAbsent_sound (hlog : log.Reliable) {r : Except RunError Bool}
    (h : (applyIfAbsent b s).run b Database.session log p = (r, q)) :
    (∀ e, r = .error e → ∃ sql cause, e = .execution sql cause ∧
        ∀ object, cause ≠ .duplicate object) ∧
      (∀ issued, r = .ok issued → q.session.catalog.holds b s = true ∧
        (applyIfAbsent b s).run b Database.session log q = (.ok false, q)) ∧
      (r = .ok false ↔ p.session.catalog.holds b s = true) ∧
      (r = .ok false → q = p) := by
  cases hb : p.session.catalog.holds b s with
  | true =>
    have hagain := run_applyIfAbsent_of_holds b log hb
    cases hagain.symm.trans h
    exact ⟨nofun, fun _ _ => ⟨hb, hagain⟩, iff_of_true rfl rfl, fun _ => rfl⟩
  | false =>
    obtain ⟨q', hrun, hmade⟩ | ⟨cause, q', hrun, hcause⟩ := run_applyIfAbsent_cases hlog hb
    · cases hrun.symm.trans h
      exact ⟨nofun, fun _ _ => ⟨hmade, run_applyIfAbsent_of_holds b log hmade⟩,
        iff_of_false nofun nofun, nofun⟩
    · cases hrun.symm.trans h
      refine ⟨?_, nofun, iff_of_false nofun nofun, nofun⟩
      rintro e ⟨⟩
      exact ⟨_, cause, rfl, hcause⟩

/-- PostgreSQL of an unknown version. -/
def plainPgsql : Backend where
  dialect := .pgsql
  version := none

/-- A column for mail addresses. -/
def mailColumn (name : String) : Statement :=
  .addColumn { table := "gluuPerson", column := { name, type := .text } }

/-- The column is added to a table that lacks it, and is then there in any letter case. -/
theorem applyIfAbsent_sound_mailColumn :
    Log.memory.Reliable ∧ ∃ q,
      (applyIfAbsent plainPgsql (mailColumn "Mail")).run plainPgsql Database.session Log.memory
          { session := { catalog := Catalog.empty.withTable "gluuPerson" ["doc_id"] }, log := [] } =
        (.ok true, q) ∧
      q.session.catalog.columns "gluuPerson" = ["doc_id", "Mail"] ∧
      q.session.catalog.holds plainPgsql (mailColumn "Mail") = true ∧
      (applyIfAbsent plainPgsql (mailColumn "mAIL")).run plainPgsql Database.session Log.memory q =
        (.ok false, q) := by
  refine ⟨Log.memory_reliable, _, rfl, rfl, ?_⟩
  obtain ⟨-, hok, -⟩ := applyIfAbsent_sound Log.memory_reliable
    (b := plainPgsql) (s := mailColumn "Mail")
    (p := {
      session := { catalog := Catalog.empty.withTable "gluuPerson" ["doc_id"] }, log := [] }) rfl
  exact ⟨(hok true rfl).1, rfl⟩

end Migration

end DirectoryTables
