import Mathlib.Data.List.Forall2

/-!
# Results

Computations that end with a value or with an error, and lists of them that run one after another
and stop at the first error.

* `mapM_eq_ok_iff`: a list succeeds with the values of its members, one for each.
* `map_mapM_congr`: lists of computations that end alike, as far as is seen of their results, end
  alike.
* `failure?`: the error a computation ends with.  That of a list is the first one of its members
  (`failure?_mapM`), and that of a computation in two parts is found in the parts in order
  (`failure?_bind`).
-/

namespace DirectoryTables

/-! ### Values -/

/-- The results of a list of computations that all succeed, one for each. -/
theorem mapM_eq_ok_iff {ε α β : Type} {f : α → Except ε β} {xs : List α} {ys : List β} :
    xs.mapM f = .ok ys ↔ List.Forall₂ (fun x y => f x = .ok y) xs ys := by
  induction xs generalizing ys with
  | nil => simp [pure, Except.pure, eq_comm]
  | cons x xs ih =>
    rw [List.mapM_cons, List.forall₂_cons_left_iff]
    cases hx : f x with
    | error e => simp [bind, Except.bind]
    | ok y =>
      cases hxs : xs.mapM f with
      | error e => simp [bind, Except.bind, ← ih, hxs]
      | ok zs => simp [bind, Except.bind, pure, Except.pure, ← ih, hxs, eq_comm]

/-- A list of computations keeps its values if each of them does that gives one. -/
theorem mapM_eq_ok_of_imp {ε α β : Type} {f f' : α → Except ε β} {xs : List α} {ys : List β}
    (h : xs.mapM f = .ok ys) (himp : ∀ x ∈ xs, ∀ y ∈ ys, f x = .ok y → f' x = .ok y) :
    xs.mapM f' = .ok ys := by
  rw [mapM_eq_ok_iff] at h ⊢
  induction h with
  | nil => exact .nil
  | cons hxy _ ih =>
    refine .cons (himp _ List.mem_cons_self _ List.mem_cons_self hxy) (ih fun x hx y hy => ?_)
    exact himp x (List.mem_cons_of_mem _ hx) y (List.mem_cons_of_mem _ hy)

/-- In two lists related one by one, each member of the first has a partner. -/
theorem exists_of_mem_forall₂ {α β : Type} {R : α → β → Prop} {xs : List α} {ys : List β}
    (h : List.Forall₂ R xs ys) {x : α} (hx : x ∈ xs) : ∃ y ∈ ys, R x y := by
  induction h with
  | nil => cases hx
  | cons hxy _ ih =>
    obtain rfl | hx := List.mem_cons.mp hx
    · exact ⟨_, List.mem_cons_self, hxy⟩
    · obtain ⟨y, hy, e⟩ := ih hx
      exact ⟨y, List.mem_cons_of_mem _ hy, e⟩

/-- Each result is that of some member of the list. -/
theorem exists_of_mem_mapM {ε α β : Type} {f : α → Except ε β} {xs : List α} {ys : List β}
    (h : xs.mapM f = .ok ys) {y : β} (hy : y ∈ ys) : ∃ x ∈ xs, f x = .ok y :=
  exists_of_mem_forall₂ (List.Forall₂.flip (R := fun y x => f x = .ok y) (mapM_eq_ok_iff.mp h)) hy

/-! ### What is seen of results -/

/-- The second parts of two computations are reached with values that look alike, and end alike
with every two such values. -/
theorem map_bind_congr {ε α β γ δ : Type} {x x' : Except ε α} {f f' : α → Except ε β}
    {g : α → γ} {k : β → δ} (hx : x.map g = x'.map g)
    (hf : ∀ a a', g a = g a' → (f a).map k = (f' a').map k) :
    (x >>= f).map k = (x' >>= f').map k := by
  cases x with
  | error e =>
    cases x' with
    | error e' => cases hx; rfl
    | ok a' => cases hx
  | ok a =>
    cases x' with
    | error e' => cases hx
    | ok a' => exact hf a a' (Except.ok.inj hx)

/-- Lists of computations that end alike, as far as is seen of their results, end alike. -/
theorem map_mapM_congr {ε α β γ : Type} {f f' : α → Except ε β} {g : β → γ} {xs : List α}
    (h : ∀ x ∈ xs, (f x).map g = (f' x).map g) :
    (xs.mapM f).map (List.map g) = (xs.mapM f').map (List.map g) := by
  induction xs with
  | nil => rfl
  | cons x xs ih =>
    rw [List.mapM_cons, List.mapM_cons]
    refine map_bind_congr (h x List.mem_cons_self) fun y y' hy => ?_
    refine map_bind_congr (ih fun x hx => h x (List.mem_cons_of_mem _ hx)) fun ys ys' hys => ?_
    exact congrArg Except.ok (congrArg₂ List.cons hy hys)

/-! ### Errors -/

/-- The error that a computation ends with, if it does not succeed. -/
def failure? {ε α : Type} : Except ε α → Option ε
  | .ok _ => none
  | .error e => some e

section Failure

variable {ε α β : Type} {x : Except ε α} {e : ε}

theorem failure?_eq_some_iff : failure? x = some e ↔ x = .error e := by
  cases x <;> simp [failure?]

/-- The second part of a computation is reached with a value of the first, and fails alike with
every such value. -/
theorem failure?_bind {f : α → Except ε β} {second : Option ε}
    (h : ∀ a, x = .ok a → failure? (f a) = second) :
    failure? (x >>= f) = (failure? x).or second := by
  cases x with
  | ok a => exact h a rfl
  | error e => rfl

@[simp] theorem failure?_bind_pure (x : Except ε α) (g : α → β) :
    failure? (x >>= fun a => pure (g a)) = failure? x := by
  cases x <;> rfl

theorem findSome?_flatMap {γ : Type} (f : α → List β) (g : β → Option γ) (xs : List α) :
    (xs.flatMap f).findSome? g = xs.findSome? fun x => (f x).findSome? g := by
  rw [← List.head?_filterMap, List.filterMap_flatMap, List.head?_flatMap]
  simp only [List.head?_filterMap]

/-- A list of computations fails as the first of them that does. -/
theorem failure?_mapM (f : α → Except ε β) (xs : List α) :
    failure? (xs.mapM f) = xs.findSome? fun x => failure? (f x) := by
  induction xs with
  | nil => rfl
  | cons x xs ih =>
    rw [List.mapM_cons, failure?_bind fun y _ => failure?_bind_pure _ _, ih, List.findSome?_cons]
    cases failure? (f x) <;> rfl

end Failure

end DirectoryTables
