import DirectoryTables.Proofs.Bootstrap.Steps

/-!
# Bootstrap — Passes

A pass takes the steps of a bootstrap one after another (`Pass`); each looks at the catalog that
the steps before it left.

* `Ordered before steps`: what a step relies on is there once the steps before it are settled.
* `exists_pass`: ordered steps have a pass from every catalog, and it settles them all.
* `Pass.of_settled`: on a catalog on which every step is settled, the pass issues nothing.
-/

namespace DirectoryTables.Bootstrap

variable {b : Backend} {cfg : Config}

/-- Started on `c`, the steps issue `ss`, each statement is accepted, and they end on `c'`. -/
inductive Pass (b : Backend) (cfg : Config) :
    List Step → Catalog → List Statement → Catalog → Prop where
  | nil (c : Catalog) : Pass b cfg [] c [] c
  | cons {x : Step} {steps : List Step} {c c₁ c' : Catalog} {ss : List Statement}
      (h : c.applyAll (x.statements b cfg c) = .ok c₁) (t : Pass b cfg steps c₁ ss c') :
      Pass b cfg (x :: steps) c (x.statements b cfg c ++ ss) c'

namespace Pass

variable {steps steps' : List Step} {c c₁ c' : Catalog} {ss ss' : List Statement}

theorem applyAll (h : Pass b cfg steps c ss c') : c.applyAll ss = .ok c' := by
  induction h with
  | nil => rfl
  | cons h _ ih => exact Catalog.applyAll_append_eq_ok_iff.mpr ⟨_, h, ih⟩

theorem grows (h : Pass b cfg steps c ss c') : c.Grows c' := Catalog.grows_of_applyAll h.applyAll

theorem append (h : Pass b cfg steps c ss c₁) (h' : Pass b cfg steps' c₁ ss' c') :
    Pass b cfg (steps ++ steps') c (ss ++ ss') c' := by
  induction h with
  | nil => exact h'
  | cons h _ ih => rw [List.append_assoc]; exact .cons h (ih h')

theorem of_append (h : Pass b cfg (steps ++ steps') c ss c') :
    ∃ ss₁ c₁ ss₂, Pass b cfg steps c ss₁ c₁ ∧ Pass b cfg steps' c₁ ss₂ c' ∧ ss = ss₁ ++ ss₂ := by
  induction steps generalizing c ss with
  | nil => exact ⟨[], c, ss, .nil c, h, rfl⟩
  | cons x steps ih =>
    cases h with
    | cons h t =>
      obtain ⟨ss₁, c₁, ss₂, h₁, h₂, rfl⟩ := ih t
      exact ⟨_, c₁, ss₂, .cons h h₁, h₂, (List.append_assoc _ _ _).symm⟩

/-- What a pass issues and leaves depends on nothing but the catalog it starts on. -/
theorem unique (h : Pass b cfg steps c ss c₁) (h' : Pass b cfg steps c ss' c') :
    ss = ss' ∧ c₁ = c' := by
  induction h generalizing ss' with
  | nil => cases h'; exact ⟨rfl, rfl⟩
  | cons h _ ih =>
    cases h' with
    | cons h' t' =>
      cases h.symm.trans h'
      obtain ⟨rfl, rfl⟩ := ih t'
      exact ⟨rfl, rfl⟩

/-- A step that issues nothing is passed over. -/
theorem skip {x : Step} (hx : x.statements b cfg c = []) (h : Pass b cfg steps c ss c') :
    Pass b cfg (x :: steps) c ss c' := by
  have hc : c.applyAll (x.statements b cfg c) = .ok c := by rw [hx, Catalog.applyAll_nil]
  have := Pass.cons hc h
  rwa [hx] at this

/-- Where every step is settled, nothing is issued. -/
theorem of_settled (h : ∀ x ∈ steps, x.Settled b c) : Pass b cfg steps c [] c := by
  induction steps with
  | nil => exact .nil c
  | cons x steps ih =>
    exact .skip (Step.statements_of_settled (h x List.mem_cons_self))
      (ih fun y hy => h y (List.mem_cons_of_mem x hy))

end Pass

/-! ### Steps in order -/

/-- What each step relies on is there once the steps of `before`, and those that come before it,
are settled. -/
def Ordered (b : Backend) : List Step → List Step → Prop
  | _, [] => True
  | before, x :: steps =>
    (∀ c, (∀ y ∈ before, y.Settled b c) → x.Ready c) ∧ Ordered b (x :: before) steps

namespace Ordered

variable {before before' steps steps' : List Step}

theorem mono (h : Ordered b before steps) (hs : before ⊆ before') : Ordered b before' steps := by
  induction steps generalizing before before' with
  | nil => trivial
  | cons x steps ih =>
    exact ⟨fun c hc => h.1 c fun y hy => hc y (hs hy), ih h.2 (List.cons_subset_cons x hs)⟩

theorem append (h : Ordered b before steps) (h' : Ordered b (steps ++ before) steps') :
    Ordered b before (steps ++ steps') := by
  induction steps generalizing before with
  | nil => exact h'
  | cons x steps ih =>
    refine ⟨h.1, ih h.2 (h'.mono fun y hy => ?_)⟩
    simp only [List.cons_append, List.mem_cons, List.mem_append] at hy ⊢
    exact or_left_comm.mp hy

theorem of_append (h : Ordered b before (steps ++ steps')) :
    Ordered b before steps ∧ Ordered b (steps ++ before) steps' := by
  induction steps generalizing before with
  | nil => exact ⟨trivial, h⟩
  | cons x steps ih =>
    obtain ⟨h₁, h₂⟩ := ih h.2
    refine ⟨⟨h.1, h₁⟩, h₂.mono fun y hy => ?_⟩
    simp only [List.cons_append, List.mem_cons, List.mem_append] at hy ⊢
    exact or_left_comm.mp hy

/-- Steps each of which only relies on the steps of `before` are in order. -/
theorem of_forall (h : ∀ x ∈ steps, ∀ c, (∀ y ∈ before, y.Settled b c) → x.Ready c) :
    Ordered b before steps := by
  induction steps with
  | nil => trivial
  | cons x steps ih =>
    have ht : Ordered b before steps := ih fun y hy => h y (List.mem_cons_of_mem x hy)
    exact ⟨h x List.mem_cons_self, ht.mono (List.subset_cons_self x before)⟩

/-- Groups of steps, each of which only relies on the steps of `before` and on its own, are in
order. -/
theorem flatMap {ι : Type} {f : ι → List Step} {xs : List ι}
    (h : ∀ i ∈ xs, Ordered b before (f i)) : Ordered b before (xs.flatMap f) := by
  induction xs with
  | nil => trivial
  | cons i xs ih =>
    rw [List.flatMap_cons]
    have ht : Ordered b before (xs.flatMap f) := ih fun j hj => h j (List.mem_cons_of_mem i hj)
    exact (h i List.mem_cons_self).append (ht.mono (List.subset_append_right _ _))

end Ordered

/-- **Steps in order have a pass** from every catalog on which the steps of `before` are settled,
and it leaves a catalog on which they all are. -/
theorem exists_pass {before steps : List Step} {c : Catalog} (h : Ordered b before steps)
    (hb : ∀ y ∈ before, y.Settled b c) :
    ∃ ss c', Pass b cfg steps c ss c' ∧ ∀ y ∈ steps, y.Settled b c' := by
  -- what is settled stays so, since a catalog only grows
  induction steps generalizing before c with
  | nil => exact ⟨[], c, .nil c, fun y hy => by cases hy⟩
  | cons x steps ih =>
    obtain ⟨c₁, h₁, hx⟩ := Step.exists_applyAll b cfg (h.1 c hb)
    have hb₁ : ∀ y ∈ x :: before, y.Settled b c₁ :=
      Step.settled_cons hx hb (Catalog.grows_of_applyAll h₁)
    obtain ⟨ss, c', h₂, hs⟩ := ih h.2 hb₁
    refine ⟨_, c', .cons h₁ h₂, fun y hy => ?_⟩
    obtain rfl | hy := List.mem_cons.mp hy
    · exact hx.mono h₂.grows
    · exact hs y hy

/-- A pass of steps in order leaves them settled. -/
theorem Pass.settled {before steps : List Step} {c c' : Catalog} {ss : List Statement}
    (ho : Ordered b before steps) (hb : ∀ y ∈ before, y.Settled b c)
    (h : Pass b cfg steps c ss c') : ∀ y ∈ steps, y.Settled b c' := by
  obtain ⟨ss', c₁, hpass, hset⟩ :
      ∃ ss' c₁, Pass b cfg steps c ss' c₁ ∧ ∀ y ∈ steps, y.Settled b c₁ := exists_pass ho hb
  cases (h.unique hpass).2
  exact hset

end DirectoryTables.Bootstrap
