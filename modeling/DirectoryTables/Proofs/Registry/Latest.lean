import DirectoryTables.Proofs.Registry.Places

/-!
# Registries — The latest definition

Which definition a name leads to, when definitions are joined and never lose a name.

A definition goes to one place, and only the names it then has are entered again.  What a name
leads to is therefore a matter of order: the last definition that went to a place with that name.

* `Registry.visits`: the places that definitions go to, one after another.
* `place?_ofList`: a name leads to the place visited last among those that carry it.
* `place?_ofList_eq_some_iff`: it leads to a given place if no place visited since carries it.
-/

namespace DirectoryTables.Registry

variable {α : Type} {namesOf : α → List String} {join : α → α → α} {r r' : Registry α} {a : α}

/-- The definition in the place has the name. -/
def carries (namesOf : α → List String) (r : Registry α) (name : String) (i : Nat) : Bool :=
  r.items[i]?.any fun x => Text.listsName (namesOf x) name

theorem carries_of_getElem? {i : Nat} {x : α} (h : r.items[i]? = some x) (name : String) :
    r.carries namesOf name i = Text.listsName (namesOf x) name := by
  rw [carries, h, Option.any_some]

/-- The places that definitions go to, one after another. -/
def visits (namesOf : α → List String) (join : α → α → α) : Registry α → List α → List Nat
  | _, [] => []
  | r, a :: rest => r.placeOf namesOf a :: visits namesOf join (r.define namesOf join a) rest

theorem visits_concat (r : Registry α) (definitions : List α) (a : α) :
    visits namesOf join r (definitions ++ [a]) =
      visits namesOf join r definitions ++
        [(definitions.foldl (define namesOf join) r).placeOf namesOf a] := by
  induction definitions generalizing r with
  | nil => rfl
  | cons b definitions ih =>
    rw [List.cons_append, visits, visits, ih, List.cons_append, List.foldl_cons]

/-! ### Definitions that keep their names -/

/-- A name that the new definition does not leave in its place was in the places it is in now. -/
theorem Settles.carries_eq {i : Nat} {y : α} (hs : Settles namesOf join r a i y r')
    (hjoin : ∀ x name, Text.listsName (namesOf x) name = true →
      Text.listsName (namesOf (join x a)) name = true) {name : String}
    (hy : Text.listsName (namesOf y) name = false) (j : Nat) :
    r'.carries namesOf name j = r.carries namesOf name j := by
  by_cases hji : j = i
  · subst hji
    rw [carries_of_getElem? hs.here, hy]
    rcases hs.origin with ⟨x, hx, rfl, -⟩ | ⟨rfl, -⟩
    · rw [carries_of_getElem? hx]
      by_contra h
      rw [hjoin x name (by simpa using h)] at hy
      cases hy
    · rw [carries, List.getElem?_eq_none (Nat.le_refl _), Option.any_none]
  · rw [carries, carries, hs.elsewhere j hji]

/-- **The latest definition counts.**  A name leads to the place visited last among those whose
definition carries it. -/
theorem place?_ofList (hjoin : ∀ x a name, Text.listsName (namesOf x) name = true →
      Text.listsName (namesOf (join x a)) name = true) (definitions : List α) (name : String) :
    (ofList namesOf join definitions).place? name =
      (visits namesOf join .empty definitions).reverse.find?
        ((ofList namesOf join definitions).carries namesOf name) := by
  induction definitions using List.reverseRecOn with
  | nil => rfl
  | append_singleton definitions a ih =>
    obtain ⟨y, hs⟩ := settles_placeOf_concat namesOf join definitions a
    rw [hs.place, visits_concat, List.reverse_concat, List.find?_cons,
      ← ofList, carries_of_getElem? hs.here]
    cases hy : Text.listsName (namesOf y) name with
    | true => rfl
    | false =>
      rw [if_neg Bool.false_ne_true, ih, funext (hs.carries_eq (fun x => hjoin x a) hy)]

/-- A name leads to a place if it is carried there and no place visited since carries it. -/
theorem place?_ofList_eq_some_iff (hjoin : ∀ x a name, Text.listsName (namesOf x) name = true →
      Text.listsName (namesOf (join x a)) name = true) {definitions : List α} {name : String}
    {i : Nat} :
    (ofList namesOf join definitions).place? name = some i ↔
      (ofList namesOf join definitions).carries namesOf name i = true ∧
        ∃ before after, visits namesOf join .empty definitions = before ++ i :: after ∧
          ∀ j ∈ after, (ofList namesOf join definitions).carries namesOf name j = false := by
  rw [place?_ofList hjoin, List.find?_eq_some_iff_append]
  refine and_congr_right fun _ => ?_
  constructor
  · rintro ⟨later, earlier, e, hlater⟩
    refine ⟨earlier.reverse, later.reverse, ?_, fun j hj => ?_⟩
    · rw [← List.reverse_reverse (visits _ _ _ _), e]
      simp
    · simpa using hlater j (List.mem_reverse.mp hj)
  · rintro ⟨before, after, e, hafter⟩
    refine ⟨after.reverse, before.reverse, ?_, fun j hj => ?_⟩
    · rw [e]
      simp
    · simpa using hafter j (List.mem_reverse.mp hj)

end DirectoryTables.Registry
