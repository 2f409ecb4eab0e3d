import DirectoryTables.Registry
import DirectoryTables.Proofs.Text.Distinct

/-!
# Registries — Places

What one more definition does to a registry, and what all registries made of definitions have in
common.

* `Registry.Settles`: a registry after one more definition, place by place and name by name; every
  definition leaves its registry so (`exists_settles`).
* `Registry.InRange`: a name leads to a definition, if it leads anywhere.
* `Registry.Covers`: the names of every definition are entered.
* `Registry.Sound`: the definition that a name leads to carries the name.  Registries that only
  add names to their definitions are sound (`Settles.sound`); one that replaces them need not be.
-/

namespace DirectoryTables.Registry

variable {α : Type} {namesOf : α → List String} {join : α → α → α} {r r' : Registry α} {a : α}

/-! ### One more definition -/

theorem get?_enter (places : Dict Nat) (names : List String) (place : Nat) (name : String) :
    (enter places names place).get? (Text.lower name) =
      if Text.listsName names name then some place else places.get? (Text.lower name) := by
  induction names generalizing places with
  | nil => rfl
  | cons m names ih =>
    have hstep : enter places (m :: names) place =
        enter (places.insert (Text.lower m) place) names place := rfl
    rw [hstep, ih, Dict.get?_insert, Text.listsName_cons]
    by_cases hm : Text.lower name = Text.lower m
    · rw [if_pos hm, Text.sameName_iff.mpr hm.symm, Bool.true_or, if_pos rfl, ite_self]
    · have hne : Text.sameName m name = false := by
        rw [Text.sameName, beq_eq_false_iff_ne]
        exact fun e => hm e.symm
      rw [if_neg hm, hne, Bool.false_or]

/-- One more definition was made and stands, joined to an earlier one or alone, in the place `i` as
`y`: nothing else has changed, and the names of `y` lead there. -/
structure Settles (namesOf : α → List String) (join : α → α → α) (r : Registry α) (a : α)
    (i : Nat) (y : α) (r' : Registry α) : Prop where
  here : r'.items[i]? = some y
  elsewhere : ∀ j, j ≠ i → r'.items[j]? = r.items[j]?
  place : ∀ name, r'.place? name =
    if Text.listsName (namesOf y) name then some i else r.place? name
  /-- The place is that of a known name, or a new one where no name is known. -/
  origin : (∃ x, r.items[i]? = some x ∧ y = join x a ∧
      ∃ name ∈ namesOf a, r.place? name = some i) ∨
    (i = r.items.length ∧ y = a ∧ ∀ name ∈ namesOf a, r.place? name = none)

/-- A name leads to a definition, if it leads anywhere. -/
def InRange (r : Registry α) : Prop :=
  ∀ name i, r.place? name = some i → ∃ x, r.items[i]? = some x

/-- The place that one more definition is given: that of its first known name, or a new one. -/
def placeOf (namesOf : α → List String) (r : Registry α) (a : α) : Nat :=
  ((namesOf a).findSome? r.place?).getD r.items.length

theorem settles_placeOf (namesOf : α → List String) (join : α → α → α) (h : r.InRange) (a : α) :
    ∃ y, Settles namesOf join r a (r.placeOf namesOf a) y (r.define namesOf join a) := by
  cases hknown : (namesOf a).findSome? r.place? with
  | none =>
    have hhere : (r.items ++ [a])[r.items.length]? = some a := List.getElem?_concat_length
    rw [placeOf, hknown, Option.getD_none]
    refine ⟨a, ?_, fun j hj => ?_, fun name => ?_,
      .inr ⟨rfl, rfl, List.findSome?_eq_none_iff.mp hknown⟩⟩
    · simp only [define, hknown, hhere]
    · simp only [define, hknown]
      grind
    · simp only [define, place?, hknown, Option.getD_none, hhere, Option.map_some, Option.getD_some,
        get?_enter]
  | some i =>
    obtain ⟨name, hname, hplace⟩ := List.exists_of_findSome?_eq_some hknown
    obtain ⟨x, hx⟩ := h name i hplace
    have hhere : (r.items.modify i (join · a))[i]? = some (join x a) := by
      rw [List.getElem?_modify_eq, hx]; rfl
    rw [placeOf, hknown, Option.getD_some]
    refine ⟨join x a, ?_, fun j hj => ?_, fun m => ?_, .inl ⟨x, hx, rfl, name, hname, hplace⟩⟩
    · simp only [define, hknown, hhere]
    · simp only [define, hknown]
      exact List.getElem?_modify_ne _ _ hj.symm
    · simp only [define, place?, hknown, Option.getD_some, hhere, Option.map_some, get?_enter]

theorem exists_settles (namesOf : α → List String) (join : α → α → α) (h : r.InRange) (a : α) :
    ∃ i y, Settles namesOf join r a i y (r.define namesOf join a) :=
  ⟨_, settles_placeOf namesOf join h a⟩

section Settles

variable {i : Nat} {x y : α} (hs : Settles namesOf join r a i y r')

include hs

theorem Settles.map_items_of_eq {β : Type} {f : α → β} (hx : r.items[i]? = some x)
    (hf : f y = f x) : r'.items.map f = r.items.map f := by
  refine List.ext_getElem? fun j => ?_
  rw [List.getElem?_map, List.getElem?_map]
  by_cases hji : j = i
  · subst hji
    rw [hs.here, hx, Option.map_some, Option.map_some, hf]
  · rw [hs.elsewhere j hji]

theorem Settles.items_of_new (hi : i = r.items.length) : r'.items = r.items ++ [y] := by
  refine List.ext_getElem? fun j => ?_
  by_cases hji : j = i
  · subst hji
    rw [hs.here, hi, List.getElem?_concat_length]
  · rw [hs.elsewhere j hji]
    grind

end Settles

/-! ### Names lead to definitions -/

theorem inRange_empty : (empty : Registry α).InRange := by
  intro name i h
  cases h

theorem Settles.inRange {i : Nat} {y : α} (hs : Settles namesOf join r a i y r')
    (h : r.InRange) : r'.InRange := by
  intro name j hj
  rw [hs.place] at hj
  by_cases hji : j = i
  · exact ⟨y, hji ▸ hs.here⟩
  · rw [hs.elsewhere j hji]
    split at hj
    · exact absurd (Option.some.inj hj).symm hji
    · exact h name j hj

/-- The names of every definition are entered. -/
def Covers (namesOf : α → List String) (r : Registry α) : Prop :=
  ∀ (i : Nat) (x : α), r.items[i]? = some x → ∀ name, Text.listsName (namesOf x) name = true →
    (r.place? name).isSome = true

theorem covers_empty : Covers namesOf (empty : Registry α) := by
  intro i x h
  cases h

theorem Settles.covers {i : Nat} {y : α} (hs : Settles namesOf join r a i y r')
    (h : Covers namesOf r) : Covers namesOf r' := by
  intro j x hx name hname
  rw [hs.place]
  split
  · rfl
  · next hy =>
    by_cases hji : j = i
    · subst hji
      cases hs.here.symm.trans hx
      exact absurd hname hy
    · exact h j x (hs.elsewhere j hji ▸ hx) name hname

/-- The definition that a name leads to carries the name. -/
def Sound (namesOf : α → List String) (r : Registry α) : Prop :=
  ∀ name i, r.place? name = some i →
    ∃ x, r.items[i]? = some x ∧ Text.listsName (namesOf x) name = true

theorem Sound.inRange (h : Sound namesOf r) : r.InRange := fun name i hi =>
  let ⟨x, hx, _⟩ := h name i hi
  ⟨x, hx⟩

theorem sound_empty : Sound namesOf (empty : Registry α) := by
  intro name i h
  cases h

theorem Settles.sound {i : Nat} {y : α} (hs : Settles namesOf join r a i y r')
    (hjoin : ∀ x name, Text.listsName (namesOf x) name = true →
      Text.listsName (namesOf (join x a)) name = true)
    (h : Sound namesOf r) : Sound namesOf r' := by
  intro name j hj
  rw [hs.place] at hj
  split at hj
  · next hy =>
    cases hj
    exact ⟨y, hs.here, hy⟩
  · next hy =>
    obtain ⟨x, hx, hname⟩ := h name j hj
    by_cases hji : j = i
    · subst hji
      -- The definition that was there has kept the name.
      rcases hs.origin with ⟨x', hx', rfl, -⟩ | ⟨rfl, -⟩
      · cases hx'.symm.trans hx
        exact absurd (hjoin x name hname) hy
      · rw [List.getElem?_eq_none (Nat.le_refl _)] at hx
        cases hx
    · exact ⟨x, by rw [hs.elsewhere j hji, hx], hname⟩

/-! ### Lookups -/

theorem find?_eq_none_iff (h : r.InRange) {name : String} :
    r.find? name = none ↔ r.place? name = none := by
  rw [find?]
  cases hplace : r.place? name with
  | none => simp
  | some i =>
    obtain ⟨x, hx⟩ := h name i hplace
    simp [hx]

theorem isSome_find?_iff (h : r.InRange) {name : String} :
    (r.find? name).isSome = true ↔ (r.place? name).isSome = true := by
  rw [Option.isSome_iff_ne_none, Option.isSome_iff_ne_none]
  exact not_congr (find?_eq_none_iff h)

theorem find?_eq_none_iff_of_sound (hsound : Sound namesOf r) (hcovers : Covers namesOf r)
    {name : String} :
    r.find? name = none ↔ ∀ x ∈ r.items, Text.listsName (namesOf x) name = false := by
  rw [find?_eq_none_iff hsound.inRange]
  constructor
  · intro hnone x hx
    obtain ⟨i, hi⟩ := List.mem_iff_getElem?.mp hx
    rw [← Bool.not_eq_true]
    intro hname
    have hfound := hcovers i x hi name hname
    rw [hnone] at hfound
    cases hfound
  · intro hnames
    refine Option.eq_none_iff_forall_ne_some.mpr fun i hplace => ?_
    obtain ⟨x, hx, hname⟩ := hsound name i hplace
    rw [hnames x (List.mem_of_getElem? hx)] at hname
    cases hname

/-! ### Many definitions -/

/-- The registry of a list of definitions. -/
def ofList (namesOf : α → List String) (join : α → α → α) (definitions : List α) : Registry α :=
  definitions.foldl (define namesOf join) .empty

section OfList

variable {definitions : List α}

theorem ofList_concat (definitions : List α) (a : α) :
    ofList namesOf join (definitions ++ [a]) =
      (ofList namesOf join definitions).define namesOf join a :=
  List.foldl_append

theorem inRange_ofList (definitions : List α) : (ofList namesOf join definitions).InRange := by
  induction definitions using List.reverseRecOn with
  | nil => exact inRange_empty
  | append_singleton definitions a ih =>
    obtain ⟨i, y, hs⟩ := exists_settles namesOf join ih a
    rw [ofList_concat]
    exact hs.inRange ih

theorem settles_placeOf_concat (namesOf : α → List String) (join : α → α → α)
    (definitions : List α) (a : α) :
    ∃ y, Settles namesOf join (ofList namesOf join definitions) a
      ((ofList namesOf join definitions).placeOf namesOf a) y
      (ofList namesOf join (definitions ++ [a])) := by
  rw [ofList_concat]
  exact settles_placeOf namesOf join (inRange_ofList definitions) a

theorem exists_settles_concat (namesOf : α → List String) (join : α → α → α)
    (definitions : List α) (a : α) :
    ∃ i y, Settles namesOf join (ofList namesOf join definitions) a i y
      (ofList namesOf join (definitions ++ [a])) :=
  ⟨_, settles_placeOf_concat namesOf join definitions a⟩

theorem covers_ofList (definitions : List α) : Covers namesOf (ofList namesOf join definitions) := by
  induction definitions using List.reverseRecOn with
  | nil => exact covers_empty
  | append_singleton definitions a ih =>
    obtain ⟨i, y, hs⟩ := exists_settles_concat namesOf join definitions a
    exact hs.covers ih

theorem sound_ofList (hjoin : ∀ x a name, Text.listsName (namesOf x) name = true →
      Text.listsName (namesOf (join x a)) name = true) (definitions : List α) :
    Sound namesOf (ofList namesOf join definitions) := by
  induction definitions using List.reverseRecOn with
  | nil => exact sound_empty
  | append_singleton definitions a ih =>
    obtain ⟨i, y, hs⟩ := exists_settles_concat namesOf join definitions a
    exact hs.sound (fun x => hjoin x a) ih

/-- A name leads somewhere if some definition of the list has it, when a definition joined to
another one has its own names, and no names but those of the two. -/
theorem isSome_place?_ofList_iff
    (hkept : ∀ x a name, Text.listsName (namesOf a) name = true →
      Text.listsName (namesOf (join x a)) name = true)
    (honly : ∀ x a name, Text.listsName (namesOf (join x a)) name = true →
      Text.listsName (namesOf x) name = true ∨ Text.listsName (namesOf a) name = true)
    {name : String} :
    ((ofList namesOf join definitions).place? name).isSome = true ↔
      ∃ a ∈ definitions, Text.listsName (namesOf a) name = true := by
  induction definitions using List.reverseRecOn with
  | nil => simp [ofList, place?, empty]
  | append_singleton definitions a ih =>
    obtain ⟨i, y, hs⟩ := exists_settles_concat namesOf join definitions a
    have hplace : ((ofList namesOf join (definitions ++ [a])).place? name).isSome = true ↔
        Text.listsName (namesOf y) name = true ∨
          ((ofList namesOf join definitions).place? name).isSome = true := by
      rw [hs.place]
      cases Text.listsName (namesOf y) name <;> simp
    have hy : Text.listsName (namesOf y) name = true ∨
        ((ofList namesOf join definitions).place? name).isSome = true ↔
          Text.listsName (namesOf a) name = true ∨
            ((ofList namesOf join definitions).place? name).isSome = true := by
      rcases hs.origin with ⟨x, hx, rfl, -⟩ | ⟨-, rfl, -⟩
      · -- The names of the definition that was there lead somewhere already.
        have hcovers : Covers namesOf (ofList namesOf join definitions) := covers_ofList definitions
        have hold := hcovers i x hx name
        have h₁ := hkept x a name
        have h₂ := honly x a name
        tauto
      · rfl
    rw [hplace, hy, ih, or_comm]
    simp only [List.mem_append, List.mem_singleton, or_and_right, exists_or, exists_eq_left]

end OfList

end DirectoryTables.Registry
