import DirectoryTables.Proofs.Directory.Classes
import DirectoryTables.Proofs.Registry.Latest

/-!
# Directories — Classes under their own names

When the canonical name of a class leads to the class.

A declaration extends one class, that of its first known name, and takes all its other names along:
one of these can be the canonical name of a class that stands in another place.

* `Registry.Respects`: a declaration takes no canonical name along.
* `Registry.respectful_iff`: canonical names lead to their classes after each of some declarations
  exactly if every declaration respects the classes before it.
* `Registry.place?_name_eq_some_iff`: in any case a canonical name leads to its class exactly if no
  class declared since carries it.
-/

namespace DirectoryTables

/-- An extended class has the names of both declarations, and no others. -/
theorem ObjectClass.listsName_extend_iff {c later : ObjectClass} {name : String} :
    Text.listsName (c.extend later).names name = true ↔
      Text.listsName c.names name = true ∨ Text.listsName later.names name = true := by
  have hadd : ∀ names further, Text.listsName (addNames names further) name = true ↔
      Text.listsName names name = true ∨ Text.listsName further name = true := by
    intro names further
    induction further generalizing names with
    | nil => simp [addNames, Text.listsName]
    | cons n further ih =>
      have hstep : addNames names (n :: further) =
          addNames (if Text.listsName names n then names else names ++ [n]) further := rfl
      rw [hstep, ih, Text.listsName_cons, Bool.or_eq_true, ← or_assoc]
      refine or_congr_left ?_
      split
      · next hn =>
        refine ⟨.inl, fun h => h.elim id fun hname => ?_⟩
        rwa [← Text.listsName_congr hname]
      · simp [Text.listsName]
  exact hadd c.names later.names

namespace Registry

variable {r r' : Registry ObjectClass} {a cls : ObjectClass} {definitions : List ObjectClass}

/-! ### The latest declaration -/

/-- The places that declarations of classes go to, one after another. -/
def classVisits (definitions : List ObjectClass) : List Nat :=
  visits ObjectClass.names ObjectClass.extend .empty definitions

/-- The canonical name of a class leads to the class exactly if no class that was declared since its
last declaration carries the name. -/
theorem place?_name_eq_some_iff (h : ∀ cls ∈ definitions, cls.names ≠ []) {i : Nat}
    (hi : (ofClasses definitions).items[i]? = some cls) :
    (ofClasses definitions).place? cls.name = some i ↔
      ∃ before after, classVisits definitions = before ++ i :: after ∧
        ∀ j ∈ after, (ofClasses definitions).carries ObjectClass.names cls.name j = false := by
  have hnamed := (distinguished_ofClasses h).named cls (List.mem_of_getElem? hi)
  have hown : (ofClasses definitions).carries ObjectClass.names cls.name i = true := by
    rw [carries_of_getElem? hi]
    exact Text.listsName_iff.mpr ⟨_, ObjectClass.name_mem_names hnamed, rfl⟩
  refine (place?_ofList_eq_some_iff fun _ a _ => ObjectClass.listsName_extend a).trans ?_
  exact and_iff_right hown

/-! ### Declarations that respect canonical names -/

/-- The declaration goes to the class whose canonical name it has, if it has one. -/
def Respects (r : Registry ObjectClass) (a : ObjectClass) : Prop :=
  ∀ i : Fin r.items.length, Text.listsName a.names r.items[i].name = true →
    r.placeOf ObjectClass.names a = i

instance (r : Registry ObjectClass) (a : ObjectClass) : Decidable (r.Respects a) :=
  inferInstanceAs (Decidable (∀ i : Fin r.items.length,
    Text.listsName a.names r.items[i].name = true → r.placeOf ObjectClass.names a = i))

theorem Respects.placeOf_eq (h : r.Respects a) {i : Nat} (hi : r.items[i]? = some cls)
    (hname : Text.listsName a.names cls.name = true) : r.placeOf ObjectClass.names a = i := by
  obtain ⟨hlt, rfl⟩ := List.getElem?_eq_some_iff.mp hi
  exact h ⟨i, hlt⟩ hname

/-- Each of the declarations respects the classes of those before it. -/
def Respectful : Registry ObjectClass → List ObjectClass → Prop
  | _, [] => True
  | r, a :: rest =>
    r.Respects a ∧ Respectful (r.define ObjectClass.names ObjectClass.extend a) rest

instance decidableRespectful : (r : Registry ObjectClass) → (definitions : List ObjectClass) →
    Decidable (r.Respectful definitions)
  | _, [] => .isTrue trivial
  | r, a :: rest =>
    have := decidableRespectful (r.define ObjectClass.names ObjectClass.extend a) rest
    inferInstanceAs (Decidable (_ ∧ _))

theorem respectful_concat (r : Registry ObjectClass) (definitions : List ObjectClass)
    (a : ObjectClass) :
    r.Respectful (definitions ++ [a]) ↔ r.Respectful definitions ∧
      (definitions.foldl (define ObjectClass.names ObjectClass.extend) r).Respects a := by
  induction definitions generalizing r with
  | nil => simp [Respectful]
  | cons b definitions ih =>
    rw [List.cons_append, Respectful, Respectful, ih, and_assoc, List.foldl_cons]

/-- No class carries the canonical name of another one. -/
def Apart (r : Registry ObjectClass) : Prop :=
  ∀ (i j : Nat) (x y : ObjectClass), r.items[i]? = some x → r.items[j]? = some y →
    Text.listsName x.names y.name = true → i = j

theorem Settles.apart {y : ObjectClass}
    (hs : Settles ObjectClass.names ObjectClass.extend r a (r.placeOf ObjectClass.names a) y r')
    (hcovers : Covers ObjectClass.names r) (hnamed : r.Distinguished) (ha : a.names ≠ [])
    (hrespects : r.Respects a) (h : r.Apart) : r'.Apart := by
  generalize hp : r.placeOf ObjectClass.names a = p at hs
  intro i j x z hx hz hname
  by_cases hip : i = p <;> by_cases hjp : j = p
  · rw [hip, hjp]
  · -- The new definition carries the name of a class in another place: from which declaration?
    subst hip
    cases hs.here.symm.trans hx
    rw [hs.elsewhere j hjp] at hz
    rcases hs.origin with ⟨old, hold, rfl, -⟩ | ⟨-, rfl, -⟩
    · rcases ObjectClass.listsName_extend_iff.mp hname with hname | hname
      · exact h _ j old z hold hz hname
      · exact hp.symm.trans (hrespects.placeOf_eq hz hname)
    · exact hp.symm.trans (hrespects.placeOf_eq hz hname)
  · subst hjp
    cases hs.here.symm.trans hz
    rw [hs.elsewhere i hip] at hx
    rcases hs.origin with ⟨old, hold, rfl, -⟩ | ⟨-, rfl, hnew⟩
    · rw [ObjectClass.name_extend (hnamed.named old (List.mem_of_getElem? hold))] at hname
      exact h i _ x old hx hold hname
    · -- A new class has none of the names that lead anywhere.
      have hfound := hcovers i x hx _ hname
      rw [hnew _ (ObjectClass.name_mem_names ha)] at hfound
      cases hfound
  · rw [hs.elsewhere i hip] at hx
    rw [hs.elsewhere j hjp] at hz
    exact h i j x z hx hz hname

/-- The canonical name of every class leads to the class. -/
def OwnNamed (r : Registry ObjectClass) : Prop :=
  ∀ (i : Nat) (cls : ObjectClass), r.items[i]? = some cls → r.place? cls.name = some i

theorem Apart.ownNamed (hsound : Sound ObjectClass.names r) (hcovers : Covers ObjectClass.names r)
    (hnamed : r.Distinguished) (h : r.Apart) : r.OwnNamed := by
  intro i cls hi
  have hown : Text.listsName cls.names cls.name = true :=
    Text.listsName_iff.mpr
      ⟨_, ObjectClass.name_mem_names (hnamed.named cls (List.mem_of_getElem? hi)), rfl⟩
  obtain ⟨j, hj⟩ := Option.isSome_iff_exists.mp (hcovers i cls hi _ hown)
  obtain ⟨x, hx, hname⟩ := hsound _ _ hj
  rw [hj, h j i x cls hx hi hname]

/-- A declaration after which canonical names lead to their classes has respected them. -/
theorem Settles.respects {y : ObjectClass}
    (hs : Settles ObjectClass.names ObjectClass.extend r a (r.placeOf ObjectClass.names a) y r')
    (h : r'.OwnNamed) : r.Respects a := by
  intro i hname
  by_contra hne
  have hi : r'.items[i.val]? = some r.items[i] := by
    rw [hs.elsewhere _ (Ne.symm hne)]
    exact List.getElem?_eq_getElem i.isLt
  have hy : Text.listsName y.names r.items[i].name = true := by
    rcases hs.origin with ⟨x, -, rfl, -⟩ | ⟨-, rfl, -⟩
    · exact ObjectClass.listsName_extend_iff.mpr (.inr hname)
    · exact hname
  have hplace := h i _ hi
  rw [hs.place, if_pos hy] at hplace
  exact hne (Option.some.inj hplace)

theorem apart_ofClasses (h : ∀ cls ∈ definitions, cls.names ≠ [])
    (hrespectful : Respectful .empty definitions) : (ofClasses definitions).Apart := by
  induction definitions using List.reverseRecOn with
  | nil => exact fun _ _ _ _ hx => by cases hx
  | append_singleton definitions a ih =>
    rw [List.forall_mem_append, List.forall_mem_singleton] at h
    obtain ⟨hbefore, hrespects⟩ := (respectful_concat _ _ _).mp hrespectful
    obtain ⟨y, hs⟩ := settles_placeOf_concat ObjectClass.names ObjectClass.extend definitions a
    exact hs.apart (covers_ofList definitions) (distinguished_ofClasses h.1) h.2 hrespects
      (ih h.1 hbefore)

theorem ownNamed_ofClasses (h : ∀ cls ∈ definitions, cls.names ≠ [])
    (hrespectful : Respectful .empty definitions) : (ofClasses definitions).OwnNamed :=
  (apart_ofClasses h hrespectful).ownNamed (sound_ofClasses definitions) (covers_ofList definitions)
    (distinguished_ofClasses h)

/-- **When canonical names lead to their classes.**  They do after each of the declarations if and
only if every declaration respects the classes before it. -/
theorem respectful_iff (h : ∀ cls ∈ definitions, cls.names ≠ []) :
    (∀ before, before <+: definitions → (ofClasses before).OwnNamed) ↔
      Respectful .empty definitions := by
  induction definitions using List.reverseRecOn with
  | nil =>
    refine ⟨fun _ => trivial, fun _ before hb => ?_⟩
    rw [List.prefix_nil.mp hb]
    exact fun _ _ hx => by cases hx
  | append_singleton definitions a ih =>
    simp only [List.prefix_concat_iff, forall_eq_or_imp]
    rw [ih (List.forall_mem_append.mp h).1]
    refine ⟨fun ⟨hall, hbefore⟩ => (respectful_concat _ _ _).mpr ⟨hbefore, ?_⟩, fun hall =>
      ⟨ownNamed_ofClasses h hall, ((respectful_concat _ _ _).mp hall).1⟩⟩
    obtain ⟨y, hs⟩ := settles_placeOf_concat ObjectClass.names ObjectClass.extend definitions a
    exact hs.respects hall

/-- A declaration with the canonical names of two classes respects only one of them. -/
example : ¬ Respectful .empty [{ names := ["person"] }, { names := ["account"] },
    { names := ["person", "account"] }] := by decide

end Registry

end DirectoryTables
