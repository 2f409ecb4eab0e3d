import DirectoryTables.Proofs.Directory.Documents
import DirectoryTables.Proofs.Registry.Places

/-!
# Directories — Classes

The classes of a directory made from documents.  A declaration of a known class extends it and
never takes a name from it, and its first name stays the first (`ObjectClass.name_extend`).

* `class?_eq_none_iff`: a class is looked up in vain exactly if no class has the name.
* `nodup_class_names`: no two classes have the same canonical name, letter case aside.
-/

namespace DirectoryTables

namespace ObjectClass

theorem prefix_addNames (names further : List String) : names <+: addNames names further := by
  induction further generalizing names with
  | nil => exact List.prefix_refl _
  | cons n further ih =>
    have hstep : addNames names (n :: further) =
        addNames (if Text.listsName names n then names else names ++ [n]) further := rfl
    rw [hstep]
    split
    · exact ih names
    · exact (List.prefix_append _ _).trans (ih _)

/-- An extended class has the names it had. -/
theorem listsName_extend {c : ObjectClass} (later : ObjectClass) {name : String}
    (h : Text.listsName c.names name = true) :
    Text.listsName (c.extend later).names name = true := by
  obtain ⟨n, hn, e⟩ := Text.listsName_iff.mp h
  exact Text.listsName_iff.mpr ⟨n, (prefix_addNames _ _).subset hn, e⟩

theorem name_extend {c : ObjectClass} (h : c.names ≠ []) (later : ObjectClass) :
    (c.extend later).name = c.name := by
  obtain ⟨rest, hrest⟩ := prefix_addNames c.names later.names
  have hnames : (c.extend later).names = c.names ++ rest := hrest.symm
  rw [name, name, hnames]
  cases hc : c.names with
  | nil => exact absurd hc h
  | cons n ns => rfl

theorem names_extend_ne_nil {c : ObjectClass} (h : c.names ≠ []) (later : ObjectClass) :
    (c.extend later).names ≠ [] := fun e =>
  h (List.prefix_nil.mp (e ▸ prefix_addNames c.names later.names))

theorem name_mem_names {c : ObjectClass} (h : c.names ≠ []) : c.name ∈ c.names :=
  Directory.headD_mem_of_ne_nil h

end ObjectClass

/-! ### Many declarations -/

namespace Registry

variable {r r' : Registry ObjectClass} {a : ObjectClass} {definitions : List ObjectClass}

/-- The registry of a list of declarations of classes. -/
def ofClasses (definitions : List ObjectClass) : Registry ObjectClass :=
  ofList ObjectClass.names ObjectClass.extend definitions

theorem sound_ofClasses (definitions : List ObjectClass) :
    Sound ObjectClass.names (ofClasses definitions) :=
  sound_ofList (fun _ a _ => ObjectClass.listsName_extend a) definitions

/-- The classes have names, and no two have the same canonical name, letter case aside. -/
structure Distinguished (r : Registry ObjectClass) : Prop where
  named : ∀ cls ∈ r.items, cls.names ≠ []
  nodup : (r.items.map fun cls => Text.lower cls.name).Nodup

theorem distinguished_empty : Distinguished .empty :=
  ⟨fun _ h => (by cases h), List.nodup_nil⟩

theorem Settles.distinguished {i : Nat} {y : ObjectClass}
    (hs : Settles ObjectClass.names ObjectClass.extend r a i y r')
    (hcovers : Covers ObjectClass.names r) (ha : a.names ≠ []) (h : r.Distinguished) :
    r'.Distinguished := by
  rcases hs.origin with ⟨x, hx, rfl, -⟩ | ⟨hi, rfl, hnew⟩
  · have hxn : x.names ≠ [] := h.named x (List.mem_of_getElem? hx)
    constructor
    · intro cls hcls
      obtain ⟨j, hj⟩ := List.mem_iff_getElem?.mp hcls
      by_cases hji : j = i
      · subst hji
        cases hs.here.symm.trans hj
        exact ObjectClass.names_extend_ne_nil hxn a
      · exact h.named cls (List.mem_of_getElem? ((hs.elsewhere j hji).symm.trans hj))
    · have hmap : (r'.items.map fun cls => Text.lower cls.name) =
          r.items.map fun cls => Text.lower cls.name :=
        hs.map_items_of_eq hx (congrArg Text.lower (ObjectClass.name_extend hxn a))
      rw [hmap]
      exact h.nodup
  · have hitems := hs.items_of_new hi
    constructor
    · intro cls hcls
      rw [hitems] at hcls
      rcases List.mem_append.mp hcls with hcls | hcls
      · exact h.named cls hcls
      · exact List.mem_singleton.mp hcls ▸ ha
    · rw [hitems, List.map_append]
      refine List.nodup_append.mpr ⟨h.nodup, List.pairwise_singleton _ _, fun n hn m hm e => ?_⟩
      -- A class of that canonical name would have been found under it.
      obtain ⟨cls, hcls, rfl⟩ := List.mem_map.mp hn
      obtain ⟨j, hj⟩ := List.mem_iff_getElem?.mp hcls
      have hown : Text.listsName cls.names cls.name = true :=
        Text.listsName_iff.mpr ⟨_, ObjectClass.name_mem_names (h.named cls hcls), rfl⟩
      have hfound := hcovers j cls hj _ hown
      have hsame : Text.lower cls.name = Text.lower y.name := e.trans (List.mem_singleton.mp hm)
      rw [place?, hsame, ← place?, hnew _ (ObjectClass.name_mem_names ha)] at hfound
      cases hfound

theorem distinguished_ofClasses (h : ∀ cls ∈ definitions, cls.names ≠ []) :
    (ofClasses definitions).Distinguished := by
  induction definitions using List.reverseRecOn with
  | nil => exact distinguished_empty
  | append_singleton definitions a ih =>
    rw [List.forall_mem_append, List.forall_mem_singleton] at h
    obtain ⟨i, y, hs⟩ :=
      exists_settles_concat ObjectClass.names ObjectClass.extend definitions a
    exact hs.distinguished (covers_ofList definitions) h.2 (ih h.1)

end Registry

/-! ### Classes of documents -/

namespace Directory

variable {d : Directory} {docs : List SchemaDocument}

theorem classes_of_ofDocuments (h : ofDocuments docs = .ok d) :
    d.classes = .ofClasses (docs.flatMap (·.classes)) := by
  obtain ⟨-, rfl⟩ := ofDocuments_eq_ok_iff.mp h
  rfl

/-- A class is looked up in vain exactly if no class has the name, letter case aside. -/
theorem class?_eq_none_iff (h : ofDocuments docs = .ok d) {name : String} :
    d.class? name = none ↔ ∀ cls ∈ d.classes.items, Text.listsName cls.names name = false := by
  rw [class?, classes_of_ofDocuments h]
  exact Registry.find?_eq_none_iff_of_sound (Registry.sound_ofClasses _)
    (Registry.covers_ofList _)

/-- **Canonical names are distinct.**  No two classes of a directory have the same canonical name,
letter case aside. -/
theorem nodup_class_names (h : ofDocuments docs = .ok d) :
    (d.classes.items.map fun cls => Text.lower cls.name).Nodup := by
  rw [classes_of_ofDocuments h]
  refine (Registry.distinguished_ofClasses fun cls hcls => ?_).nodup
  obtain ⟨doc, hdoc, hmem⟩ := List.mem_flatMap.mp hcls
  exact ((ofDocuments_eq_ok_iff.mp h).1 doc hdoc).classes cls hmem

end Directory

end DirectoryTables
