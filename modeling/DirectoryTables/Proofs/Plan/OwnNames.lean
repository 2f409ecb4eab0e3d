import DirectoryTables.Proofs.Directory.OwnNames
import DirectoryTables.Proofs.Plan.Naming

/-!
# Plans — Tables and the names of their classes

What the names of classes lead to, and with them the names of planned tables: a reference to a
parent or to a merged class is looked up as any other name.

* `Directory.class?_isSome_iff`: a name is found exactly if some declaration has it.
* `Directory.class_lookup_sound`: canonical names are distinct, and a name leads to a class that has
  it.
* `Directory.class_of_own_name`: when the canonical name of a class leads to the class, and the name
  of a table to the class it was planned for.
* `Directory.not_class_of_own_name`: it can lead to another class.
-/

namespace DirectoryTables.Directory

variable {d : Directory} {docs : List SchemaDocument}

/-! ### Names of classes -/

theorem class_names_ne_nil (h : ofDocuments docs = .ok d) :
    ∀ cls ∈ docs.flatMap (·.classes), cls.names ≠ [] := by
  intro cls hcls
  obtain ⟨doc, hdoc, hmem⟩ := List.mem_flatMap.mp hcls
  exact ((ofDocuments_eq_ok_iff.mp h).1 doc hdoc).classes cls hmem

/-- A name is found exactly if some declaration of the documents has it, letter case aside. -/
theorem class?_isSome_iff (h : ofDocuments docs = .ok d) {name : String} :
    (d.class? name).isSome = true ↔
      ∃ cls ∈ docs.flatMap (·.classes), Text.listsName cls.names name = true := by
  rw [class?, classes_of_ofDocuments h]
  refine (Registry.isSome_find?_iff (Registry.inRange_ofList _)).trans ?_
  exact Registry.isSome_place?_ofList_iff
    (fun _ _ _ hname => ObjectClass.listsName_extend_iff.mpr (.inr hname))
    fun _ _ _ hname => ObjectClass.listsName_extend_iff.mp hname

/-- The class that is found has the name. -/
theorem listsName_of_class? (h : ofDocuments docs = .ok d) {name : String} {cls : ObjectClass}
    (hcls : d.class? name = some cls) :
    cls ∈ d.classes.items ∧ Text.listsName cls.names name = true := by
  obtain ⟨i, hplace, hi⟩ := Option.bind_eq_some_iff.mp hcls
  have hsound : Registry.Sound ObjectClass.names d.classes :=
    classes_of_ofDocuments h ▸ Registry.sound_ofClasses _
  obtain ⟨x, hx, hname⟩ := hsound name i hplace
  cases hx.symm.trans hi
  exact ⟨List.mem_of_getElem? hi, hname⟩

/-- **Lookups of classes are sound.**  No two classes of a directory have the same canonical name,
and so no two planned tables have the same name.  A name is found exactly if a declaration of the
documents has it, and the class that is found has the name; letter case is never looked at. -/
theorem class_lookup_sound (h : ofDocuments docs = .ok d) :
    (d.classes.items.map fun cls => Text.lower cls.name).Nodup ∧
      (∀ c tables, Plan.tablesFor d c = .ok tables →
        (tables.map fun t => Text.lower t.name).Nodup) ∧
      ∀ name,
        ((d.class? name).isSome = true ↔
          ∃ cls ∈ docs.flatMap (·.classes), Text.listsName cls.names name = true) ∧
        ∀ cls, d.class? name = some cls →
          cls ∈ d.classes.items ∧ Text.listsName cls.names name = true :=
  ⟨nodup_class_names h, fun _ _ htables => Plan.nodup_table_names h htables, fun _ =>
    ⟨class?_isSome_iff h, fun _ hcls => listsName_of_class? h hcls⟩⟩

/-- Two documents, of which the second declares one class by the names of two. -/
def bridgedNames : List SchemaDocument :=
  [{ classes := [{ names := ["person"], may := ["uid"] },
        { names := ["account"], may := ["login"] },
        { names := ["agent"], parents := ["account"] }] },
    { classes := [{ names := ["Person", "ACCOUNT", "member"] }] }]

theorem class_lookup_sound_bridgedNames :
    ∃ d, ofDocuments bridgedNames = .ok d ∧
      (d.classes.items.map fun cls => Text.lower cls.name).Nodup ∧
      d.classes.items.map ObjectClass.name = ["person", "account", "agent"] ∧
      ∀ cls, d.class? "Member" = some cls → cls ∈ d.classes.items ∧
        Text.listsName cls.names "Member" = true :=
  have h : ofDocuments bridgedNames = .ok _ := rfl
  ⟨_, h, (class_lookup_sound h).1, rfl, ((class_lookup_sound h).2.2 "Member").2⟩

/-! ### Canonical names -/

/-- A class is found under its canonical name exactly if the name leads to its place. -/
theorem class?_name_eq_some_iff (h : ofDocuments docs = .ok d) {i : Nat} {cls : ObjectClass}
    (hi : d.classes.items[i]? = some cls) :
    d.class? cls.name = some cls ↔ d.classes.place? cls.name = some i := by
  rw [class?, Registry.find?, Option.bind_eq_some_iff]
  constructor
  · rintro ⟨j, hplace, hj⟩
    -- Equal classes have equal canonical names, so they are in one place.
    have hnodup := nodup_class_names h
    have hlower : ∀ k, d.classes.items[k]? = some cls →
        (d.classes.items.map fun cls => Text.lower cls.name)[k]? = some (Text.lower cls.name) :=
      fun k hk => by rw [List.getElem?_map, hk, Option.map_some]
    have hlt : i < (d.classes.items.map fun cls => Text.lower cls.name).length :=
      (List.getElem?_eq_some_iff.mp (hlower i hi)).1
    rw [hplace, (List.getElem?_inj hlt hnodup).mp ((hlower i hi).trans (hlower j hj).symm)]
  · exact fun hplace => ⟨i, hplace, hi⟩

/-- **Canonical names and their classes.**  The canonical name of a class leads to the place of the
class exactly if no class that was declared since the last declaration of this one carries the name.
It does for all classes, and the name of every planned table leads to the class the table was
planned for, if no declaration that extends a class has the canonical name of another one. -/
theorem class_of_own_name (h : ofDocuments docs = .ok d) :
    (∀ (i : Nat) cls, d.classes.items[i]? = some cls →
      (d.class? cls.name = some cls ↔ d.classes.place? cls.name = some i) ∧
      (d.classes.place? cls.name = some i ↔
        ∃ before after,
          Registry.classVisits (docs.flatMap (·.classes)) = before ++ i :: after ∧
            ∀ j ∈ after, d.classes.carries ObjectClass.names cls.name j = false)) ∧
    (Registry.Respectful .empty (docs.flatMap (·.classes)) →
      (∀ (i : Nat) cls, d.classes.items[i]? = some cls →
        d.classes.place? cls.name = some i ∧ d.class? cls.name = some cls) ∧
      ∀ c tables, Plan.tablesFor d c = .ok tables →
        List.Forall₂ (fun cls (t : Table) => t.name = cls.name ∧ d.class? t.name = some cls)
          (d.classes.items.filter fun cls => !cls.ignored) tables) := by
  have hclasses := classes_of_ofDocuments h
  refine ⟨fun i cls hi => ⟨class?_name_eq_some_iff h hi, ?_⟩, fun hrespectful => ?_⟩
  · rw [hclasses] at hi ⊢
    exact Registry.place?_name_eq_some_iff (class_names_ne_nil h) hi
  · have hown : d.classes.OwnNamed := by
      rw [hclasses]
      exact Registry.ownNamed_ofClasses (class_names_ne_nil h) hrespectful
    have hfound : ∀ cls ∈ d.classes.items, d.class? cls.name = some cls := by
      intro cls hcls
      obtain ⟨i, hi⟩ := List.mem_iff_getElem?.mp hcls
      exact (class?_name_eq_some_iff h hi).mpr (hown i cls hi)
    refine ⟨fun i cls hi => ⟨hown i cls hi, hfound cls (List.mem_of_getElem? hi)⟩,
      fun c tables htables => ?_⟩
    have htable := Plan.tablesFor_eq_ok_iff.mp htables
    refine ((List.forall₂_and_left _ _).mpr ⟨fun cls hcls => ?_, htable⟩).imp
      fun cls t ⟨hcls, ht⟩ => ⟨ht.name, ht.name ▸ hcls⟩
    exact hfound cls (List.mem_of_mem_filter hcls)

/-- Two documents, of which the second extends classes of the first by further names. -/
def furtherNames : List SchemaDocument :=
  [{ classes := [{ names := ["person"], may := ["uid"] },
        { names := ["account", "login"] },
        { names := ["agent"], parents := ["account"] }] },
    { classes := [{ names := ["Login", "session"] }, { names := ["PERSON", "login"] }] }]

theorem class_of_own_name_furtherNames :
    ∃ d, ofDocuments furtherNames = .ok d ∧
      Registry.Respectful .empty (furtherNames.flatMap (·.classes)) ∧
      ∀ (i : Nat) cls, d.classes.items[i]? = some cls →
        d.classes.place? cls.name = some i ∧ d.class? cls.name = some cls :=
  have h : ofDocuments furtherNames = .ok _ := rfl
  have hrespectful : Registry.Respectful .empty (furtherNames.flatMap (·.classes)) := by decide
  ⟨_, h, hrespectful, ((class_of_own_name h).2 hrespectful).1⟩

/-- The canonical name of a class need not lead to the class: `bridgedNames` has the second class
found as the first. -/
theorem not_class_of_own_name :
    ¬ ∀ docs d, ofDocuments docs = .ok d → ∀ cls ∈ d.classes.items,
      d.class? cls.name = some cls := by
  intro h
  have hfound := h bridgedNames _ rfl { names := ["account"], may := ["login"] } (by decide)
  exact absurd hfound (by decide)

end DirectoryTables.Directory
