import DirectoryTables.Bootstrap
import DirectoryTables.Proofs.Directory.Classes
import DirectoryTables.Proofs.Plan.Tables

/-!
# Plans — References

A plan is refused because of a reference that leads nowhere, and for no other reason.

* `Plan.references`: the references of a directory, in the order in which a plan follows them: those
  of classes to classes before those of attributes to tables.
* `Reference.Dangles`: there is no class, or no table, of the name that is referred to.
* `failure?_ofDirectory`: the error of a plan is that of the first reference that dangles.
* `Compiler.plan_fails_first`: the same said of every compiler, with what is left of a run: nothing
  is asked, issued or recorded.
-/

namespace DirectoryTables

namespace Plan

variable {d : Directory} {c : Config}

/-! ### References -/

/-- A reference, by the canonical name of the definition it is in. -/
inductive Reference where
  /-- A class merges another one. -/
  | merged (objectClass name : String)
  /-- A class has a parent. -/
  | parent (objectClass name : String)
  /-- The values of an attribute are kept in a subtable of a table. -/
  | route (name table : String)
  deriving DecidableEq

namespace Reference

/-- The reference leads nowhere.  Classes go by any of their names, tables by the canonical name of
their class alone; parents that are root classes are not looked up. -/
def Dangles (d : Directory) (c : Config) : Reference → Prop
  | merged _ name => d.class? name = none
  | parent _ name => c.isRootClass name = false ∧ d.class? name = none
  | route _ table => ∀ cls ∈ d.classes.items, cls.ignored = false → cls.name ≠ table

instance (r : Reference) : Decidable (r.Dangles d c) :=
  match r with
  | merged _ name => decidable_of_iff (d.class? name).isNone (by simp [Dangles])
  | parent _ name =>
    decidable_of_iff (c.isRootClass name = false ∧ (d.class? name).isNone) (by simp [Dangles])
  | route _ table =>
    inferInstanceAs (Decidable (∀ cls ∈ d.classes.items, cls.ignored = false → cls.name ≠ table))

/-- What is said of the reference if it dangles. -/
def error : Reference → ConfigError
  | merged objectClass name => .undefinedMerge objectClass name
  | parent objectClass name => .undefinedParent objectClass name
  | route name table => .unknownSubtableParent name table

/-- The error of the reference, if it dangles. -/
def fault (d : Directory) (c : Config) (r : Reference) : Option ConfigError :=
  if r.Dangles d c then some r.error else none

theorem fault_eq_none_iff {r : Reference} : r.fault d c = none ↔ ¬ r.Dangles d c := by
  simp [fault]

theorem fault_eq_some_iff {r : Reference} {e : ConfigError} :
    r.fault d c = some e ↔ r.Dangles d c ∧ r.error = e := by
  simp [fault]

end Reference

/-- The references of a class: the classes it merges, then its parents. -/
def classReferences (cls : ObjectClass) : List Reference :=
  cls.merged.map (.merged cls.name) ++ cls.parents.map (.parent cls.name)

/-- The references of a directory: those of the classes that are not ignored, then the tables that
attributes have subtables of. -/
def references (d : Directory) : List Reference :=
  (d.classes.items.filter fun cls => !cls.ignored).flatMap classReferences ++
    d.attributes.items.flatMap fun a => a.subtables.map (.route a.name)

theorem exists_references_iff {p : Reference → Prop} :
    (∃ r ∈ references d, p r) ↔
      (∃ cls ∈ d.classes.items, cls.ignored = false ∧
        ((∃ name ∈ cls.merged, p (.merged cls.name name)) ∨
          ∃ name ∈ cls.parents, p (.parent cls.name name))) ∨
      ∃ a ∈ d.attributes.items, ∃ table ∈ a.subtables, p (.route a.name table) := by
  simp only [references, classReferences, List.mem_append, List.mem_flatMap, List.mem_filter,
    List.mem_map, Bool.not_eq_true', or_and_right, exists_or]
  grind

/-! ### Errors of classes -/

theorem failure?_mergedNames (d : Directory) (c : Config) (cls : ObjectClass) :
    failure? (mergedNames d cls) =
      (cls.merged.map (Reference.merged cls.name)).findSome? (Reference.fault d c) := by
  rw [mergedNames, failure?_mapM, List.findSome?_map]
  congr 1
  funext name
  cases hname : d.class? name <;>
    simp [failure?, Reference.fault, Reference.Dangles, Reference.error, hname]

theorem failure?_inheritedNames (d : Directory) (c : Config) (cls : ObjectClass) :
    failure? (inheritedNames d c cls) =
      (cls.parents.map (Reference.parent cls.name)).findSome? (Reference.fault d c) := by
  rw [inheritedNames, failure?_mapM, List.findSome?_map, ← List.head?_filterMap,
    List.filterMap_filter, List.head?_filterMap]
  congr 1
  funext name
  cases hroot : c.isRootClass name <;> cases hname : d.class? name <;>
    simp [failure?, Reference.fault, Reference.Dangles, Reference.error, hname, hroot]

/-- The table of a class fails as the first of its references that dangles. -/
theorem failure?_tableFor (d : Directory) (c : Config) (cls : ObjectClass) :
    failure? (tableFor d c cls) = (classReferences cls).findSome? (Reference.fault d c) := by
  have hnames : failure? (requestedNames d c cls) =
      (classReferences cls).findSome? (Reference.fault d c) := by
    rw [requestedNames, failure?_bind fun _ _ => failure?_bind_pure _ _, failure?_mergedNames,
      failure?_inheritedNames, classReferences, List.findSome?_append]
  rw [tableFor, failure?_bind_pure, hnames]

theorem failure?_tablesFor (d : Directory) (c : Config) :
    failure? (tablesFor d c) =
      ((d.classes.items.filter fun cls => !cls.ignored).flatMap classReferences).findSome?
        (Reference.fault d c) := by
  rw [tablesFor, failure?_mapM, findSome?_flatMap]
  simp only [failure?_tableFor]

/-! ### Errors of attributes -/

/-- A subtable fails as its route dangles: the planned tables are those of the classes that are not
ignored. -/
theorem failure?_subtablesFor {tables : List Table} (h : tablesFor d c = .ok tables) :
    failure? (subtablesFor d c tables) =
      (d.attributes.items.flatMap fun a => a.subtables.map (Reference.route a.name)).findSome?
        (Reference.fault d c) := by
  have hplanned : ∀ name, tables.any (·.name == name) = true ↔
      ∃ cls ∈ d.classes.items, cls.ignored = false ∧ cls.name = name := by
    intro name
    have hnames : name ∈ tables.map Table.name ↔
        name ∈ (d.classes.items.filter fun cls => !cls.ignored).map ObjectClass.name := by
      rw [map_name_tablesFor h]
    simpa [and_assoc] using hnames
  rw [subtablesFor, failure?_mapM, routes, findSome?_flatMap, findSome?_flatMap]
  simp only [List.findSome?_map, Function.comp_def]
  congr 1
  funext a
  congr 1
  funext table
  have hdangles : (Reference.route a.name table).Dangles d c ↔
      ¬ tables.any (·.name == table) = true := by
    rw [hplanned]
    simp [Reference.Dangles]
  simp only [Reference.fault, hdangles, Reference.error]
  cases tables.any (·.name == table) <;> rfl

/-- **The first reference that dangles** decides the error of a plan. -/
theorem failure?_ofDirectory (d : Directory) (c : Config) :
    failure? (ofDirectory d c) = (references d).findSome? (Reference.fault d c) := by
  rw [ofDirectory, failure?_bind fun tables htables =>
      (failure?_bind_pure _ _).trans (failure?_subtablesFor htables),
    failure?_tablesFor, references, List.findSome?_append]

theorem ofDirectory_eq_error_iff {e : ConfigError} :
    ofDirectory d c = .error e ↔
      ∃ before r after, references d = before ++ r :: after ∧
        (∀ earlier ∈ before, ¬ earlier.Dangles d c) ∧ r.Dangles d c ∧ r.error = e := by
  rw [← failure?_eq_some_iff, failure?_ofDirectory, List.findSome?_eq_some_iff]
  simp only [Reference.fault_eq_none_iff, Reference.fault_eq_some_iff]
  constructor
  · rintro ⟨before, r, after, hsplit, hr, hbefore⟩
    exact ⟨before, r, after, hsplit, hbefore, hr⟩
  · rintro ⟨before, r, after, hsplit, hbefore, hr⟩
    exact ⟨before, r, after, hsplit, hr, hbefore⟩

theorem exists_error_iff :
    (∃ e, ofDirectory d c = .error e) ↔ ∃ r ∈ references d, r.Dangles d c := by
  constructor
  · rintro ⟨e, h⟩
    obtain ⟨before, r, after, hsplit, -, hr, -⟩ := ofDirectory_eq_error_iff.mp h
    exact ⟨r, hsplit ▸ List.mem_append_right _ List.mem_cons_self, hr⟩
  · rintro ⟨r, hr, hdangles⟩
    have hfails : ((references d).findSome? (Reference.fault d c)).isSome = true :=
      List.findSome?_isSome_iff.mpr
        ⟨r, hr, Option.isSome_iff_exists.mpr ⟨_, Reference.fault_eq_some_iff.mpr ⟨hdangles, rfl⟩⟩⟩
    obtain ⟨e, he⟩ := Option.isSome_iff_exists.mp hfails
    exact ⟨e, failure?_eq_some_iff.mp ((failure?_ofDirectory d c).trans he)⟩

end Plan

/-- **Errors of a plan, exactly and first.**  A plan fails exactly if a class with a table merges, or
has as a parent that is no root class, what is not defined, or an attribute has a subtable of what is
no table.  It fails with the first such reference: those of classes, in their order, each with the
classes it merges before its parents, then those of attributes.  A run without a plan leaves every
session and every log as it was. -/
theorem Compiler.plan_fails_first (c : Compiler) :
    ((∃ e, c.plan = .error e) ↔
      (∃ cls ∈ c.directory.classes.items, cls.ignored = false ∧
        ((∃ name ∈ cls.merged, c.directory.class? name = none) ∨
          ∃ name ∈ cls.parents,
            c.config.isRootClass name = false ∧ c.directory.class? name = none)) ∨
      ∃ a ∈ c.directory.attributes.items, ∃ table ∈ a.subtables,
        ∀ cls ∈ c.directory.classes.items, cls.ignored = false → cls.name ≠ table) ∧
    (∀ e, c.plan = .error e ↔
      ∃ before r after, Plan.references c.directory = before ++ r :: after ∧
        (∀ earlier ∈ before, ¬ earlier.Dangles c.directory c.config) ∧
        r.Dangles c.directory c.config ∧ r.error = e) ∧
    (∀ e, c.plan = .error e →
      ∀ {σ τ : Type} (session : Session σ) (log : Log τ) (s : σ) (t : τ),
        c.bootstrap session log s t = (.error (.config e), { session := s, log := t })) ∧
    ∀ docs, Directory.ofDocuments docs = .ok c.directory →
      ∀ name, c.directory.class? name = none ↔
        ∀ cls ∈ c.directory.classes.items, Text.listsName cls.names name = false := by
  refine ⟨?_, fun e => Plan.ofDirectory_eq_error_iff, ?_, ?_⟩
  · exact Plan.exists_error_iff.trans Plan.exists_references_iff
  · intro e he σ τ session log s t
    rw [bootstrap, he]
  · intro docs hdocs name
    exact Directory.class?_eq_none_iff hdocs

/-- What the ignored class refers to does not count, nor does a root class in other letters; `Human`
is the class itself.  The attribute has no say as long as a class fails. -/
example :
    (Directory.ofDocuments [{
        attributes := [{ names := ["mail"], subtables := ["human"] }]
        classes := [{ names := ["old"], merged := ["lost"], ignored := true },
          { names := ["person", "human"], parents := ["TOP", "mammal"],
            merged := ["Human", "lost"] }] }]).bind (Plan.ofDirectory · {}) =
      .error (.undefinedMerge "person" "lost") := rfl

end DirectoryTables
