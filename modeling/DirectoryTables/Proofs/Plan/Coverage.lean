import DirectoryTables.Bootstrap
import DirectoryTables.Proofs.Plan.Tables

/-!
# Plans — Coverage

A plan loses no attribute.  `Plan.Requests` says which names a class asks for, by where they come
from; each of them has a column in the table of the class, or a subtable of that table
(`Compiler.plan_covers`).

Columns and subtables are found in different ways: a column is left out by looking its name up, a
subtable is made by going through the definitions.  That they agree rests on two facts about
registries: lookups do not see letter case, and find nothing but definitions.
-/

namespace DirectoryTables

/-! ### Lookups -/

namespace Registry

variable {α : Type} {r : Registry α}

theorem find?_congr {a b : String} (h : Text.sameName a b = true) : r.find? a = r.find? b := by
  rw [find?, find?, place?, place?, Text.sameName_iff.mp h]

theorem mem_items_of_find? {name : String} {x : α} (h : r.find? name = some x) : x ∈ r.items := by
  obtain ⟨place, -, hplace⟩ := Option.bind_eq_some_iff.mp h
  exact List.mem_of_getElem? hplace

end Registry

theorem Directory.Resolves.mem_iff {d : Directory} {names : List String}
    {classes : List ObjectClass} (h : d.Resolves names classes) {source : ObjectClass} :
    source ∈ classes ↔ ∃ name ∈ names, d.class? name = some source := by
  constructor
  · exact exists_of_mem_forall₂
      (List.Forall₂.flip (R := fun source name => d.class? name = some source) h)
  · rintro ⟨name, hname, hsource⟩
    obtain ⟨found, hfound, e⟩ := exists_of_mem_forall₂ h hname
    cases hsource.symm.trans e
    exact hfound

namespace Plan

variable {d : Directory} {c : Config} {cls : ObjectClass} {t : Table} {plan : Plan}

/-! ### Requests -/

/-- A class asks for a name. -/
inductive Requests (d : Directory) (c : Config) (cls : ObjectClass) : String → Prop
  /-- It is one of its attributes. -/
  | may {n : String} : n ∈ cls.may → Requests d c cls n
  /-- It is included. -/
  | included {n : String} : n ∈ cls.included → Requests d c cls n
  /-- It is the canonical name of an attribute that is always in the table. -/
  | always {a : Attribute} : a ∈ d.attributes.items → a.isAlwaysIn cls.name = true →
      Requests d c cls a.name
  /-- It is an attribute of a class that is merged. -/
  | merged {n name : String} {source : ObjectClass} : name ∈ cls.merged →
      d.class? name = some source → n ∈ source.may → Requests d c cls n
  /-- It is an attribute of a parent that is no root class. -/
  | inherited {n name : String} {source : ObjectClass} : name ∈ cls.parents →
      c.isRootClass name = false → d.class? name = some source → n ∈ source.may →
      Requests d c cls n

theorem mem_askedNames_iff {merged parents : List ObjectClass}
    (hmerged : d.Resolves cls.merged merged)
    (hparents : d.Resolves (cls.parents.filter fun parent => !c.isRootClass parent) parents)
    {n : String} : n ∈ askedNames d cls merged parents ↔ Requests d c cls n := by
  simp only [askedNames, List.mem_append, List.mem_flatMap]
  constructor
  · rintro ((((h | h) | h) | ⟨source, hsource, h⟩) | ⟨source, hsource, h⟩)
    · exact .may h
    · exact .included h
    · obtain ⟨a, ha, rfl⟩ := List.mem_map.mp h
      exact .always (List.mem_filter.mp ha).1 (List.mem_filter.mp ha).2
    · obtain ⟨name, hname, hclass⟩ := hmerged.mem_iff.mp hsource
      exact .merged hname hclass h
    · obtain ⟨name, hname, hclass⟩ := hparents.mem_iff.mp hsource
      obtain ⟨hparent, hroot⟩ := List.mem_filter.mp hname
      exact .inherited hparent (by simpa using hroot) hclass h
  · intro h
    cases h with
    | may h => exact .inl (.inl (.inl (.inl h)))
    | included h => exact .inl (.inl (.inl (.inr h)))
    | always ha htable =>
      exact .inl (.inl (.inr (List.mem_map_of_mem (List.mem_filter.mpr ⟨ha, htable⟩))))
    | merged hname hsource h => exact .inl (.inr ⟨_, hmerged.mem_iff.mpr ⟨_, hname, hsource⟩, h⟩)
    | @inherited _ name _ hname hroot hsource h =>
      have hcounts : name ∈ cls.parents.filter fun parent => !c.isRootClass parent :=
        List.mem_filter.mpr ⟨hname, by rw [hroot]; rfl⟩
      exact .inr ⟨_, hparents.mem_iff.mpr ⟨name, hcounts, hsource⟩, h⟩

/-! ### Columns and subtables -/

theorem isRouted_congr {table a b : String} (h : Text.sameName a b = true) :
    isRouted d table a = isRouted d table b := by
  rw [isRouted, isRouted, Directory.attribute?, Directory.attribute?, Registry.find?_congr h]

/-- A requested name has a column, unless it is a bookkeeping column or is kept in a subtable. -/
theorem exists_column_of_requests (ht : IsTableOf d c cls t) {n : String}
    (hn : Requests d c cls n) (hbook : isBookkeeping (d.canonical n) = false)
    (hrouted : isRouted d cls.name (d.canonical n) = false) :
    ∃ column ∈ t.columns, Text.sameName column.name (d.canonical n) = true := by
  obtain ⟨merged, parents, hmerged, hparents, hcolumns⟩ := ht.columns
  have hasked := List.mem_map_of_mem (f := d.canonical) ((mem_askedNames_iff hmerged hparents).mpr hn)
  -- The name may be kept in another spelling, from an earlier request.
  obtain ⟨k, hk, hkn⟩ := Text.exists_mem_distinctNames hasked
  rw [Text.distinctNames_eq_firstOccurrences] at hk
  have hkept : k ∈ keptNames d cls.name (askedNames d cls merged parents) := by
    refine List.mem_filter.mpr ⟨List.mem_filter.mpr ⟨hk, ?_⟩, ?_⟩
    · rw [isBookkeeping_congr hkn, hbook]; rfl
    · rw [isRouted_congr hkn, hrouted]; rfl
  refine ⟨⟨k, Typing.columnType d c k cls.name⟩, ?_, hkn⟩
  rw [hcolumns]
  exact List.mem_append_right _ (List.mem_map_of_mem hkept)

/-- A route has its subtable. -/
theorem exists_subtable_of_route (hplan : ofDirectory d c = .ok plan) {a : Attribute}
    {parent : String} (h : (a, parent) ∈ routes d) :
    ∃ s ∈ plan.subtables, s.parent = parent ∧ s.valueColumn = a.name := by
  obtain ⟨s, hs, e⟩ := exists_of_mem_forall₂ (mapM_eq_ok_iff.mp (ofDirectory_eq_ok hplan).2) h
  obtain ⟨rfl, -⟩ := ifPlanned_eq_ok e
  exact ⟨_, hs, rfl, rfl⟩

/-- An attribute whose values go to a subtable has one. -/
theorem exists_subtable_of_isRouted (hplan : ofDirectory d c = .ok plan) {table name : String}
    (h : isRouted d table name = true) :
    ∃ a, d.attribute? name = some a ∧
      ∃ s ∈ plan.subtables, s.parent = table ∧ s.valueColumn = a.name := by
  obtain ⟨a, ha, hroute⟩ := (Option.any_eq_true _ _).mp h
  refine ⟨a, ha, exists_subtable_of_route hplan ?_⟩
  have htable : table ∈ a.subtables := List.contains_iff_mem.mp hroute
  exact mem_routes_iff.mpr ⟨Registry.mem_items_of_find? ha, htable⟩

end Plan

/-- **No attribute is lost.**  Whatever a class with a table asks for has a column in that table
under its canonical name, letter case aside, or a subtable of it; only the names of bookkeeping
columns have neither. -/
theorem Compiler.plan_covers {c : Compiler} {plan : Plan} (hplan : c.plan = .ok plan)
    {cls : ObjectClass} (hcls : cls ∈ c.directory.classes.items) (htable : cls.ignored = false)
    {n : String} (hn : Plan.Requests c.directory c.config cls n)
    (hbook : isBookkeeping (c.directory.canonical n) = false) :
    ∃ t ∈ plan.tables, Plan.IsTableOf c.directory c.config cls t ∧
      ((∃ column ∈ t.columns,
          Text.sameName column.name (c.directory.canonical n) = true) ∨
        ∃ a, c.directory.attribute? (c.directory.canonical n) = some a ∧
          ∃ s ∈ plan.subtables, s.parent = cls.name ∧ s.valueColumn = a.name) := by
  have htables := Plan.tablesFor_eq_ok_iff.mp (Plan.ofDirectory_eq_ok hplan).1
  obtain ⟨t, ht, htcls⟩ :=
    exists_of_mem_forall₂ htables (List.mem_filter.mpr ⟨hcls, by rw [htable]; rfl⟩)
  refine ⟨t, ht, htcls, ?_⟩
  cases hrouted : Plan.isRouted c.directory cls.name (c.directory.canonical n) with
  | false => exact .inl (Plan.exists_column_of_requests htcls hn hbook hrouted)
  | true => exact .inr (Plan.exists_subtable_of_isRouted hplan hrouted)

/-- The plan for `Plan.staff`. -/
def Plan.staffPlan : Plan where
  tables := staffTables
  subtables := [{ parent := "gluuPerson", valueColumn := "mail", valueType := .text }]

/-- The mail addresses of `Plan.staffPerson`, asked for under their other name in other letters. -/
theorem Compiler.plan_covers_staff :
    Compiler.plan { directory := Plan.staff } = .ok Plan.staffPlan ∧
      Plan.staffPerson ∈ Plan.staff.classes.items ∧ Plan.staffPerson.ignored = false ∧
      Plan.Requests Plan.staff {} Plan.staffPerson "Email" ∧
      isBookkeeping (Plan.staff.canonical "Email") = false ∧
      ∃ t ∈ Plan.staffPlan.tables, Plan.IsTableOf Plan.staff {} Plan.staffPerson t ∧
        ((∃ column ∈ t.columns,
            Text.sameName column.name (Plan.staff.canonical "Email") = true) ∨
          ∃ a, Plan.staff.attribute? (Plan.staff.canonical "Email") = some a ∧
            ∃ s ∈ Plan.staffPlan.subtables, s.parent = "gluuPerson" ∧ s.valueColumn = a.name) := by
  have hplan : Compiler.plan { directory := Plan.staff } = .ok Plan.staffPlan := rfl
  have hcls : Plan.staffPerson ∈ Plan.staff.classes.items := List.mem_of_getElem? (i := 3) rfl
  have hn : Plan.Requests Plan.staff {} Plan.staffPerson "Email" := .may (by decide)
  have hbook : isBookkeeping (Plan.staff.canonical "Email") = false := rfl
  exact ⟨hplan, hcls, rfl, hn, hbook, Compiler.plan_covers hplan hcls rfl hn hbook⟩

end DirectoryTables
