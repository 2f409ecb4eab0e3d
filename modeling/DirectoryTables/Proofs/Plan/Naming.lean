import DirectoryTables.Bootstrap
import DirectoryTables.Proofs.Directory.Classes
import DirectoryTables.Proofs.Plan.Tables
import Mathlib.Data.List.Dedup

/-!
# Plans — Naming

Which planned tables and subtables go by the same name.

A subtable is named by its parent, an underscore and its attribute.  The parts cannot be told from
the name: either of them can have underscores of its own, and the name can be that of a class.

* `Subtable.Shifts`: the name of a subtable, split at a later underscore, is that of another one.
* `Subtable.name_eq_iff`: subtables of one name have the same parts, or one of them is so shifted.
* `Compiler.planned_names_nodup_iff`: when names are distinct.  The names of tables always are.
* `Compiler.not_planned_names_nodup`: those of tables and subtables need not be.
-/

namespace DirectoryTables

/-! ### Names of two parts -/

/-- Two lists with a mark in them are equal if they are split at the same mark, or if one of them is
split at a later mark of the other. -/
theorem append_cons_eq_append_cons_iff {α : Type} {m : α} {p q x y : List α} :
    p ++ m :: x = q ++ m :: y ↔
      p = q ∧ x = y ∨
        (∃ r, q = p ++ m :: r ∧ x = r ++ m :: y) ∨ ∃ r, p = q ++ m :: r ∧ y = r ++ m :: x := by
  constructor
  · intro h
    rcases List.append_eq_append_iff.mp h with ⟨rest, rfl, hx⟩ | ⟨rest, rfl, hy⟩
    · cases rest with
      | nil => exact .inl ⟨(List.append_nil p).symm, (List.cons.inj hx).2⟩
      | cons _ r =>
        obtain ⟨rfl, htail⟩ := List.cons.inj hx
        exact .inr (.inl ⟨r, rfl, htail⟩)
    · cases rest with
      | nil => exact .inl ⟨List.append_nil q, (List.cons.inj hy).2.symm⟩
      | cons _ r =>
        obtain ⟨rfl, htail⟩ := List.cons.inj hy
        exact .inr (.inr ⟨r, rfl, htail⟩)
  · rintro (⟨rfl, rfl⟩ | ⟨r, rfl, rfl⟩ | ⟨r, rfl, rfl⟩)
    · rfl
    · rw [List.append_assoc, List.cons_append]
    · rw [List.append_assoc, List.cons_append]

theorem ne_append_of_length_le {a p : String} (h : a.length ≤ p.length) (rest : String) :
    a ≠ p ++ "_" ++ rest := by
  intro e
  have hlength := congrArg String.length e
  simp only [String.length_append] at hlength
  have hmark : "_".length = 1 := rfl
  omega

namespace Subtable

variable {s s' : Subtable}

/-- The name of the subtable, split at a later underscore, is that of the other one. -/
def Shifts (s s' : Subtable) : Prop :=
  ∃ rest, s'.parent = s.parent ++ "_" ++ rest ∧ s.valueColumn = rest ++ "_" ++ s'.valueColumn

theorem toList_name (s : Subtable) :
    s.name.toList = s.parent.toList ++ '_' :: s.valueColumn.toList := by
  simp [name]

theorem shifts_iff :
    s.Shifts s' ↔ ∃ r, s'.parent.toList = s.parent.toList ++ '_' :: r ∧
      s.valueColumn.toList = r ++ '_' :: s'.valueColumn.toList := by
  constructor
  · rintro ⟨rest, hparent, hcolumn⟩
    exact ⟨rest.toList, by simp [hparent], by simp [hcolumn]⟩
  · rintro ⟨r, hparent, hcolumn⟩
    refine ⟨String.ofList r, String.toList_injective ?_, String.toList_injective ?_⟩
    · simp [hparent]
    · simp [hcolumn]

theorem name_eq_iff :
    s.name = s'.name ↔
      s.parent = s'.parent ∧ s.valueColumn = s'.valueColumn ∨ s.Shifts s' ∨ s'.Shifts s := by
  rw [← String.toList_inj, toList_name, toList_name, append_cons_eq_append_cons_iff, shifts_iff,
    shifts_iff, String.toList_inj, String.toList_inj]

example : Shifts ⟨"site", "host_mail", .text⟩ ⟨"site_host", "mail", .text⟩ := ⟨"host", rfl, rfl⟩

theorem not_shifts_self (s : Subtable) : ¬ s.Shifts s := by
  rintro ⟨rest, hparent, -⟩
  exact ne_append_of_length_le (Nat.le_refl _) rest hparent

end Subtable

namespace Plan

variable {d : Directory} {c : Config} {plan : Plan}

/-! ### Tables -/

/-- **Names of tables are distinct**, letter case aside. -/
theorem nodup_table_names {docs : List SchemaDocument} {tables : List Table}
    (hdocs : Directory.ofDocuments docs = .ok d) (h : tablesFor d c = .ok tables) :
    (tables.map fun t => Text.lower t.name).Nodup := by
  have hnames : (tables.map fun t => Text.lower t.name) =
      (d.classes.items.filter fun cls => !cls.ignored).map fun cls => Text.lower cls.name := by
    have := congrArg (List.map Text.lower) (map_name_tablesFor h)
    rwa [List.map_map, List.map_map] at this
  rw [hnames]
  exact (Directory.nodup_class_names hdocs).sublist (List.filter_sublist.map _)

/-! ### Subtables -/

theorem eq_of_mem_subtables (h : ofDirectory d c = .ok plan) {s s' : Subtable}
    (hs : s ∈ plan.subtables) (hs' : s' ∈ plan.subtables) (hparent : s.parent = s'.parent)
    (hcolumn : s.valueColumn = s'.valueColumn) : s = s' := by
  -- The type of the values depends on the two names alone.
  have htype : ∀ s ∈ plan.subtables,
      s.valueType = Typing.valueType d c s.valueColumn s.parent := by
    intro s hs
    obtain ⟨a, -, -, hname, htype, -⟩ := exists_route_of_subtable h hs
    rw [htype, hname]
  have htypes : s.valueType = s'.valueType := by
    rw [htype s hs, htype s' hs', hparent, hcolumn]
  cases s
  cases s'
  cases hparent
  cases hcolumn
  cases htypes
  rfl

/-- The names of a plan, without repeated subtables. -/
def names (plan : Plan) : List String :=
  plan.tables.map Table.name ++ plan.subtables.dedup.map Subtable.name

theorem nodup_names_iff (h : ofDirectory d c = .ok plan)
    (htables : (plan.tables.map Table.name).Nodup) :
    plan.names.Nodup ↔
      (∀ s ∈ plan.subtables, ∀ t ∈ plan.tables, t.name ≠ s.name) ∧
        ∀ s ∈ plan.subtables, ∀ s' ∈ plan.subtables, ¬ s.Shifts s' := by
  rw [names, List.nodup_append]
  constructor
  · rintro ⟨-, hsubtables, hapart⟩
    refine ⟨fun s hs t ht => ?_, fun s hs s' hs' hshifts => ?_⟩
    · exact hapart _ (List.mem_map_of_mem ht) _ (List.mem_map_of_mem (List.mem_dedup.mpr hs))
    · have hname : s.name = s'.name := Subtable.name_eq_iff.mpr (.inr (.inl hshifts))
      have hsame : s = s' := List.inj_on_of_nodup_map hsubtables (List.mem_dedup.mpr hs)
        (List.mem_dedup.mpr hs') hname
      subst hsame
      exact s.not_shifts_self hshifts
  · rintro ⟨hapart, hshifts⟩
    refine ⟨htables, ?_, ?_⟩
    · refine (List.nodup_dedup _).map_on fun s hs s' hs' hname => ?_
      have hs := List.mem_dedup.mp hs
      have hs' := List.mem_dedup.mp hs'
      rcases Subtable.name_eq_iff.mp hname with ⟨hparent, hcolumn⟩ | hshift | hshift
      · exact eq_of_mem_subtables h hs hs' hparent hcolumn
      · exact absurd hshift (hshifts s hs s' hs')
      · exact absurd hshift (hshifts s' hs' s hs)
    · intro n hn m hm
      obtain ⟨t, ht, rfl⟩ := List.mem_map.mp hn
      obtain ⟨s, hs, rfl⟩ := List.mem_map.mp hm
      exact hapart s (List.mem_dedup.mp hs) t ht

end Plan

/-- **Names are distinct** for tables, letter case aside.  For tables and subtables together they are
distinct exactly if no table has the name of a subtable and the name of no subtable, split at a later
underscore, is that of another one.  It suffices that the parent of no subtable, with an underscore
after its name, begins the name of a table. -/
theorem Compiler.planned_names_nodup_iff {docs : List SchemaDocument} {c : Compiler} {plan : Plan}
    (hdocs : Directory.ofDocuments docs = .ok c.directory) (hplan : c.plan = .ok plan) :
    (plan.tables.map fun t => Text.lower t.name).Nodup ∧
    (plan.names.Nodup ↔
      (∀ s ∈ plan.subtables, ∀ t ∈ plan.tables, t.name ≠ s.name) ∧
        ∀ s ∈ plan.subtables, ∀ s' ∈ plan.subtables, ¬ s.Shifts s') ∧
    ((∀ s ∈ plan.subtables, ∀ t ∈ plan.tables, ∀ rest, t.name ≠ s.parent ++ "_" ++ rest) →
      plan.names.Nodup) := by
  have hlower : (plan.tables.map fun t => Text.lower t.name).Nodup :=
    Plan.nodup_table_names hdocs (Plan.ofDirectory_eq_ok hplan).1
  have htables : (plan.tables.map Table.name).Nodup := by
    refine List.Nodup.of_map Text.lower ?_
    rwa [List.map_map]
  have hiff := Plan.nodup_names_iff hplan htables
  refine ⟨hlower, hiff, fun hfree => hiff.mpr ⟨fun s hs t ht => hfree s hs t ht _, ?_⟩⟩
  rintro s hs s' hs' ⟨rest, hparent, -⟩
  obtain ⟨t, ht, hname⟩ := Plan.exists_parent_of_planned hplan hs'
  exact hfree s hs t ht rest (hname.trans hparent)

/-- An attribute with subtables of two tables. -/
def Plan.sharedMail : SchemaDocument where
  attributes := [{ names := ["mail"], subtables := ["person", "office"] }]
  classes := [{ names := ["person"] }, { names := ["office"], may := ["mail"] }]

/-- The compiler of `sharedMail`. -/
def Compiler.sharedMail : Compiler where
  directory := .ofDefinitions Plan.sharedMail.attributes Plan.sharedMail.classes

/-- The plan for `sharedMail`. -/
def Plan.sharedMailPlan : Plan where
  tables := [{ name := "person", columns := bookkeeping },
    { name := "office", columns := bookkeeping }]
  subtables := [{ parent := "person", valueColumn := "mail", valueType := .text },
    { parent := "office", valueColumn := "mail", valueType := .text }]

theorem Compiler.planned_names_nodup_iff_sharedMail :
    Directory.ofDocuments [Plan.sharedMail] = .ok sharedMail.directory ∧
      sharedMail.plan = .ok Plan.sharedMailPlan ∧
      Plan.sharedMailPlan.names = ["person", "office", "person_mail", "office_mail"] ∧
      Plan.sharedMailPlan.names.Nodup := by
  have hdocs : Directory.ofDocuments [Plan.sharedMail] = .ok sharedMail.directory := rfl
  have hplan : sharedMail.plan = .ok Plan.sharedMailPlan := rfl
  have hlength : ∀ s ∈ Plan.sharedMailPlan.subtables, ∀ t ∈ Plan.sharedMailPlan.tables,
      t.name.length ≤ s.parent.length := by decide
  refine ⟨hdocs, hplan, by decide, (Compiler.planned_names_nodup_iff hdocs hplan).2.2 ?_⟩
  exact fun s hs t ht => ne_append_of_length_le (hlength s hs t ht)

/-- A document with a class that has the name of a subtable. -/
def Plan.clashingMail : List SchemaDocument :=
  [{ attributes := [{ names := ["mail"], subtables := ["gluuPerson"] }]
     classes := [{ names := ["gluuPerson"], may := ["mail"] }, { names := ["gluuPerson_mail"] }] }]

theorem Compiler.not_planned_names_nodup :
    ¬ ∀ docs (c : Compiler) plan, Directory.ofDocuments docs = .ok c.directory →
      c.plan = .ok plan →
        (plan.tables.map Table.name ++ plan.subtables.map Subtable.name).Nodup := by
  intro h
  have hnames := h Plan.clashingMail { directory := _ } _ rfl rfl
  exact absurd hnames (by decide)

end DirectoryTables
