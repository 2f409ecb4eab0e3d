import DirectoryTables.Bootstrap
import DirectoryTables.Proofs.Plan.Coverage

/-!
# Plans — Outlines

What of a plan does not depend on types.  The outline of a plan keeps every name in it, in order,
and leaves every type out.

* `Plan.outline`: the outline of a plan.
* `Compiler.outline_plan`: configurations with the same root classes plan the same outline for a
  directory, or fail with the same error, whatever their dialects and types.

Types are given while columns are made, but after they are chosen: at every stage the two runs
are compared through the outline (`map_mapM_congr`).
-/

namespace DirectoryTables

/-! ### Outlines -/

/-- The outline of a table: its name and the names of its columns. -/
def Table.outline (t : Table) : String × List String :=
  (t.name, t.columns.map Column.name)

/-- The outline of a subtable: its parent and the attribute. -/
def Subtable.outline (s : Subtable) : String × String :=
  (s.parent, s.valueColumn)

namespace Plan

/-- What is left of a plan without its types. -/
structure Outline where
  tables : List (String × List String)
  subtables : List (String × String)
  deriving DecidableEq

/-- The outline of a plan. -/
def outline (p : Plan) : Outline where
  tables := p.tables.map Table.outline
  subtables := p.subtables.map Subtable.outline

variable {d : Directory} {c c' : Config}

/-! ### Tables -/

theorem inheritedNames_congr (h : ∀ name, c.isRootClass name = c'.isRootClass name)
    (cls : ObjectClass) : inheritedNames d c cls = inheritedNames d c' cls := by
  simp only [inheritedNames, h]

theorem requestedNames_congr (h : ∀ name, c.isRootClass name = c'.isRootClass name)
    (cls : ObjectClass) : requestedNames d c cls = requestedNames d c' cls := by
  rw [requestedNames, requestedNames, inheritedNames_congr h]

theorem outline_tableFor (h : ∀ name, c.isRootClass name = c'.isRootClass name)
    (cls : ObjectClass) :
    (tableFor d c cls).map Table.outline = (tableFor d c' cls).map Table.outline := by
  rw [tableFor, tableFor, requestedNames_congr h]
  cases requestedNames d c' cls with
  | error e => rfl
  | ok names =>
    have hcolumns : ∀ config, (bookkeeping ++ columnsFor d config cls.name names).map Column.name =
        bookkeeping.map Column.name ++
          (attributeNames d names).filter fun n => !isRouted d cls.name n := fun config => by
      rw [List.map_append, map_name_columnsFor]
    exact congrArg Except.ok (Prod.ext rfl ((hcolumns c).trans (hcolumns c').symm))

theorem outline_tablesFor (h : ∀ name, c.isRootClass name = c'.isRootClass name) :
    (tablesFor d c).map (List.map Table.outline) =
      (tablesFor d c').map (List.map Table.outline) :=
  map_mapM_congr fun cls _ => outline_tableFor h cls

/-! ### Subtables -/

theorem any_name_congr {tables tables' : List Table}
    (h : tables.map Table.outline = tables'.map Table.outline) (parent : String) :
    tables.any (·.name == parent) = tables'.any (·.name == parent) := by
  have hany : ∀ ts : List Table, ts.any (·.name == parent) =
      (ts.map Table.outline).any (·.1 == parent) := fun ts => by
    rw [List.any_map]; rfl
  rw [hany, hany, h]

theorem outline_subtablesFor {tables tables' : List Table}
    (h : tables.map Table.outline = tables'.map Table.outline) :
    (subtablesFor d c tables).map (List.map Subtable.outline) =
      (subtablesFor d c' tables').map (List.map Subtable.outline) := by
  refine map_mapM_congr fun route _ => ?_
  simp only [any_name_congr h]
  split <;> rfl

/-! ### Plans -/

/-- The outline of the plan for a directory depends on the configuration only as to which classes
are root classes. -/
theorem outline_ofDirectory (h : ∀ name, c.isRootClass name = c'.isRootClass name) :
    (ofDirectory d c).map outline = (ofDirectory d c').map outline := by
  refine map_bind_congr (outline_tablesFor h) fun tables tables' htables => ?_
  refine map_bind_congr (outline_subtablesFor htables) fun subtables subtables' hsubtables => ?_
  exact congrArg Except.ok (congrArg₂ Outline.mk htables hsubtables)

end Plan

namespace Compiler

/-- **Structure does not depend on types.**  Compilers of a directory whose configurations have the
same root classes plan the same tables with the same columns and the same subtables, in the same
order, or fail with the same error.  Dialects, versions, types and all else may differ, and may
show only in the types of columns. -/
theorem outline_plan {c c' : Compiler} (hd : c.directory = c'.directory)
    (hroots : ∀ name, c.config.isRootClass name = c'.config.isRootClass name) :
    c.plan.map Plan.outline = c'.plan.map Plan.outline := by
  rw [plan, plan, hd]
  exact Plan.outline_ofDirectory hroots

/-- Two compilers of one directory, for MySQL and, with an explicit type, for Spanner: the plans
differ, their outlines do not. -/
theorem outline_plan_staff :
    let mysql : Compiler := { directory := Plan.staff }
    let spanner : Compiler :=
      { directory := Plan.staff
        config := Config.withTypeOverride { dialect := .spanner } "o" (.all (.plain "JSON")) }
    mysql.plan.toOption ≠ spanner.plan.toOption ∧
      mysql.plan.map Plan.outline = spanner.plan.map Plan.outline := by
  intro mysql spanner
  have hdiffer : mysql.plan.toOption ≠ spanner.plan.toOption := by decide +kernel
  exact ⟨hdiffer, outline_plan rfl fun _ => rfl⟩

end Compiler

end DirectoryTables
