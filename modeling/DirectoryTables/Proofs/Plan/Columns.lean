import DirectoryTables.Plan
import DirectoryTables.Proofs.Results
import DirectoryTables.Proofs.Text.Distinct
import Mathlib.Data.List.Nodup

/-!
# Plans — Columns

What every plan has in common, whatever directory it is made from.

* `hasDistinctColumns_of_planned`: no two columns of a planned table have the same name, letter
  case aside.
* `exists_route_of_subtable`: a planned subtable comes from a listed attribute, and its parent is a
  planned table (`exists_parent_of_planned`).
-/

namespace DirectoryTables

/-! ### Columns of a table -/

/-- No two columns of the table have the same name, letter case aside. -/
def Table.HasDistinctColumns (t : Table) : Prop :=
  (t.columns.map fun column => Text.lower column.name).Nodup

/-- Columns with the same name, letter case aside, are one. -/
theorem Table.HasDistinctColumns.eq {t : Table} (h : t.HasDistinctColumns) {column column' : Column}
    (hcolumn : column ∈ t.columns) (hcolumn' : column' ∈ t.columns)
    (e : Text.lower column.name = Text.lower column'.name) : column = column' :=
  List.inj_on_of_nodup_map h hcolumn hcolumn' e

namespace Plan

/-- The columns of a planned table: the bookkeeping columns, then one for each attribute whose
values are not kept in a subtable. -/
theorem tableFor_eq_ok {d : Directory} {c : Config} {cls : ObjectClass} {t : Table}
    (h : tableFor d c cls = .ok t) :
    ∃ names, requestedNames d c cls = .ok names ∧
      t = { name := cls.name, columns := bookkeeping ++ columnsFor d c cls.name names } := by
  simp only [tableFor, bind, Except.bind] at h
  cases hn : requestedNames d c cls with
  | error e => rw [hn] at h; cases h
  | ok names => rw [hn] at h; cases h; exact ⟨names, rfl, rfl⟩

theorem map_name_columnsFor (d : Directory) (c : Config) (table : String) (names : List String) :
    (columnsFor d c table names).map Column.name =
      (attributeNames d names).filter fun n => !isRouted d table n := by
  simp [columnsFor, Function.comp_def]

theorem not_isBookkeeping_of_mem {d : Directory} {names : List String} {n : String}
    (h : n ∈ attributeNames d names) : isBookkeeping n = false := by
  simpa using (List.mem_filter.mp ((Text.distinctNames_sublist _).subset h)).2

theorem hasDistinctColumns_tableFor {d : Directory} {c : Config} {cls : ObjectClass} {t : Table}
    (h : tableFor d c cls = .ok t) : t.HasDistinctColumns := by
  obtain ⟨names, -, rfl⟩ := tableFor_eq_ok h
  have hattr :
      ((columnsFor d c cls.name names).map fun column => Text.lower column.name).Nodup := by
    have e : (columnsFor d c cls.name names).map (fun column => Text.lower column.name) =
        ((columnsFor d c cls.name names).map Column.name).map Text.lower := by simp
    rw [e, map_name_columnsFor]
    exact (Text.nodup_distinctNames _).sublist (List.filter_sublist.map Text.lower)
  have hbook : (bookkeeping.map fun column => Text.lower column.name).Nodup := by decide
  rw [Table.HasDistinctColumns, List.map_append]
  refine List.nodup_append.mpr ⟨hbook, hattr, fun a ha n hn e => ?_⟩
  subst e
  obtain ⟨column, hcolumn, rfl⟩ := List.mem_map.mp hn
  have hname : column.name ∈ attributeNames d names := by
    have := List.mem_map_of_mem (f := Column.name) hcolumn
    rw [map_name_columnsFor] at this
    exact (List.mem_filter.mp this).1
  have hbk := not_isBookkeeping_of_mem hname
  rw [isBookkeeping, Text.listsName_eq_false_iff, List.map_map] at hbk
  exact hbk ha

/-- The tables and subtables of a plan, each from its class or from its route. -/
theorem ofDirectory_eq_ok {d : Directory} {c : Config} {plan : Plan}
    (h : ofDirectory d c = .ok plan) :
    tablesFor d c = .ok plan.tables ∧ subtablesFor d c plan.tables = .ok plan.subtables := by
  simp only [ofDirectory, bind, Except.bind] at h
  cases ht : tablesFor d c with
  | error e => rw [ht] at h; cases h
  | ok tables =>
    rw [ht] at h
    cases hs : subtablesFor d c tables with
    | error e => simp only [hs] at h; cases h
    | ok subtables => simp only [hs] at h; cases h; exact ⟨rfl, hs⟩

/-- **Columns are distinct.**  No two columns of a planned table have the same name, letter case
aside. -/
theorem hasDistinctColumns_of_planned {d : Directory} {c : Config} {plan : Plan}
    (h : ofDirectory d c = .ok plan) {t : Table} (ht : t ∈ plan.tables) : t.HasDistinctColumns := by
  obtain ⟨cls, -, e⟩ := exists_of_mem_mapM (ofDirectory_eq_ok h).1 ht
  exact hasDistinctColumns_tableFor e

theorem mem_routes_iff {d : Directory} {a : Attribute} {parent : String} :
    (a, parent) ∈ routes d ↔ a ∈ d.attributes.items ∧ parent ∈ a.subtables := by
  simp [routes]

/-- A subtable is planned only for a table that is. -/
theorem ifPlanned_eq_ok {tables : List Table} {parent : String} {e : ConfigError}
    {planned s : Subtable}
    (h : (if tables.any (·.name == parent) then Except.ok planned else .error e) = .ok s) :
    planned = s ∧ ∃ t ∈ tables, t.name = parent := by
  split at h
  case isTrue hany =>
    cases h
    obtain ⟨t, ht, hname⟩ := List.any_eq_true.mp hany
    exact ⟨rfl, t, ht, eq_of_beq hname⟩
  case isFalse => cases h

/-- A planned subtable comes from the route of a listed attribute to a planned table. -/
theorem exists_route_of_subtable {d : Directory} {c : Config} {plan : Plan}
    (h : ofDirectory d c = .ok plan) {s : Subtable} (hs : s ∈ plan.subtables) :
    ∃ a ∈ d.attributes.items, s.parent ∈ a.subtables ∧ s.valueColumn = a.name ∧
      s.valueType = Typing.valueType d c a.name s.parent ∧ ∃ t ∈ plan.tables, t.name = s.parent := by
  obtain ⟨⟨a, parent⟩, hroute, e⟩ := exists_of_mem_mapM (ofDirectory_eq_ok h).2 hs
  obtain ⟨rfl, hparent⟩ := ifPlanned_eq_ok e
  obtain ⟨ha, htable⟩ := mem_routes_iff.mp hroute
  exact ⟨a, ha, htable, rfl, rfl, hparent⟩

/-- **Parents are planned.**  The parent of a planned subtable is a planned table. -/
theorem exists_parent_of_planned {d : Directory} {c : Config} {plan : Plan}
    (h : ofDirectory d c = .ok plan) {s : Subtable} (hs : s ∈ plan.subtables) :
    ∃ t ∈ plan.tables, t.name = s.parent := by
  obtain ⟨a, -, -, -, -, hparent⟩ := exists_route_of_subtable h hs
  exact hparent

end Plan

end DirectoryTables
