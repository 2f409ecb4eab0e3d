import DirectoryTables.Proofs.Plan.Columns

/-!
# Plans — Tables

Which tables are planned, and with which columns.

* `Plan.askedNames`: the names a class asks for, in order, once the classes it merges and inherits
  from are known.
* `Plan.keptNames`: the names among them that become columns.
* `Plan.IsTableOf`: what the table of a class has to be.
* `tablesFor_eq_ok_iff`: tables are planned exactly if every class that is not ignored has such a
  table, and they are these tables in the order of the classes.
-/

namespace DirectoryTables

/-- The classes are those that the names stand for, one for each. -/
def Directory.Resolves (d : Directory) (names : List String) (classes : List ObjectClass) : Prop :=
  List.Forall₂ (fun name cls => d.class? name = some cls) names classes

namespace Plan

variable {d : Directory} {c : Config} {cls : ObjectClass} {t : Table} {tables : List Table}

/-! ### The table of a class -/

/-- The names a class asks for: its own attributes, the included ones, those that are always in its
table, then those of the classes it merges and of the parents that count. -/
def askedNames (d : Directory) (cls : ObjectClass) (merged parents : List ObjectClass) :
    List String :=
  cls.may ++ cls.included ++ alwaysNames d cls.name ++ merged.flatMap ObjectClass.may ++
    parents.flatMap ObjectClass.may

/-- The names that become columns of a table: first occurrences of canonical names, without those
of bookkeeping columns and those whose values go to a subtable. -/
def keptNames (d : Directory) (table : String) (names : List String) : List String :=
  ((Text.firstOccurrences (names.map d.canonical)).filter fun n => !isBookkeeping n).filter
    fun n => !isRouted d table n

/-- The table is that of the class: it has the canonical name, the bookkeeping columns, and a column
for every kept name among those the class asks for. -/
structure IsTableOf (d : Directory) (c : Config) (cls : ObjectClass) (t : Table) : Prop where
  name : t.name = cls.name
  columns : ∃ merged parents, d.Resolves cls.merged merged ∧
    d.Resolves (cls.parents.filter fun parent => !c.isRootClass parent) parents ∧
    t.columns = bookkeeping ++
      (keptNames d cls.name (askedNames d cls merged parents)).map fun n =>
        ⟨n, Typing.columnType d c n cls.name⟩

/-! ### Columns -/

theorem isBookkeeping_congr {a b : String} (h : Text.sameName a b = true) :
    isBookkeeping a = isBookkeeping b :=
  Text.listsName_congr h _

theorem attributeNames_eq (d : Directory) (names : List String) :
    attributeNames d names =
      (Text.firstOccurrences (names.map d.canonical)).filter fun n => !isBookkeeping n := by
  rw [attributeNames, Text.distinctNames_filter (fun h => by rw [isBookkeeping_congr h]),
    Text.distinctNames_eq_firstOccurrences]

theorem columnsFor_eq (d : Directory) (c : Config) (table : String) (names : List String) :
    columnsFor d c table names =
      (keptNames d table names).map fun n => ⟨n, Typing.columnType d c n table⟩ := by
  rw [columnsFor, attributeNames_eq, keptNames]

/-! ### The names a class asks for -/

/-- Attributes are collected from the classes that names stand for, if there are such classes. -/
theorem mapM_may_eq_ok_iff {undefined : String → ConfigError} {names : List String}
    {lists : List (List String)} :
    (names.mapM fun name =>
        match d.class? name with
        | some source => Except.ok source.may
        | none => .error (undefined name)) = .ok lists ↔
      ∃ classes, d.Resolves names classes ∧ lists = classes.map ObjectClass.may := by
  rw [mapM_eq_ok_iff]
  constructor
  · intro h
    induction h with
    | nil => exact ⟨[], .nil, rfl⟩
    | @cons name _ _ _ hname _ ih =>
      obtain ⟨classes, hclasses, rfl⟩ := ih
      cases hclass : d.class? name with
      | none => rw [hclass] at hname; cases hname
      | some source =>
        rw [hclass] at hname
        cases hname
        exact ⟨source :: classes, .cons hclass hclasses, rfl⟩
  · rintro ⟨classes, h, rfl⟩
    rw [List.forall₂_map_right_iff]
    exact h.imp fun name source e => by rw [e]

theorem requestedNames_eq_ok_iff {names : List String} :
    requestedNames d c cls = .ok names ↔
      ∃ merged parents, d.Resolves cls.merged merged ∧
        d.Resolves (cls.parents.filter fun parent => !c.isRootClass parent) parents ∧
        names = askedNames d cls merged parents := by
  have hmerged : ∀ {lists}, mergedNames d cls = .ok lists ↔
      ∃ merged, d.Resolves cls.merged merged ∧ lists = merged.map ObjectClass.may :=
    mapM_may_eq_ok_iff
  have hinherited : ∀ {lists}, inheritedNames d c cls = .ok lists ↔
      ∃ parents, d.Resolves (cls.parents.filter fun parent => !c.isRootClass parent) parents ∧
        lists = parents.map ObjectClass.may :=
    mapM_may_eq_ok_iff
  constructor
  · intro h
    simp only [requestedNames, bind, Except.bind] at h
    cases hm : mergedNames d cls with
    | error e => rw [hm] at h; cases h
    | ok ms =>
      rw [hm] at h
      cases hi : inheritedNames d c cls with
      | error e => simp only [hi] at h; cases h
      | ok ps =>
        simp only [hi] at h
        cases h
        obtain ⟨merged, hr, rfl⟩ := hmerged.mp hm
        obtain ⟨parents, hr', rfl⟩ := hinherited.mp hi
        exact ⟨merged, parents, hr, hr', rfl⟩
  · rintro ⟨merged, parents, hr, hr', rfl⟩
    simp only [requestedNames, hmerged.mpr ⟨merged, hr, rfl⟩, hinherited.mpr ⟨parents, hr', rfl⟩]
    rfl

/-! ### Tables -/

theorem tableFor_eq_ok_iff : tableFor d c cls = .ok t ↔ IsTableOf d c cls t := by
  constructor
  · intro h
    obtain ⟨names, hnames, rfl⟩ := tableFor_eq_ok h
    obtain ⟨merged, parents, hr, hr', rfl⟩ := requestedNames_eq_ok_iff.mp hnames
    exact ⟨rfl, merged, parents, hr, hr', by rw [columnsFor_eq]⟩
  · rintro ⟨hname, merged, parents, hr, hr', hcolumns⟩
    have hnames := requestedNames_eq_ok_iff.mpr ⟨merged, parents, hr, hr', rfl⟩
    have ht : t = ⟨cls.name, bookkeeping ++
        columnsFor d c cls.name (askedNames d cls merged parents)⟩ := by
      rw [columnsFor_eq, ← hcolumns, ← hname]
    rw [tableFor, hnames, ht]
    rfl

/-- **The tables of a directory.**  Tables are planned if every class that is not ignored has one,
and these are the tables, in the order of the classes. -/
theorem tablesFor_eq_ok_iff :
    tablesFor d c = .ok tables ↔
      List.Forall₂ (IsTableOf d c) (d.classes.items.filter fun cls => !cls.ignored) tables := by
  rw [tablesFor, mapM_eq_ok_iff]
  simp only [tableFor_eq_ok_iff]

/-- Tables are named after their classes. -/
theorem map_name_tablesFor (h : tablesFor d c = .ok tables) :
    tables.map Table.name =
      (d.classes.items.filter fun cls => !cls.ignored).map ObjectClass.name := by
  rw [← List.forall₂_eq_eq_eq, List.forall₂_map_left_iff, List.forall₂_map_right_iff]
  exact List.Forall₂.flip ((tablesFor_eq_ok_iff.mp h).imp fun cls t htable => htable.name)

theorem exists_columns_eq_cons (h : IsTableOf d c cls t) :
    ∃ rest, t.columns = ⟨docId, .varchar 64⟩ :: rest := by
  obtain ⟨merged, parents, -, -, hcolumns⟩ := h.columns
  exact ⟨_, hcolumns⟩

/-- **Columns are exact.**  There is one table for each class that is not ignored, in the order of
the classes, with the columns the class asks for.  Its columns have distinct names, and the first
one alone identifies rows. -/
theorem tablesFor_exact (h : tablesFor d c = .ok tables) :
    List.Forall₂ (IsTableOf d c) (d.classes.items.filter fun cls => !cls.ignored) tables ∧
      ∀ t ∈ tables, t.HasDistinctColumns ∧
        ∃ rest, t.columns = ⟨docId, .varchar 64⟩ :: rest ∧
          ∀ column ∈ rest, Text.sameName column.name docId = false := by
  refine ⟨tablesFor_eq_ok_iff.mp h, fun t ht => ?_⟩
  obtain ⟨cls, -, htable⟩ := exists_of_mem_mapM h ht
  have hdistinct : t.HasDistinctColumns := hasDistinctColumns_tableFor htable
  obtain ⟨rest, hrest⟩ := exists_columns_eq_cons (tableFor_eq_ok_iff.mp htable)
  refine ⟨hdistinct, rest, hrest, fun column hcolumn => ?_⟩
  -- Another column of this name would have the same name as the first.
  rw [Table.HasDistinctColumns, hrest, List.map_cons, List.nodup_cons] at hdistinct
  rw [Text.sameName, beq_eq_false_iff_ne]
  exact fun e => hdistinct.1 (List.mem_map.mpr ⟨column, hcolumn, e⟩)

/-- A class with parents and a merged class, that writes the names of its attributes its own way. -/
def staffPerson : ObjectClass where
  names := ["gluuPerson"]
  parents := ["top", "person"]
  merged := ["organization"]
  may := ["UID", "Email", "DN"]

/-- The directory of `staffPerson`: an attribute of two names, one that is always in the table, and
one with a subtable. -/
def staff : Directory where
  attributes := [{ names := ["uid", "userid"] },
      { names := ["jansStatus"], alwaysIn := ["gluuPerson"] },
      { names := ["mail", "email"], subtables := ["gluuPerson"] }].foldl
    Directory.defineAttribute .empty
  classes := [{ names := ["top"], may := ["objectClass"] },
      { names := ["person"], may := ["cn", "UserID"] },
      { names := ["organization"], may := ["o", "CN"], ignored := true },
      staffPerson].foldl
    Directory.defineClass .empty

/-- The tables for `staff`: the ignored class has none, and gives attributes to the last one. -/
def staffTables : List Table :=
  [{ name := "top", columns := bookkeeping },
    { name := "person", columns := bookkeeping ++ [⟨"cn", .text⟩, ⟨"uid", .text⟩] },
    { name := "gluuPerson",
      columns := bookkeeping ++ [⟨"uid", .text⟩, ⟨"jansStatus", .text⟩, ⟨"o", .text⟩,
        ⟨"CN", .text⟩] }]

theorem tablesFor_exact_staff :
    tablesFor staff {} = .ok staffTables ∧
      List.Forall₂ (IsTableOf staff {}) (staff.classes.items.filter fun cls => !cls.ignored)
        staffTables :=
  have h : tablesFor staff {} = .ok staffTables := rfl
  ⟨h, (tablesFor_exact h).1⟩

end Plan

end DirectoryTables
