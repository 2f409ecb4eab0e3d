import DirectoryTables.Proofs.Directory.Attributes
import DirectoryTables.Proofs.Plan.Coverage

/-!
# Plans — Routing

Whether a planned table has a column for an attribute whose values are kept in a subtable of it.

Tables leave out the attributes that a lookup of their name says are kept elsewhere; subtables are
made for the definitions that are listed.  The two agree as far as lookups are exact, and bookkeeping
columns are not attributes to tables, but can be to subtables.

* `IsTableOf.exists_column_iff`: the names of the columns of a table.
* `isRouted_of_subtable`: exact lookups find the definitions that subtables are made for.
* `Compiler.routed_column_iff`: when the parent of a subtable has a column of the same name.  For
  documents whose definitions keep names it is a bookkeeping column.
* `Compiler.not_routed_apart`: in general it need not be one.
-/

namespace DirectoryTables

namespace Plan

variable {d : Directory} {c : Config} {cls : ObjectClass} {t : Table} {plan : Plan}

/-! ### The names of columns -/

/-- The bookkeeping columns have the bookkeeping names. -/
theorem exists_bookkeeping_iff {name : String} :
    (∃ column ∈ bookkeeping, Text.sameName column.name name = true) ↔
      isBookkeeping name = true := by
  simp [isBookkeeping, Text.listsName]

/-- **The columns of a table** are the bookkeeping columns and those of the attributes its class asks
for, except where a lookup says that the values are kept in a subtable. -/
theorem IsTableOf.exists_column_iff (ht : IsTableOf d c cls t) {name : String} :
    (∃ column ∈ t.columns, Text.sameName column.name name = true) ↔
      isBookkeeping name = true ∨
        isRouted d cls.name name = false ∧
          ∃ n, Requests d c cls n ∧ Text.sameName (d.canonical n) name = true := by
  constructor
  · rintro ⟨column, hcolumn, hname⟩
    obtain ⟨merged, parents, hmerged, hparents, hcolumns⟩ := ht.columns
    rw [hcolumns] at hcolumn
    rcases List.mem_append.mp hcolumn with hcolumn | hcolumn
    · exact .inl (exists_bookkeeping_iff.mp ⟨column, hcolumn, hname⟩)
    · obtain ⟨k, hk, rfl⟩ := List.mem_map.mp hcolumn
      obtain ⟨hk, hrouted⟩ := List.mem_filter.mp hk
      rw [← Text.distinctNames_eq_firstOccurrences] at hk
      have hasked := (Text.distinctNames_sublist _).subset (List.mem_filter.mp hk).1
      obtain ⟨n, hn, rfl⟩ := List.mem_map.mp hasked
      refine .inr ⟨?_, n, (mem_askedNames_iff hmerged hparents).mp hn, hname⟩
      rw [← isRouted_congr hname]
      simpa using hrouted
  · intro h
    cases hbook : isBookkeeping name with
    | true =>
      obtain ⟨column, hcolumn, hname⟩ := exists_bookkeeping_iff.mpr hbook
      obtain ⟨merged, parents, -, -, hcolumns⟩ := ht.columns
      exact ⟨column, hcolumns ▸ List.mem_append_left _ hcolumn, hname⟩
    | false =>
      obtain ⟨hrouted, n, hn, hname⟩ := h.resolve_left (by rw [hbook]; exact Bool.false_ne_true)
      obtain ⟨column, hcolumn, hsame⟩ := exists_column_of_requests ht hn
        ((isBookkeeping_congr hname).trans hbook) ((isRouted_congr hname).trans hrouted)
      exact ⟨column, hcolumn, Text.sameName_trans hsame hname⟩

/-! ### The definitions behind subtables -/

/-- Lookups that are exact find the definition behind a subtable. -/
theorem isRouted_of_subtable {docs : List SchemaDocument} (hdocs : Directory.ofDocuments docs = .ok d)
    (hexact : d.attributes.Exact) (hplan : ofDirectory d c = .ok plan) {s : Subtable}
    (hs : s ∈ plan.subtables) : isRouted d s.parent s.valueColumn = true := by
  obtain ⟨a, ha, hparent, hname, -⟩ := exists_route_of_subtable hplan hs
  have hfound : d.attribute? s.valueColumn = some a := by
    rw [hname, Directory.attribute?_eq_some_iff hexact]
    exact ⟨ha, Attribute.hasName_name (Directory.names_ne_nil hdocs ha)⟩
  rw [isRouted, hfound, Option.any_some, Attribute.isRoutedFrom]
  exact List.contains_iff_mem.mpr hparent

end Plan

/-- **Routed attributes and columns.**  The parent of a planned subtable has a column of the name of
the attribute exactly if that is a bookkeeping column, or its class asks for the name and a lookup of
it finds another definition, one that is not routed.  The latter happens for no documents whose
definitions keep names. -/
theorem Compiler.routed_column_iff {docs : List SchemaDocument} {c : Compiler} {plan : Plan}
    (hdocs : Directory.ofDocuments docs = .ok c.directory) (hplan : c.plan = .ok plan)
    {s : Subtable} (hs : s ∈ plan.subtables) {t : Table} (ht : t ∈ plan.tables)
    (hparent : t.name = s.parent) :
    (∃ cls ∈ c.directory.classes.items, Plan.IsTableOf c.directory c.config cls t ∧
      ((∃ column ∈ t.columns, Text.sameName column.name s.valueColumn = true) ↔
        isBookkeeping s.valueColumn = true ∨
          Plan.isRouted c.directory s.parent s.valueColumn = false ∧
            ∃ n, Plan.Requests c.directory c.config cls n ∧
              Text.sameName (c.directory.canonical n) s.valueColumn = true)) ∧
    (NamesKept (docs.flatMap (·.attributes)) →
      ((∃ column ∈ t.columns, Text.sameName column.name s.valueColumn = true) ↔
        isBookkeeping s.valueColumn = true)) := by
  obtain ⟨cls, hcls, htable⟩ := exists_of_mem_mapM (Plan.ofDirectory_eq_ok hplan).1 ht
  have htcls : Plan.IsTableOf c.directory c.config cls t := Plan.tableFor_eq_ok_iff.mp htable
  have hname : cls.name = s.parent := htcls.name.symm.trans hparent
  refine ⟨⟨cls, (List.mem_filter.mp hcls).1, htcls, ?_⟩, fun hkept => ?_⟩
  · rw [htcls.exists_column_iff, hname]
  · have hrouted : Plan.isRouted c.directory s.parent s.valueColumn = true :=
      Plan.isRouted_of_subtable hdocs (Directory.exact_of_namesKept hdocs hkept) hplan hs
    rw [htcls.exists_column_iff, hname, hrouted]
    simp

/-- An attribute that has a subtable and is asked for under its other name, and one that has none. -/
def Plan.routedMail : SchemaDocument where
  attributes := [{ names := ["mail", "email"], subtables := ["person"] }, { names := ["uid"] }]
  classes := [{ names := ["person"], may := ["Email", "uid"] }]

/-- The compiler of `routedMail`. -/
def Compiler.routedMail : Compiler where
  directory := .ofDefinitions Plan.routedMail.attributes Plan.routedMail.classes

theorem Compiler.routed_column_iff_routedMail :
    let person : Table := { name := "person", columns := bookkeeping ++ [⟨"uid", .text⟩] }
    let mail : Subtable := { parent := "person", valueColumn := "mail", valueType := .text }
    Directory.ofDocuments [Plan.routedMail] = .ok routedMail.directory ∧
      routedMail.plan = .ok { tables := [person], subtables := [mail] } ∧
      NamesKept ([Plan.routedMail].flatMap (·.attributes)) ∧
      ((∃ column ∈ person.columns, Text.sameName column.name "mail" = true) ↔
        isBookkeeping "mail" = true) := by
  intro person mail
  have hdocs : Directory.ofDocuments [Plan.routedMail] = .ok routedMail.directory := rfl
  have hplan : routedMail.plan = .ok { tables := [person], subtables := [mail] } := rfl
  have hkept : NamesKept ([Plan.routedMail].flatMap (·.attributes)) := by decide
  have hs : mail ∈ [mail] := List.mem_cons_self
  have ht : person ∈ [person] := List.mem_cons_self
  exact ⟨hdocs, hplan, hkept, (Compiler.routed_column_iff hdocs hplan hs ht rfl).2 hkept⟩

/-- An attribute with the name of a bookkeeping column can have both. -/
example :
    (Directory.ofDocuments [{
        attributes := [{ names := ["dn"], subtables := ["person"] }]
        classes := [{ names := ["person"] }] }]).bind (Plan.ofDirectory · {}) =
      .ok ⟨[⟨"person", bookkeeping⟩], [⟨"person", "dn", .text⟩]⟩ := rfl

/-- Two documents.  The second joins the attributes of the first, then takes a name away again. -/
def Plan.dividedMail : List SchemaDocument :=
  [{ attributes := [{ names := ["email"] }, { names := ["mail"], subtables := ["person"] }]
     classes := [{ names := ["person"], may := ["mail"] }] },
    { attributes := [{ names := ["email", "mail"] }, { names := ["mail"] }] }]

/-- Not every attribute with a subtable is left out of the parent: lookups do not find the definition
that is still listed second. -/
theorem Compiler.not_routed_apart :
    ¬ ∀ docs (c : Compiler) plan, Directory.ofDocuments docs = .ok c.directory →
      c.plan = .ok plan → ∀ s ∈ plan.subtables, ∀ t ∈ plan.tables, t.name = s.parent →
        ∀ column ∈ t.columns, Text.sameName column.name s.valueColumn = false := by
  intro h
  have hmail := h Plan.dividedMail { directory := _ } _ rfl rfl
    { parent := "person", valueColumn := "mail", valueType := .text } List.mem_cons_self
    { name := "person", columns := bookkeeping ++ [⟨"mail", .text⟩] } List.mem_cons_self rfl
    ⟨"mail", .text⟩ (by decide)
  exact absurd hmail (by decide)

end DirectoryTables
