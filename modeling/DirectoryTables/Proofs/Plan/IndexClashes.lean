import DirectoryTables.Proofs.Backend.Fitting
import DirectoryTables.Proofs.Plan.IndexNames
import DirectoryTables.Proofs.Plan.Naming

/-!
# Plans — Clashes of indexes

Which indexes of different planned tables go by the same name.

The name of an index of a column begins with the names of the table and of the column.  As with
subtables, the two cannot be told from the name, so a clash is one text split at two underscores
(`Plan.Clash`).  The index of a subtable counts as one of its parent there.  The other indexes of a
table begin with its name alone, and never clash with those of other tables.

* `Compiler.fitted_index_names_eq_iff`: when two indexes of different tables are created under the
  same name.
* `Compiler.not_index_names_apart`: they can be.
-/

namespace DirectoryTables

/-! ### Splits of a text -/

/-- The two names, joined and split at a later underscore, are the other two. -/
def Text.Splits (owner column owner' column' : String) : Prop :=
  ∃ rest, owner' = owner ++ "_" ++ rest ∧ column = rest ++ "_" ++ column'

theorem Text.joined_eq_iff {owner column owner' column' : String} :
    owner ++ "_" ++ column = owner' ++ "_" ++ column' ↔
      owner = owner' ∧ column = column' ∨
        Splits owner column owner' column' ∨ Splits owner' column' owner column :=
  @Subtable.name_eq_iff ⟨owner, column, .text⟩ ⟨owner', column', .text⟩

/-! ### Planned indexes -/

/-- The index is one of the index plan, or the one on the values of a subtable. -/
def Compiler.PlansIndex (c : Compiler) (plan : Plan) (i : CreateIndex) : Prop :=
  .createIndex i ∈ c.indexPlan plan.tables ∨
    ∃ s ∈ plan.subtables, s.index c.config.backend c.config.textPrefixLength = i

namespace Plan

variable {plan : Plan} {c : Compiler} {i j : CreateIndex} {owner column : String}
  {mark : IndexMark}

/-- The index is made for a column that was planned for the owner, and has the mark in its name. -/
inductive IsColumnIndex (plan : Plan) (i : CreateIndex) : String → String → IndexMark → Prop
  /-- The column is one of a planned table. -/
  | table {t : Table} {column : Column} {mark : IndexMark} (ht : t ∈ plan.tables)
      (hcolumn : column ∈ t.columns) (hmark : mark.isOfColumn = true) (htable : i.table = t.name)
      (hname : i.name = t.name ++ "_" ++ column.name ++ mark.text) :
      IsColumnIndex plan i t.name column.name mark
  /-- The column is the one of the values of a planned subtable. -/
  | subtable {s : Subtable} (hs : s ∈ plan.subtables) (htable : i.table = s.name)
      (hname : i.name = s.indexName) : IsColumnIndex plan i s.parent s.valueColumn .column

theorem IsColumnIndex.name_eq (h : plan.IsColumnIndex i owner column mark) :
    i.name = owner ++ "_" ++ column ++ mark.text := by
  cases h with
  | table _ _ _ _ hname => exact hname
  | subtable _ _ hname => exact hname

theorem IsColumnIndex.isOfColumn (h : plan.IsColumnIndex i owner column mark) :
    mark.isOfColumn = true := by
  cases h with
  | table _ _ hmark _ _ => exact hmark
  | subtable => rfl

theorem IsColumnIndex.exists_owner (hplan : c.plan = .ok plan)
    (h : plan.IsColumnIndex i owner column mark) : ∃ t ∈ plan.tables, t.name = owner := by
  cases h with
  | table ht => exact ⟨_, ht, rfl⟩
  | subtable hs => exact exists_parent_of_planned hplan hs

/-- A planned index is made for a column, or is named by its table and a mark. -/
theorem cases_of_plansIndex (h : c.PlansIndex plan i) :
    (∃ owner column mark, plan.IsColumnIndex i owner column mark) ∨
      ∃ mark : IndexMark, mark.isOfColumn = false ∧ i.name = i.table ++ mark.text := by
  obtain h | ⟨s, hs, rfl⟩ := h
  · obtain ⟨t, ht, h⟩ := List.mem_flatMap.mp h
    have htable : i.table = t.name := Indexing.indexes_of_mem_forTable h
    obtain ⟨mark, hmark, column, hcolumn, hname⟩ | ⟨mark, hmark, hname⟩ :=
      Indexing.exists_mark_of_mem h
    · exact .inl ⟨_, _, mark, .table ht hcolumn hmark htable hname⟩
    · exact .inr ⟨mark, hmark, by rw [htable, hname]⟩
  · exact .inl ⟨_, _, _, .subtable hs rfl rfl⟩

/-! ### Clashes -/

/-- The indexes are made for columns by the same mark, and the names of the owner and the column of
one are those of the other, or are these when they are joined and split at another underscore. -/
def Clash (plan : Plan) (i j : CreateIndex) : Prop :=
  ∃ owner column owner' column' mark,
    plan.IsColumnIndex i owner column mark ∧ plan.IsColumnIndex j owner' column' mark ∧
      (owner = owner' ∧ column = column' ∨
        Text.Splits owner column owner' column' ∨ Text.Splits owner' column' owner column)

/-- Indexes of different tables have the same name exactly if they clash. -/
theorem index_name_eq_iff (hi : c.PlansIndex plan i) (hj : c.PlansIndex plan j)
    (hne : i.table ≠ j.table) : i.name = j.name ↔ plan.Clash i j := by
  constructor
  · intro e
    obtain ⟨owner, column, mark, hi⟩ | ⟨mark, hmark, hi⟩ := cases_of_plansIndex hi
    · obtain ⟨owner', column', mark', hj⟩ | ⟨mark', hmark', hj⟩ := cases_of_plansIndex hj
      · rw [hi.name_eq, hj.name_eq, IndexMark.append_text_eq_iff] at e
        obtain ⟨e, rfl⟩ := e
        exact ⟨owner, column, owner', column', mark, hi, hj, Text.joined_eq_iff.mp e⟩
      · rw [hi.name_eq, hj, IndexMark.append_text_eq_iff] at e
        rw [← e.2, hi.isOfColumn] at hmark'
        cases hmark'
    · obtain ⟨owner', column', mark', hj⟩ | ⟨mark', hmark', hj⟩ := cases_of_plansIndex hj
      · rw [hi, hj.name_eq, IndexMark.append_text_eq_iff] at e
        rw [e.2, hj.isOfColumn] at hmark
        cases hmark
      · rw [hi, hj, IndexMark.append_text_eq_iff] at e
        exact absurd e.1 hne
  · rintro ⟨owner, column, owner', column', mark, hi, hj, hsplit⟩
    rw [hi.name_eq, hj.name_eq, Text.joined_eq_iff.mpr hsplit]

/-- Where the name of no table begins that of another one, and no table has the column of one of its
subtables, indexes of different tables do not clash. -/
theorem not_clash (hplan : c.plan = .ok plan) (hne : i.table ≠ j.table)
    (htables : ∀ t ∈ plan.tables, ∀ t' ∈ plan.tables, ∀ rest, t'.name ≠ t.name ++ "_" ++ rest)
    (hrouted : ∀ s ∈ plan.subtables, ∀ t ∈ plan.tables, t.name = s.parent →
      ∀ column ∈ t.columns, column.name ≠ s.valueColumn) : ¬ plan.Clash i j := by
  rintro ⟨owner, column, owner', column', mark, hi, hj, ⟨howner, hcolumn⟩ | hsplit⟩
  · cases hi with
    | table ht hmem _ htable =>
      cases hj with
      | table _ _ _ htable' => exact hne (htable.trans (howner.trans htable'.symm))
      | subtable hs => exact hrouted _ hs _ ht howner _ hmem hcolumn
    | subtable hs htable =>
      cases hj with
      | table ht hmem => exact hrouted _ hs _ ht howner.symm _ hmem hcolumn.symm
      | subtable _ htable' =>
        exact hne (by rw [htable, htable', Subtable.name, Subtable.name, howner, hcolumn])
  · obtain ⟨t, ht, rfl⟩ := hi.exists_owner hplan
    obtain ⟨t', ht', rfl⟩ := hj.exists_owner hplan
    obtain ⟨rest, e, -⟩ | ⟨rest, e, -⟩ := hsplit
    · exact htables t ht t' ht' rest e
    · exact htables t' ht' t ht rest e

end Plan

/-- **When indexes of different tables are created under the same name**: exactly if they clash, or if
their names are different, at least one of them is too long, and the fitted ones coincide.  They do
not clash where the name of no table, with an underscore after it, begins that of another one, and no
table has the column of one of its subtables. -/
theorem Compiler.fitted_index_names_eq_iff {c : Compiler} {plan : Plan} {i j : CreateIndex}
    (hplan : c.plan = .ok plan) (hi : c.PlansIndex plan i) (hj : c.PlansIndex plan j)
    (hne : i.table ≠ j.table) :
    (c.config.backend.fit i.name = c.config.backend.fit j.name ↔
      plan.Clash i j ∨ c.config.backend.Coincide i.name j.name) ∧
    ((∀ t ∈ plan.tables, ∀ t' ∈ plan.tables, ∀ rest, t'.name ≠ t.name ++ "_" ++ rest) →
      (∀ s ∈ plan.subtables, ∀ t ∈ plan.tables, t.name = s.parent →
        ∀ column ∈ t.columns, column.name ≠ s.valueColumn) → ¬ plan.Clash i j) := by
  rw [Backend.fit_eq_fit_iff, Plan.index_name_eq_iff hi hj hne]
  exact ⟨Iff.rfl, Plan.not_clash hplan hne⟩

/-- The compiler of `Plan.sharedMail`, with an index of the entry names of each table. -/
def Compiler.indexedEntries : Compiler where
  directory := .ofDefinitions Plan.sharedMail.attributes Plan.sharedMail.classes
  policy := { mysql := { common := { fields := ["dn"] } } }

/-- The index of the entry names of one table, and the one on the values of a subtable of the
other. -/
theorem Compiler.fitted_index_names_eq_iff_indexedEntries :
    indexedEntries.plan = .ok Plan.sharedMailPlan ∧
      indexedEntries.PlansIndex Plan.sharedMailPlan
        (.plain "person_dnIdx" "person" { name := "dn" }) ∧
      indexedEntries.PlansIndex Plan.sharedMailPlan
        (.plain "office_mailIdx" "office_mail" { name := "mail", prefixLength := some 255 }) ∧
      indexedEntries.config.backend.fit "person_dnIdx" ≠
        indexedEntries.config.backend.fit "office_mailIdx" := by
  have hplan : indexedEntries.plan = .ok Plan.sharedMailPlan := rfl
  have hi : indexedEntries.PlansIndex Plan.sharedMailPlan
      (.plain "person_dnIdx" "person" { name := "dn" }) := .inl (by decide)
  have hj : indexedEntries.PlansIndex Plan.sharedMailPlan
      (.plain "office_mailIdx" "office_mail" { name := "mail", prefixLength := some 255 }) :=
    .inr (by decide)
  have hlength : ∀ t ∈ Plan.sharedMailPlan.tables, ∀ t' ∈ Plan.sharedMailPlan.tables,
      t'.name.length ≤ t.name.length := by decide
  obtain ⟨hiff, hfree⟩ := fitted_index_names_eq_iff hplan hi hj (by decide)
  refine ⟨hplan, hi, hj, fun e => ?_⟩
  obtain hclash | hcoincide := hiff.mp e
  · exact hfree (fun t ht t' ht' => ne_append_of_length_le (hlength t ht t' ht')) (by decide) hclash
  · exact absurd hcoincide.long (by decide)

/-- A document with a class whose name begins that of another one. -/
def Plan.hostedMail : SchemaDocument where
  classes := [{ names := ["site"], may := ["host_mail"] },
    { names := ["site_host"], may := ["mail"] }]

/-- The compiler of `Plan.hostedMail`, with an index of the only attribute of each table. -/
def Compiler.hostedMail : Compiler where
  config := { dialect := .pgsql }
  directory := .ofDefinitions [] Plan.hostedMail.classes
  policy := { pgsql := { common := { fields := ["mail", "host_mail"] } } }

/-- The plan for `Plan.hostedMail`. -/
def Plan.hostedMailPlan : Plan where
  tables := [{ name := "site", columns := bookkeeping ++ [⟨"host_mail", .text⟩] },
    { name := "site_host", columns := bookkeeping ++ [⟨"mail", .text⟩] }]

/-- Indexes of different tables can be created under the same name. -/
theorem Compiler.not_index_names_apart :
    ¬ ∀ docs (c : Compiler) plan i j, Directory.ofDocuments docs = .ok c.directory →
      c.plan = .ok plan → c.PlansIndex plan i → c.PlansIndex plan j → i.table ≠ j.table →
        c.config.backend.fit i.name ≠ c.config.backend.fit j.name := by
  intro h
  have hi : hostedMail.PlansIndex Plan.hostedMailPlan
      (.plain "site_host_mailIdx" "site" { name := "host_mail" }) := .inl (by decide)
  have hj : hostedMail.PlansIndex Plan.hostedMailPlan
      (.plain "site_host_mailIdx" "site_host" { name := "mail" }) := .inl (by decide)
  exact h [Plan.hostedMail] hostedMail _ _ _ rfl rfl hi hj (by decide) rfl

end DirectoryTables
