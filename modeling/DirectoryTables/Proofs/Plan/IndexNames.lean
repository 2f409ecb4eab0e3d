import DirectoryTables.Proofs.Catalog.Changes
import DirectoryTables.Proofs.Plan.Columns
import DirectoryTables.Proofs.Plan.Indexes
import Mathlib.Data.List.DropRight
import Mathlib.Data.List.Pairwise

/-!
# Plans — Names of indexes

The names that the statements of an index plan give to indexes.  Each ends in a mark that says what
the index is (`IndexMark`).  Whatever a name begins with, and in any letter case, its mark can be
read off its end (`IndexMark.lower_append_text_eq_iff`): no mark is the end of a longer name with
another mark, even though `Idx` is a part of other marks and marks with numbers have numbers of any
length.

So the indexes of a table have different names, letter case aside, if its columns do, and its name
tells an index of a table from all others (`Indexing.indexes_known_by_name`).  Indexes of different
tables need not have different names.
-/

namespace DirectoryTables

/-! ### Letter case -/

theorem Text.lower_append (a b : String) : lower (a ++ b) = lower a ++ lower b := by
  simp [lower]

/-- Characters without capitals stay as they are. -/
theorem Text.lower_eq_self {s : String} (h : ∀ c ∈ s.toList, c.toLower = c) : lower s = s := by
  rw [lower, List.map_congr_left h, List.map_id', String.ofList_toList]

theorem Text.toLower_of_isDigit {c : Char} (h : c.isDigit = true) : c.toLower = c := by
  simp only [Char.isDigit, Bool.and_eq_true, decide_eq_true_eq] at h
  exact dif_neg fun hupper => absurd (UInt32.le_trans hupper.1 h.2) (by decide)

/-! ### Marks -/

theorem Text.toDigits_injective {m n : Nat} (h : Nat.toDigits 10 m = Nat.toDigits 10 n) :
    m = n := by
  have hvalue := congrArg (Nat.ofDigitChars 10 · 0) h
  simpa only [Nat.ofDigitChars_ten_toDigits] using hvalue

/-- What an index is, as the end of its name says. -/
inductive IndexMark where
  /-- An index of a column. -/
  | column
  /-- An index of a JSON column by the template with a number. -/
  | template (number : Nat)
  /-- An index of the shadow column with a number. -/
  | shadow (number : Nat)
  /-- An index over the expression of the policy with a number. -/
  | expression (number : Nat)
  /-- The unique index of a table. -/
  | unique
  deriving DecidableEq

namespace IndexMark

/-- The index is one of a column of its table. -/
def isOfColumn : IndexMark → Bool
  | column | template _ | shadow _ => true
  | expression _ | unique => false

/-- The word that a mark begins with. -/
def word : IndexMark → String
  | column => "Idx"
  | template _ => "_json_"
  | shadow _ => "_mem_idx_"
  | expression _ => "_CustomIdx"
  | unique => "_unique_uuid"

/-- The digits that a mark ends in. -/
def digits : IndexMark → List Char
  | column | unique => []
  | template number | shadow number | expression number => Nat.toDigits 10 number

/-- The mark as it is written. -/
def text (m : IndexMark) : String :=
  m.word ++ String.ofList m.digits

theorem isDigit_of_mem_digits {m : IndexMark} {c : Char} (h : c ∈ m.digits) :
    c.isDigit = true := by
  cases m with
  | column | unique => cases h
  | template number | shadow number | expression number =>
    exact Nat.isDigit_of_mem_toDigits (by decide) (by decide) h

theorem lower_text (m : IndexMark) :
    Text.lower m.text = Text.lower m.word ++ String.ofList m.digits := by
  rw [text, Text.lower_append]
  refine congrArg _ (Text.lower_eq_self fun c hc => ?_)
  rw [String.toList_ofList] at hc
  exact Text.toLower_of_isDigit (isDigit_of_mem_digits hc)

theorem toList_lower_append_text (m : IndexMark) (x : String) :
    (Text.lower (x ++ m.text)).toList =
      (Text.lower x).toList ++ (Text.lower m.word).toList ++ m.digits := by
  rw [Text.lower_append, lower_text, String.toList_append, String.toList_append,
    String.toList_ofList, List.append_assoc]

/-- What is left of a name without the digits at its end. -/
theorem rdropWhile_isDigit (m : IndexMark) (x : String) :
    (Text.lower (x ++ m.text)).toList.rdropWhile Char.isDigit =
      (Text.lower x).toList ++ (Text.lower m.word).toList := by
  have hlast : ((Text.lower x).toList ++ (Text.lower m.word).toList).rdropWhile Char.isDigit =
      (Text.lower x).toList ++ (Text.lower m.word).toList := by
    refine List.rdropWhile_eq_self_iff.mpr fun hne => ?_
    have hword : (Text.lower m.word).toList ≠ [] := by cases m <;> simp [word, Text.lower]
    rw [List.getLast_append_of_ne_nil _ hword]
    cases m <;> simp [word, Text.lower]
  rw [toList_lower_append_text, List.rdropWhile, List.reverse_append,
    List.dropWhile_append_of_pos fun c hc => isDigit_of_mem_digits (List.mem_reverse.mp hc)]
  exact hlast

/-- A mark is known by its digits and the last two characters before them. -/
theorem eq_of_digits {m m' : IndexMark} (hdigits : m.digits = m'.digits)
    (hword : (Text.lower m.word).toList.reverse.take 2 =
      (Text.lower m'.word).toList.reverse.take 2) : m = m' := by
  cases m <;> cases m' <;>
    first
    | rfl
    | exact congrArg _ (Text.toDigits_injective hdigits)
    | exact absurd hdigits Nat.toDigits_ne_nil
    | exact absurd hdigits.symm Nat.toDigits_ne_nil
    | exact absurd hword (by simp [word, Text.lower])

/-- **The mark of a name can be read off its end**, whatever the name begins with, in any letter
case. -/
theorem lower_append_text_eq_iff {m m' : IndexMark} {x y : String} :
    Text.lower (x ++ m.text) = Text.lower (y ++ m'.text) ↔
      Text.lower x = Text.lower y ∧ m = m' := by
  refine ⟨fun h => ?_, fun ⟨hx, hm⟩ => by rw [Text.lower_append, Text.lower_append, hx, hm]⟩
  have hwords : (Text.lower x).toList ++ (Text.lower m.word).toList =
      (Text.lower y).toList ++ (Text.lower m'.word).toList := by
    rw [← rdropWhile_isDigit, ← rdropWhile_isDigit, h]
  have hdigits : m.digits = m'.digits := by
    have hchars := congrArg String.toList h
    rw [toList_lower_append_text, toList_lower_append_text, hwords] at hchars
    exact List.append_cancel_left hchars
  have hends : (Text.lower m.word).toList.reverse.take 2 =
      (Text.lower m'.word).toList.reverse.take 2 := by
    have hlength : ∀ m : IndexMark, 2 ≤ (Text.lower m.word).toList.reverse.length := fun m => by
      cases m <;> simp [word, Text.lower]
    have hreversed := congrArg (fun cs => cs.reverse.take 2) hwords
    simpa only [List.reverse_append, List.take_append_of_le_length (hlength _)] using hreversed
  obtain rfl := eq_of_digits hdigits hends
  exact ⟨String.toList_injective (List.append_cancel_right hwords), rfl⟩

/-- Equal names begin alike and have the same mark. -/
theorem append_text_eq_iff {m m' : IndexMark} {x y : String} :
    x ++ m.text = y ++ m'.text ↔ x = y ∧ m = m' := by
  refine ⟨fun h => ?_, fun ⟨hx, hm⟩ => by rw [hx, hm]⟩
  obtain rfl := (lower_append_text_eq_iff.mp (congrArg Text.lower h)).2
  rw [← String.toList_inj, String.toList_append, String.toList_append] at h
  exact ⟨String.toList_injective (List.append_cancel_right h), rfl⟩

end IndexMark

namespace Indexing

open Statement

variable {d : Directory} {c : Config} {policy : Policy} {p : DialectPolicy} {t : Table}
  {table : String} {i : CreateIndex}

/-! ### The names that statements give -/

/-- What is made of positions alone is made of the numbers below the length. -/
theorem map_zipIdx_snd {α β : Type} (f : Nat → β) (l : List α) :
    (l.zipIdx.map fun entry => f entry.2) = (List.range l.length).map f := by
  rw [List.range_eq_range', ← List.zipIdx_map_snd, List.map_map]
  rfl

theorem names_functionalIndexes (b : Backend) (p : DialectPolicy) (table column : String) :
    (functionalIndexes b p table column).filterMap createdIndex? =
      (List.range p.common.json.length).map fun n =>
        table ++ "_" ++ column ++ (IndexMark.template (n + 1)).text := by
  have hnames : (functionalIndexes b p table column).filterMap createdIndex? =
      p.common.json.zipIdx.map fun entry =>
        table ++ "_" ++ column ++ (IndexMark.template (entry.2 + 1)).text := by
    rw [functionalIndexes, List.filterMap_map, ← List.filterMap_eq_map]
    refine List.filterMap_congr fun entry _ => congrArg some ?_
    exact String.append_assoc
  rw [hnames, map_zipIdx_snd fun n => table ++ "_" ++ column ++ (IndexMark.template (n + 1)).text]

theorem names_shadowIndexes (b : Backend) (c : Config) (table column : String) :
    (shadowIndexes b c table column).filterMap createdIndex? =
      (List.range c.shadowPositions.toNat).map fun n =>
        table ++ "_" ++ column ++ (IndexMark.shadow n).text := by
  rw [shadowIndexes, List.filterMap_flatMap, List.map_eq_flatMap]
  refine List.flatMap_congr fun n _ => congrArg (fun name => [name]) ?_
  simp only [CreateIndex.plain, shadowName, IndexMark.text, String.append_assoc]
  rfl

/-- The indexes of a column have different marks. -/
theorem exists_marks_columnIndexes (d : Directory) (c : Config) (p : DialectPolicy)
    (table : String) (column : Column) :
    ∃ marks : List IndexMark, marks.Nodup ∧ (∀ mark ∈ marks, mark.isOfColumn = true) ∧
      (columnIndexes d c p table column).filterMap createdIndex? =
        marks.map fun mark => table ++ "_" ++ column.name ++ mark.text := by
  rw [columnIndexes]
  split
  · exact ⟨[], List.nodup_nil, List.forall_mem_nil _, rfl⟩
  · split
    · rw [jsonIndexes]
      split
      · refine ⟨(List.range p.common.json.length).map fun n => .template (n + 1), ?_, ?_, ?_⟩
        · exact List.nodup_range.map fun _ _ e => Nat.succ.inj (IndexMark.template.inj e)
        · exact List.forall_mem_map.mpr fun _ _ => rfl
        · rw [names_functionalIndexes, List.map_map]
          rfl
      · refine ⟨(List.range c.shadowPositions.toNat).map .shadow, ?_, ?_, ?_⟩
        · exact List.nodup_range.map fun _ _ => IndexMark.shadow.inj
        · exact List.forall_mem_map.mpr fun _ _ => rfl
        · rw [names_shadowIndexes, List.map_map]
          rfl
      · exact ⟨[], List.nodup_nil, List.forall_mem_nil _, rfl⟩
    · exact ⟨[.column], List.nodup_singleton _, List.forall_mem_singleton.mpr rfl, rfl⟩

/-- The other indexes of a table have different marks as well. -/
theorem exists_marks_tableIndexes (c : Config) (p : DialectPolicy) (t : Table) :
    ∃ marks : List IndexMark, marks.Nodup ∧ (∀ mark ∈ marks, mark.isOfColumn = false) ∧
      (customIndexes p t.name ++ uniqueIndexes c t).filterMap createdIndex? =
        marks.map fun mark => t.name ++ mark.text := by
  have hcustom : (customIndexes p t.name).filterMap createdIndex? =
      (List.range (p.custom t.name).length).map fun n =>
        t.name ++ (IndexMark.expression (n + 1)).text := by
    rw [← map_zipIdx_snd fun n => t.name ++ (IndexMark.expression (n + 1)).text, customIndexes,
      List.filterMap_map, ← List.filterMap_eq_map]
    exact List.filterMap_congr fun entry _ => congrArg some String.append_assoc
  have hcustoms : ((List.range (p.custom t.name).length).map fun n =>
      IndexMark.expression (n + 1)).Nodup :=
    List.nodup_range.map fun _ _ e => Nat.succ.inj (IndexMark.expression.inj e)
  have hunique : (uniqueIndexes c t).filterMap createdIndex? = [] ∨
      (uniqueIndexes c t).filterMap createdIndex? = [t.name ++ IndexMark.unique.text] := by
    rw [uniqueIndexes]
    split
    · cases t.column? uid with
      | none => exact .inl rfl
      | some column => exact .inr rfl
    · exact .inl rfl
  rw [List.filterMap_append, hcustom]
  obtain hunique | hunique := hunique <;> rw [hunique]
  · refine ⟨_, hcustoms, List.forall_mem_map.mpr fun _ _ => rfl, ?_⟩
    rw [List.append_nil, List.map_map]
    rfl
  · refine ⟨_ ++ [.unique], List.nodup_append.mpr ⟨hcustoms, List.nodup_singleton _, ?_⟩, ?_, ?_⟩
    · intro mark hmark other hother
      obtain ⟨n, -, rfl⟩ := List.mem_map.mp hmark
      obtain rfl := List.mem_singleton.mp hother
      exact IndexMark.noConfusion
    · exact List.forall_mem_append.mpr
        ⟨List.forall_mem_map.mpr fun _ _ => rfl, List.forall_mem_singleton.mpr rfl⟩
    · rw [List.map_append, List.map_map]
      rfl

/-- The names that the index plan of a table gives to indexes. -/
def indexNames (d : Directory) (c : Config) (policy : Policy) (t : Table) : List String :=
  (forTable d c policy t).filterMap createdIndex?

theorem indexNames_eq (d : Directory) (c : Config) (policy : Policy) (t : Table) :
    indexNames d c policy t =
      (t.columns.flatMap fun column =>
        (columnIndexes d c (policy.forDialect c.dialect) t.name column).filterMap createdIndex?) ++
      (customIndexes (policy.forDialect c.dialect) t.name ++
        uniqueIndexes c t).filterMap createdIndex? := by
  rw [indexNames, forTable, List.append_assoc, List.filterMap_append, List.filterMap_flatMap]

/-! ### The names in a table -/

theorem exists_mark_of_mem_columnIndexes {column : Column}
    (h : .createIndex i ∈ columnIndexes d c p table column) :
    ∃ mark : IndexMark, mark.isOfColumn = true ∧
      i.name = table ++ "_" ++ column.name ++ mark.text := by
  obtain ⟨marks, -, hmarks, hnames⟩ := exists_marks_columnIndexes d c p table column
  have hname : i.name ∈ (columnIndexes d c p table column).filterMap createdIndex? :=
    List.mem_filterMap.mpr ⟨_, h, rfl⟩
  rw [hnames] at hname
  obtain ⟨mark, hmark, hname⟩ := List.mem_map.mp hname
  exact ⟨mark, hmarks mark hmark, hname.symm⟩

/-- The name of an index in the plan of a table is made of the table's name and a mark, or of these
and a column's name. -/
theorem exists_mark_of_mem (h : .createIndex i ∈ forTable d c policy t) :
    (∃ mark : IndexMark, mark.isOfColumn = true ∧
      ∃ column ∈ t.columns, i.name = t.name ++ "_" ++ column.name ++ mark.text) ∨
    ∃ mark : IndexMark, mark.isOfColumn = false ∧ i.name = t.name ++ mark.text := by
  rw [forTable, List.append_assoc] at h
  obtain h | h := List.mem_append.mp h
  · obtain ⟨column, hcolumn, h⟩ := List.mem_flatMap.mp h
    obtain ⟨mark, hmark, hname⟩ := exists_mark_of_mem_columnIndexes h
    exact .inl ⟨mark, hmark, column, hcolumn, hname⟩
  · obtain ⟨marks, -, hmarks, hnames⟩ :=
      exists_marks_tableIndexes c (policy.forDialect c.dialect) t
    have hname : i.name ∈ (customIndexes (policy.forDialect c.dialect) t.name ++
        uniqueIndexes c t).filterMap createdIndex? := List.mem_filterMap.mpr ⟨_, h, rfl⟩
    rw [hnames] at hname
    obtain ⟨mark, hmark, hname⟩ := List.mem_map.mp hname
    exact .inr ⟨mark, hmarks mark hmark, hname.symm⟩

/-- Names of indexes of columns of one table tell the columns, letter case aside. -/
theorem lower_column_eq_of_name {table column column' : String} {mark mark' : IndexMark}
    (h : Text.lower (table ++ "_" ++ column ++ mark.text) =
      Text.lower (table ++ "_" ++ column' ++ mark'.text)) :
    Text.lower column = Text.lower column' := by
  have hstems := (IndexMark.lower_append_text_eq_iff.mp h).1
  rw [Text.lower_append, Text.lower_append _ column', ← String.toList_inj, String.toList_append,
    String.toList_append] at hstems
  exact String.toList_injective (List.append_cancel_left hstems)

/-- The indexes of columns with different names have different names. -/
theorem disjoint_columnIndexes {column column' : Column}
    (h : Text.lower column.name ≠ Text.lower column'.name) :
    (((columnIndexes d c p table column).filterMap createdIndex?).map Text.lower).Disjoint
      (((columnIndexes d c p table column').filterMap createdIndex?).map Text.lower) := by
  obtain ⟨marks, -, -, hnames⟩ := exists_marks_columnIndexes d c p table column
  obtain ⟨marks', -, -, hnames'⟩ := exists_marks_columnIndexes d c p table column'
  rw [hnames, hnames', List.map_map, List.map_map]
  intro name hname hname'
  obtain ⟨mark, -, rfl⟩ := List.mem_map.mp hname
  obtain ⟨mark', -, e⟩ := List.mem_map.mp hname'
  exact h (lower_column_eq_of_name e).symm

/-- An index of a column and another index of the table have different names. -/
theorem disjoint_tableIndexes (column : Column) :
    (((columnIndexes d c p t.name column).filterMap createdIndex?).map Text.lower).Disjoint
      (((customIndexes p t.name ++ uniqueIndexes c t).filterMap createdIndex?).map
        Text.lower) := by
  obtain ⟨marks, -, hmarks, hnames⟩ := exists_marks_columnIndexes d c p t.name column
  obtain ⟨marks', -, hmarks', hnames'⟩ := exists_marks_tableIndexes c p t
  rw [hnames, hnames', List.map_map, List.map_map]
  intro name hname hname'
  obtain ⟨mark, hmark, rfl⟩ := List.mem_map.mp hname
  obtain ⟨mark', hmark', e⟩ := List.mem_map.mp hname'
  obtain rfl := (IndexMark.lower_append_text_eq_iff.mp e).2
  exact Bool.noConfusion ((hmarks mark' hmark).symm.trans (hmarks' mark' hmark'))

/-- The indexes of a table have different names, letter case aside, if its columns do. -/
theorem nodup_indexNames (d : Directory) (c : Config) (policy : Policy)
    (h : t.HasDistinctColumns) : ((indexNames d c policy t).map Text.lower).Nodup := by
  -- the mark at the end of a name leaves what it begins with
  have hmarked : ∀ x : String, Function.Injective fun mark : IndexMark =>
      Text.lower (x ++ mark.text) :=
    fun x _ _ e => (IndexMark.lower_append_text_eq_iff.mp e).2
  rw [indexNames_eq, List.map_append, List.map_flatMap, List.nodup_append', List.nodup_flatMap]
  refine ⟨⟨fun column _ => ?_, ?_⟩, ?_, ?_⟩
  · obtain ⟨marks, hnodup, -, hnames⟩ :=
      exists_marks_columnIndexes d c (policy.forDialect c.dialect) t.name column
    rw [hnames, List.map_map]
    exact hnodup.map (hmarked _)
  · exact (List.pairwise_map.mp h).imp disjoint_columnIndexes
  · obtain ⟨marks, hnodup, -, hnames⟩ :=
      exists_marks_tableIndexes c (policy.forDialect c.dialect) t
    rw [hnames, List.map_map]
    exact hnodup.map (hmarked _)
  · intro name hname hname'
    obtain ⟨column, -, hname⟩ := List.mem_flatMap.mp hname
    exact disjoint_tableIndexes column hname hname'

/-- Where different results were made of the members of a list, a result tells its member. -/
theorem eq_of_nodup_filterMap {α β : Type} {f : α → Option β} {l : List α} {a a' : α} {b : β}
    (h : (l.filterMap f).Nodup) (ha : a ∈ l) (ha' : a' ∈ l) (hb : f a = some b)
    (hb' : f a' = some b) : a = a' := by
  have hsymm : Std.Symm fun a a' : α =>
      ∀ b, f a = some b → ∀ b', f a' = some b' → b ≠ b' :=
    ⟨fun _ _ hne b' hb' b hb => (hne b hb b' hb').symm⟩
  by_contra hne
  exact (List.pairwise_filterMap.mp h).forall ha ha' hne b hb b hb' rfl

/-- **Indexes are known by their names.**  If the columns of a table have different names, letter
case aside, so have the indexes that its plan makes, and an index of the plan with the name of
another one is that index.  Nothing is asked of the names of the columns beyond that, nor of how
many templates, positions and expressions there are. -/
theorem indexes_known_by_name (d : Directory) (c : Config) (policy : Policy)
    (h : t.HasDistinctColumns) :
    ((indexNames d c policy t).map Text.lower).Nodup ∧
      ∀ i j, .createIndex i ∈ forTable d c policy t → .createIndex j ∈ forTable d c policy t →
        Text.lower i.name = Text.lower j.name → i = j := by
  have hnodup := nodup_indexNames d c policy h
  refine ⟨hnodup, fun i j hi hj e => ?_⟩
  rw [indexNames, List.map_filterMap] at hnodup
  have hi' : (createdIndex? (.createIndex i)).map Text.lower = some (Text.lower j.name) :=
    congrArg some e
  exact Statement.createIndex.inj (eq_of_nodup_filterMap hnodup hi hj hi' rfl)

/-- A table with columns that are named like the shadow columns of one another. -/
def nestedNames : Table where
  name := "person"
  columns := bookkeeping ++
    [⟨"mail", .json⟩, ⟨"mail_mem_idx_1", .json⟩, ⟨"mail_mem_idx_1_mem_idx_1", .text⟩]

/-- The indexes of columns and of the shadow columns that these are named like. -/
theorem indexes_known_by_name_nestedNames :
    nestedNames.HasDistinctColumns ∧
      ((indexNames .empty { version := some { major := 5, minor := 7, patch := 44 } }
        { mysql := { common := { fields := nestedNames.columns.map Column.name } } }
        nestedNames).map Text.lower).Nodup := by
  have hcolumns : nestedNames.HasDistinctColumns := by
    unfold Table.HasDistinctColumns
    decide
  exact ⟨hcolumns, (indexes_known_by_name _ _ _ hcolumns).1⟩

end Indexing

end DirectoryTables
