import DirectoryTables.Directory
import DirectoryTables.Proofs.Results

/-!
# Directories — Documents

The directory that documents describe.  It exists if every definition has a name, and then it is
made from all definitions of all documents, one after another (`ofDefinitions`,
`ofDocuments_eq_ok_iff`).  Where one document ends and the next begins makes no difference
(`ofDocuments_joined`).
-/

namespace DirectoryTables.Directory

variable {d d' : Directory} {docs : List SchemaDocument}

/-- Every definition of a document has a name. -/
structure AllNamed (doc : SchemaDocument) : Prop where
  attributes : ∀ a ∈ doc.attributes, a.names ≠ []
  classes : ∀ cls ∈ doc.classes, cls.names ≠ []

/-- The first of some names, which is the canonical one, is one of them. -/
theorem headD_mem_of_ne_nil {names : List String} (h : names ≠ []) : names.headD "" ∈ names := by
  cases names with
  | nil => exact absurd rfl h
  | cons n ns => exact List.mem_cons_self

/-- The directory of definitions, made one after another. -/
def ofDefinitions (attributes : List Attribute) (classes : List ObjectClass) : Directory where
  attributes := attributes.foldl defineAttribute .empty
  classes := classes.foldl defineClass .empty

theorem named_eq_ok_iff {α : Type} {kind : Definition} {namesOf : α → List String}
    {definitions definitions' : List α} :
    named kind namesOf definitions = .ok definitions' ↔
      (∀ a ∈ definitions, namesOf a ≠ []) ∧ definitions' = definitions := by
  have hfrom : ∀ n, (definitions.zipIdx n).mapM (fun entry =>
      if namesOf entry.1 = [] then .error (ConfigError.unnamed kind entry.2) else .ok entry.1) =
        Except.ok definitions' ↔
      (∀ a ∈ definitions, namesOf a ≠ []) ∧ definitions' = definitions := by
    induction definitions generalizing definitions' with
    | nil => intro n; rw [mapM_eq_ok_iff]; simp
    | cons a definitions ih =>
      intro n
      simp only [mapM_eq_ok_iff] at ih ⊢
      rw [List.zipIdx_cons, List.forall₂_cons_left_iff]
      by_cases ha : namesOf a = []
      · simp [ha]
      · simp only [ih, if_neg ha, Except.ok.injEq, List.forall_mem_cons]
        constructor
        · rintro ⟨_, _, rfl, ⟨hnamed, rfl⟩, rfl⟩
          exact ⟨⟨ha, hnamed⟩, rfl⟩
        · rintro ⟨⟨-, hnamed⟩, rfl⟩
          exact ⟨a, definitions, rfl, ⟨hnamed, rfl⟩, rfl⟩
  exact hfrom 0

theorem merge_eq_ok_iff {doc : SchemaDocument} :
    d.merge doc = .ok d' ↔ AllNamed doc ∧
      d' = { attributes := doc.attributes.foldl defineAttribute d.attributes
             classes := doc.classes.foldl defineClass d.classes } := by
  constructor
  · intro h
    simp only [merge, bind, Except.bind] at h
    cases ha : named .attributeType Attribute.names doc.attributes with
    | error e => rw [ha] at h; cases h
    | ok attributes =>
      rw [ha] at h
      cases hc : named .objectClass ObjectClass.names doc.classes with
      | error e => simp only [hc] at h; cases h
      | ok classes =>
        simp only [hc] at h
        cases h
        obtain ⟨hattributes, rfl⟩ := named_eq_ok_iff.mp ha
        obtain ⟨hclasses, rfl⟩ := named_eq_ok_iff.mp hc
        exact ⟨⟨hattributes, hclasses⟩, rfl⟩
  · rintro ⟨hnamed, rfl⟩
    rw [merge, named_eq_ok_iff.mpr ⟨hnamed.attributes, rfl⟩,
      named_eq_ok_iff.mpr ⟨hnamed.classes, rfl⟩]
    rfl

theorem foldlM_merge_eq_ok_iff :
    docs.foldlM merge d = .ok d' ↔ (∀ doc ∈ docs, AllNamed doc) ∧
      d' = { attributes := (docs.flatMap (·.attributes)).foldl defineAttribute d.attributes
             classes := (docs.flatMap (·.classes)).foldl defineClass d.classes } := by
  induction docs generalizing d with
  | nil => simp [pure, Except.pure, eq_comm]
  | cons doc docs ih =>
    rw [List.foldlM_cons, List.forall_mem_cons, List.flatMap_cons, List.flatMap_cons,
      List.foldl_append, List.foldl_append]
    constructor
    · intro h
      cases hm : d.merge doc with
      | error e => rw [hm] at h; cases h
      | ok middle =>
        rw [hm] at h
        obtain ⟨hdoc, rfl⟩ := merge_eq_ok_iff.mp hm
        obtain ⟨hdocs, rfl⟩ := ih.mp h
        exact ⟨⟨hdoc, hdocs⟩, rfl⟩
    · rintro ⟨⟨hdoc, hdocs⟩, rfl⟩
      rw [merge_eq_ok_iff.mpr ⟨hdoc, rfl⟩]
      exact ih.mpr ⟨hdocs, rfl⟩

/-- **The directory of documents.**  It is made from all their definitions in order, if each of
these has a name. -/
theorem ofDocuments_eq_ok_iff :
    ofDocuments docs = .ok d ↔ (∀ doc ∈ docs, AllNamed doc) ∧
      d = ofDefinitions (docs.flatMap (·.attributes)) (docs.flatMap (·.classes)) :=
  foldlM_merge_eq_ok_iff

/-! ### Splitting documents -/

/-- Some documents as one, with their definitions one after another. -/
def joined (docs : List SchemaDocument) : SchemaDocument where
  attributes := docs.flatMap (·.attributes)
  classes := docs.flatMap (·.classes)

theorem joined_singleton (doc : SchemaDocument) : joined [doc] = doc := by
  simp [joined]

theorem allNamed_joined_iff : AllNamed (joined docs) ↔ ∀ doc ∈ docs, AllNamed doc := by
  constructor
  · intro h doc hdoc
    exact ⟨fun a ha => h.attributes a (List.mem_flatMap.mpr ⟨doc, hdoc, ha⟩),
      fun cls hcls => h.classes cls (List.mem_flatMap.mpr ⟨doc, hdoc, hcls⟩)⟩
  · intro h
    refine ⟨fun a ha => ?_, fun cls hcls => ?_⟩
    · obtain ⟨doc, hdoc, ha⟩ := List.mem_flatMap.mp ha
      exact (h doc hdoc).attributes a ha
    · obtain ⟨doc, hdoc, hcls⟩ := List.mem_flatMap.mp hcls
      exact (h doc hdoc).classes cls hcls

/-- Documents that are the same when they are joined describe the same directory. -/
theorem ofDocuments_eq_ok_congr {docs' : List SchemaDocument} (h : joined docs = joined docs') :
    ofDocuments docs = .ok d ↔ ofDocuments docs' = .ok d := by
  have hjoined : ∀ docs, ofDocuments docs = .ok d ↔ AllNamed (joined docs) ∧
      d = ofDefinitions (joined docs).attributes (joined docs).classes := fun docs => by
    rw [ofDocuments_eq_ok_iff, allNamed_joined_iff, joined]
  rw [hjoined, hjoined, h]

/-- **Splitting documents makes no difference.**  Documents describe a directory exactly if the one
document they are joined to does, and it is the same one: the same definitions in the same order,
and the same answer to every name. -/
theorem ofDocuments_joined (docs : List SchemaDocument) (d : Directory) :
    ofDocuments docs = .ok d ↔ ofDocuments [joined docs] = .ok d :=
  ofDocuments_eq_ok_congr (joined_singleton (joined docs)).symm

end DirectoryTables.Directory
