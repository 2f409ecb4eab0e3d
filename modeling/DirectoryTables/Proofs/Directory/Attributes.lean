import DirectoryTables.Proofs.Directory.Documents
import DirectoryTables.Proofs.Registry.Places
import Mathlib.Data.List.Induction

/-!
# Directories — Attributes

Which definition a lookup of an attribute finds.

A later definition with a known name takes the place of the earlier one, but the names of the
earlier one still lead to that place, and a place whose names were all taken over by another
definition is not given up.  So lookups are not exact for all documents (`not_lookup_exact`).

* `Registry.Exact`: a name leads to a place exactly if the definition there carries it.
* `NamesKept`: the later of two definitions with a name in common has all names of the earlier, and
  no definition shares names with two that share none.
* `exact_throughout_iff`: these are the lists of definitions with which lookups are exact all along.
* `attribute?_isSome_iff`: in any case a name is found exactly if some definition had it.
-/

namespace DirectoryTables

namespace Attribute

variable {a b c : Attribute}

/-- The attributes have a name in common, letter case aside. -/
def SharesName (a b : Attribute) : Prop :=
  ∃ name, a.hasName name = true ∧ b.hasName name = true

/-- The second attribute has all names of the first, letter case aside. -/
def NamesWithin (a b : Attribute) : Prop :=
  ∀ name, a.hasName name = true → b.hasName name = true

theorem SharesName.symm (h : a.SharesName b) : b.SharesName a :=
  let ⟨name, ha, hb⟩ := h
  ⟨name, hb, ha⟩

theorem SharesName.of_within (h : a.SharesName c) (hab : a.NamesWithin b) : b.SharesName c :=
  let ⟨name, ha, hc⟩ := h
  ⟨name, hab name ha, hc⟩

theorem SharesName.self (h : a.SharesName b) : a.SharesName a :=
  let ⟨name, ha, _⟩ := h
  ⟨name, ha, ha⟩

theorem hasName_of_mem {name : String} (h : name ∈ a.names) : a.hasName name = true :=
  Text.listsName_iff.mpr ⟨name, h, rfl⟩

/-- The canonical name is one of the names, if there are any. -/
theorem hasName_name (h : a.names ≠ []) : a.hasName a.name = true :=
  hasName_of_mem (Directory.headD_mem_of_ne_nil h)

/-- A name of the attribute is listed in some spelling. -/
theorem exists_mem_of_hasName {name : String} (h : a.hasName name = true) :
    ∃ n ∈ a.names, ∀ b : Attribute, b.hasName n = b.hasName name := by
  obtain ⟨n, hn, e⟩ := Text.listsName_iff.mp h
  exact ⟨n, hn, fun b => Text.listsName_congr (Text.sameName_iff.mpr e) b.names⟩

theorem sharesName_iff : a.SharesName b ↔ ∃ n ∈ a.names, b.hasName n = true := by
  constructor
  · rintro ⟨name, ha, hb⟩
    obtain ⟨n, hn, e⟩ := exists_mem_of_hasName ha
    exact ⟨n, hn, (e b).trans hb⟩
  · rintro ⟨n, hn, hb⟩
    exact ⟨n, hasName_of_mem hn, hb⟩

theorem namesWithin_iff : a.NamesWithin b ↔ ∀ n ∈ a.names, b.hasName n = true := by
  constructor
  · intro h n hn
    exact h n (hasName_of_mem hn)
  · intro h name ha
    obtain ⟨n, hn, e⟩ := exists_mem_of_hasName ha
    exact (e b).symm.trans (h n hn)

instance : Decidable (a.SharesName b) := decidable_of_iff _ sharesName_iff.symm

instance : Decidable (a.NamesWithin b) := decidable_of_iff _ namesWithin_iff.symm

end Attribute

/-! ### One more definition -/

namespace Registry

variable {r r' : Registry Attribute} {a x y : Attribute} {p i j : Nat}

/-- A name leads to a place exactly if the definition there carries it. -/
def Exact (r : Registry Attribute) : Prop :=
  ∀ name (i : Nat), r.place? name = some i ↔
    ∃ a, r.items[i]? = some a ∧ a.hasName name = true

/-- The definition shares names with no registered one, or with a single one and then has all names
of that one. -/
def Succeeds (r : Registry Attribute) (a : Attribute) : Prop :=
  ∀ (i : Nat) x, r.items[i]? = some x → x.SharesName a →
    x.NamesWithin a ∧ ∀ (j : Nat) y, r.items[j]? = some y → y.SharesName a → j = i

theorem Exact.sound (h : r.Exact) : Sound Attribute.names r := fun name i => (h name i).mp

/-- Definitions in different places have no name in common. -/
theorem Exact.place_unique (h : r.Exact) (hx : r.items[i]? = some x) (hy : r.items[j]? = some y)
    (hxy : x.SharesName y) : i = j := by
  obtain ⟨name, hxn, hyn⟩ := hxy
  have hi := (h name i).mpr ⟨x, hx, hxn⟩
  have hj := (h name j).mpr ⟨y, hy, hyn⟩
  exact Option.some.inj (hi.symm.trans hj)

/-- After one more definition that definition stands in its place. -/
theorem exists_settles_attribute (h : r.InRange) (a : Attribute) :
    ∃ p, Settles Attribute.names (fun _ later => later) r a p a (Directory.defineAttribute r a) := by
  obtain ⟨p, y, hs⟩ := exists_settles Attribute.names (fun _ later => later) h a
  have hy : y = a := by
    rcases hs.origin with ⟨_, _, e, _⟩ | ⟨_, e, _⟩
    · exact e
    · exact e
  exact ⟨p, hy ▸ hs⟩

section Replaced

variable (hs : Settles Attribute.names (fun _ later => later) r a p a r')

include hs

theorem Settles.place_of_hasName {name : String} (h : a.hasName name = true) :
    r'.place? name = some p := by
  rw [hs.place]
  exact if_pos h

theorem Settles.place_of_not_hasName {name : String} (h : a.hasName name = false) :
    r'.place? name = r.place? name := by
  rw [hs.place]
  exact if_neg (by rw [show Text.listsName a.names name = false from h]; exact Bool.false_ne_true)

/-- The definition that is replaced has a name in common with the new one. -/
theorem Settles.sharesName (h : r.Exact) (hx : r.items[p]? = some x) : x.SharesName a := by
  rcases hs.origin with ⟨-, -, -, name, hname, hplace⟩ | ⟨rfl, -⟩
  · obtain ⟨x', hx', hxn⟩ := (h name p).mp hplace
    cases hx'.symm.trans hx
    exact ⟨name, hxn, Attribute.hasName_of_mem hname⟩
  · rw [List.getElem?_eq_none (Nat.le_refl _)] at hx
    cases hx

/-- If some definition has a name in common with the new one, then one is replaced. -/
theorem Settles.exists_replaced (h : r.Exact) (hx : r.items[i]? = some x) (hxa : x.SharesName a) :
    ∃ y, r.items[p]? = some y := by
  rcases hs.origin with ⟨y, hy, -⟩ | ⟨-, -, hnone⟩
  · exact ⟨y, hy⟩
  · obtain ⟨name, hxn, han⟩ := hxa
    obtain ⟨m, hm, hmn⟩ := Text.listsName_iff.mp han
    have hplace : r.place? m = some i := by
      rw [place?, hmn]
      exact (h name i).mpr ⟨x, hx, hxn⟩
    rw [hnone m hm] at hplace
    cases hplace

theorem Settles.succeeds (h : r.Exact) (h' : r'.Exact) : r.Succeeds a := by
  -- Two places with names of the new definition would both claim the name.
  have hplace : ∀ {j y}, r.items[j]? = some y → y.SharesName a → j = p := by
    intro j y hy ⟨name, hyn, han⟩
    by_contra hne
    have hj := (h' name j).mpr ⟨y, (hs.elsewhere j hne).trans hy, hyn⟩
    exact hne (Option.some.inj (hj.symm.trans (hs.place_of_hasName han)))
  intro i x hx hxa
  obtain rfl : i = p := hplace hx hxa
  refine ⟨fun name hxn => ?_, fun j y hy hya => hplace hy hya⟩
  cases han : a.hasName name with
  | true => rfl
  | false =>
    have hold := (h name i).mpr ⟨x, hx, hxn⟩
    rw [← hs.place_of_not_hasName han] at hold
    obtain ⟨a', ha', hn⟩ := (h' name i).mp hold
    cases hs.here.symm.trans ha'
    exact absurd hn (by rw [han]; exact Bool.false_ne_true)

theorem Settles.exact (h : r.Exact) (hsucc : r.Succeeds a) : r'.Exact := by
  intro name i
  cases han : a.hasName name with
  | true =>
    rw [hs.place_of_hasName han]
    constructor
    · rintro ⟨rfl⟩
      exact ⟨a, hs.here, han⟩
    · rintro ⟨b, hb, hbn⟩
      by_contra hne
      have hb' : r.items[i]? = some b :=
        (hs.elsewhere i fun e => hne (congrArg some e.symm)).symm.trans hb
      have hba : b.SharesName a := ⟨name, hbn, han⟩
      obtain ⟨x, hx⟩ := hs.exists_replaced h hb' hba
      have hip := (hsucc p x hx (hs.sharesName h hx)).2 i b hb' hba
      exact hne (congrArg some hip.symm)
  | false =>
    rw [hs.place_of_not_hasName han, h name i]
    by_cases hip : i = p
    · subst hip
      have hnew : ¬ ∃ b, r'.items[i]? = some b ∧ b.hasName name = true := by
        rintro ⟨b, hb, hbn⟩
        cases hs.here.symm.trans hb
        exact absurd hbn (by rw [han]; exact Bool.false_ne_true)
      have hold : ¬ ∃ b, r.items[i]? = some b ∧ b.hasName name = true := by
        rintro ⟨b, hb, hbn⟩
        have := (hsucc i b hb (hs.sharesName h hb)).1 name hbn
        exact absurd this (by rw [han]; exact Bool.false_ne_true)
      exact iff_of_false hold hnew
    · rw [hs.elsewhere i hip]

end Replaced

/-- **Exact lookups stay exact** exactly if the definition succeeds what is registered. -/
theorem exact_defineAttribute_iff (h : r.Exact) :
    (Directory.defineAttribute r a).Exact ↔ r.Succeeds a := by
  obtain ⟨p, hs⟩ := exists_settles_attribute h.sound.inRange a
  exact ⟨hs.succeeds h, hs.exact h⟩

/-! ### Many definitions -/

/-- The registry of a list of attributes. -/
def ofAttributes (definitions : List Attribute) : Registry Attribute :=
  ofList Attribute.names (fun _ later => later) definitions

section OfAttributes

variable {definitions : List Attribute}

theorem ofAttributes_concat (definitions : List Attribute) (a : Attribute) :
    ofAttributes (definitions ++ [a]) = Directory.defineAttribute (ofAttributes definitions) a :=
  ofList_concat definitions a

theorem exists_settles_attribute_concat (definitions : List Attribute) (a : Attribute) :
    ∃ p, Settles Attribute.names (fun _ later => later) (ofAttributes definitions) a p a
      (ofAttributes (definitions ++ [a])) := by
  rw [ofAttributes_concat]
  exact exists_settles_attribute (inRange_ofList definitions) a

/-- What is registered was defined. -/
theorem mem_of_items_ofAttributes (h : (ofAttributes definitions).items[i]? = some x) :
    x ∈ definitions := by
  induction definitions using List.reverseRecOn generalizing i with
  | nil => cases h
  | append_singleton definitions a ih =>
    obtain ⟨p, hs⟩ := exists_settles_attribute_concat definitions a
    by_cases hip : i = p
    · subst hip
      cases hs.here.symm.trans h
      exact List.mem_append_right _ List.mem_cons_self
    · exact List.mem_append_left _ (ih ((hs.elsewhere i hip).symm.trans h))

/-- A name leads somewhere exactly if some definition had it. -/
theorem place?_ofAttributes_isSome_iff {name : String} :
    ((ofAttributes definitions).place? name).isSome = true ↔
      ∃ a ∈ definitions, a.hasName name = true :=
  isSome_place?_ofList_iff (fun _ _ _ h => h) fun _ _ _ h => .inr h

end OfAttributes

end Registry

/-! ### Definitions that keep names -/

/-- The later of two definitions with a name in common has all names of the earlier one, and no
definition shares names with two that share none. -/
structure NamesKept (definitions : List Attribute) : Prop where
  kept : definitions.Pairwise fun a b => a.SharesName b → a.NamesWithin b
  apart : ∀ a ∈ definitions, ∀ b ∈ definitions, ∀ c ∈ definitions,
    a.SharesName b → b.SharesName c → a.SharesName c

section NamesKept

open Registry

variable {definitions : List Attribute} {a x : Attribute}

theorem namesKept_iff :
    NamesKept definitions ↔
      (definitions.Pairwise fun a b => a.SharesName b → a.NamesWithin b) ∧
        ∀ a ∈ definitions, ∀ b ∈ definitions, ∀ c ∈ definitions,
          a.SharesName b → b.SharesName c → a.SharesName c :=
  ⟨fun h => ⟨h.kept, h.apart⟩, fun h => ⟨h.1, h.2⟩⟩

instance : Decidable (NamesKept definitions) := decidable_of_iff _ namesKept_iff.symm

theorem namesKept_concat_iff :
    NamesKept (definitions ++ [a]) ↔ NamesKept definitions ∧
      (∀ x ∈ definitions, x.SharesName a → x.NamesWithin a) ∧
      ∀ x ∈ definitions, ∀ z ∈ definitions, x.SharesName a → z.SharesName a →
        x.SharesName z := by
  have hlast : a ∈ definitions ++ [a] := List.mem_append_right _ List.mem_cons_self
  have hinit : ∀ {x}, x ∈ definitions → x ∈ definitions ++ [a] := List.mem_append_left _
  constructor
  · rintro ⟨hkept, hapart⟩
    obtain ⟨hold, -, hnew⟩ := List.pairwise_append.mp hkept
    refine ⟨⟨hold, fun x hx y hy z hz => hapart x (hinit hx) y (hinit hy) z (hinit hz)⟩,
      fun x hx => hnew x hx a List.mem_cons_self, fun x hx z hz hxa hza => ?_⟩
    exact hapart x (hinit hx) a hlast z (hinit hz) hxa hza.symm
  · rintro ⟨⟨hold, hapart⟩, hnew, hjoin⟩
    refine ⟨List.pairwise_append.mpr ⟨hold, List.pairwise_singleton _ _, fun x hx b hb => ?_⟩, ?_⟩
    · cases List.mem_singleton.mp hb
      exact hnew x hx
    · intro x hx y hy z hz hxy hyz
      rcases List.mem_append.mp hy with hy | hy
      · rcases List.mem_append.mp hx with hx | hx
        · rcases List.mem_append.mp hz with hz | hz
          · exact hapart x hx y hy z hz hxy hyz
          · cases List.mem_singleton.mp hz
            exact (hxy.symm.of_within (hnew y hy hyz)).symm
        · -- The new definition has all names of `y`.
          cases List.mem_singleton.mp hx
          exact hyz.of_within (hnew y hy hxy.symm)
      · cases List.mem_singleton.mp hy
        rcases List.mem_append.mp hx with hx | hx
        · rcases List.mem_append.mp hz with hz | hz
          · exact hjoin x hx z hz hxy hyz.symm
          · cases List.mem_singleton.mp hz
            exact hxy
        · cases List.mem_singleton.mp hx
          exact hyz

/-- While lookups stay exact, the names of every definition stay together in one place. -/
theorem exists_standing (h : ∀ before, before <+: definitions → (ofAttributes before).Exact)
    (hx : x ∈ definitions) :
    ∃ (i : Nat) (y : Attribute), (ofAttributes definitions).items[i]? = some y ∧
      x.NamesWithin y := by
  induction definitions using List.reverseRecOn with
  | nil => cases hx
  | append_singleton definitions a ih =>
    obtain ⟨p, hs⟩ := exists_settles_attribute_concat definitions a
    rcases List.mem_append.mp hx with hx | hx
    · obtain ⟨i, y, hy, hxy⟩ := ih (fun before hb => h before (hb.trans (List.prefix_append _ _))) hx
      by_cases hip : i = p
      · subst hip
        have hexact := h definitions (List.prefix_append _ _)
        have hya := hs.sharesName hexact hy
        have hwithin := (hs.succeeds hexact (h _ (List.prefix_refl _)) i y hy hya).1
        exact ⟨i, a, hs.here, fun name hn => hwithin name (hxy name hn)⟩
      · exact ⟨i, y, (hs.elsewhere i hip).trans hy, hxy⟩
    · cases List.mem_singleton.mp hx
      exact ⟨p, x, hs.here, fun _ hn => hn⟩

theorem succeeds_ofAttributes_iff
    (h : ∀ before, before <+: definitions → (ofAttributes before).Exact)
    (hkept : NamesKept definitions) :
    (ofAttributes definitions).Succeeds a ↔
      (∀ x ∈ definitions, x.SharesName a → x.NamesWithin a) ∧
      ∀ x ∈ definitions, ∀ z ∈ definitions, x.SharesName a → z.SharesName a →
        x.SharesName z := by
  constructor
  · intro hsucc
    constructor
    · intro x hx hxa
      obtain ⟨i, y, hy, hxy⟩ := exists_standing h hx
      have hya := (hsucc i y hy (hxa.of_within hxy)).1
      exact fun name hn => hya name (hxy name hn)
    · intro x hx z hz hxa hza
      obtain ⟨i, y, hy, hxy⟩ := exists_standing h hx
      obtain ⟨j, w, hw, hzw⟩ := exists_standing h hz
      -- Both stand in the one place that shares names with `a`.
      obtain rfl := (hsucc i y hy (hxa.of_within hxy)).2 j w hw (hza.of_within hzw)
      cases hy.symm.trans hw
      have hmem := mem_of_items_ofAttributes hy
      exact hkept.apart x hx y hmem z hz (hxa.self.of_within hxy).symm (hza.self.of_within hzw)
  · rintro ⟨hnew, hjoin⟩ i x hx hxa
    have hmem := mem_of_items_ofAttributes hx
    refine ⟨hnew x hmem hxa, fun j y hy hya => ?_⟩
    exact (h _ (List.prefix_refl _)).place_unique hy hx
      (hjoin y (mem_of_items_ofAttributes hy) x hmem hya hxa)

/-- **When lookups are exact.**  They are exact after each of the definitions if and only if the
definitions keep names. -/
theorem exact_throughout_iff :
    (∀ before, before <+: definitions → (ofAttributes before).Exact) ↔ NamesKept definitions := by
  induction definitions using List.reverseRecOn with
  | nil =>
    constructor
    · intro _
      exact ⟨List.Pairwise.nil, fun a ha => by cases ha⟩
    · intro _ before hb
      rw [List.prefix_nil.mp hb]
      intro name i
      simp [ofAttributes, ofList, place?, empty]
  | append_singleton definitions a ih =>
    have hsplit : (∀ before, before <+: definitions ++ [a] → (ofAttributes before).Exact) ↔
        (∀ before, before <+: definitions → (ofAttributes before).Exact) ∧
          (ofAttributes (definitions ++ [a])).Exact := by
      simp only [List.prefix_concat_iff, forall_eq_or_imp]
      exact and_comm
    rw [hsplit, namesKept_concat_iff, ← ih]
    refine and_congr_right fun h => ?_
    rw [ofAttributes_concat, exact_defineAttribute_iff (h _ (List.prefix_refl _))]
    exact succeeds_ofAttributes_iff h (ih.mp h)

/-- A definition that makes two attributes one does not keep names: the place of the second is not
given up. -/
example : ¬ NamesKept [{ names := ["email"] }, { names := ["mail"] },
    { names := ["email", "mail"] }] := by decide

end NamesKept

/-! ### Lookups -/

namespace Directory

variable {d : Directory} {docs : List SchemaDocument}

theorem attributes_of_ofDocuments (h : ofDocuments docs = .ok d) :
    d.attributes = .ofAttributes (docs.flatMap (·.attributes)) := by
  obtain ⟨-, rfl⟩ := ofDocuments_eq_ok_iff.mp h
  rfl

theorem names_ne_nil (h : ofDocuments docs = .ok d) {a : Attribute}
    (ha : a ∈ d.attributes.items) : a.names ≠ [] := by
  obtain ⟨i, hi⟩ := List.mem_iff_getElem?.mp ha
  rw [attributes_of_ofDocuments h] at hi
  obtain ⟨doc, hdoc, hmem⟩ := List.mem_flatMap.mp (Registry.mem_of_items_ofAttributes hi)
  exact ((ofDocuments_eq_ok_iff.mp h).1 doc hdoc).attributes a hmem

/-- A name is found exactly if some definition of the documents has it, letter case aside. -/
theorem attribute?_isSome_iff (h : ofDocuments docs = .ok d) {name : String} :
    (d.attribute? name).isSome = true ↔
      ∃ a ∈ docs.flatMap (·.attributes), a.hasName name = true := by
  rw [attribute?, attributes_of_ofDocuments h]
  exact (Registry.isSome_find?_iff (Registry.inRange_ofList _)).trans
    Registry.place?_ofAttributes_isSome_iff

theorem exact_of_namesKept (h : ofDocuments docs = .ok d)
    (hkept : NamesKept (docs.flatMap (·.attributes))) : d.attributes.Exact := by
  rw [attributes_of_ofDocuments h]
  exact exact_throughout_iff.mpr hkept _ (List.prefix_refl _)

theorem attribute?_eq_some_iff (h : d.attributes.Exact) {name : String} {a : Attribute} :
    d.attribute? name = some a ↔ a ∈ d.attributes.items ∧ a.hasName name = true := by
  rw [attribute?, Registry.find?, Option.bind_eq_some_iff]
  constructor
  · rintro ⟨i, hplace, ha⟩
    obtain ⟨x, hx, hname⟩ := (h name i).mp hplace
    cases hx.symm.trans ha
    exact ⟨List.mem_of_getElem? ha, hname⟩
  · rintro ⟨hmem, hname⟩
    obtain ⟨i, ha⟩ := List.mem_iff_getElem?.mp hmem
    exact ⟨i, (h name i).mpr ⟨a, ha, hname⟩, ha⟩

/-- **Lookups are exact** for documents whose definitions keep names: a name leads to a place exactly
if the definition there carries it, and a lookup finds exactly the listed definitions that carry the
name. -/
theorem lookup_exact (h : ofDocuments docs = .ok d)
    (hkept : NamesKept (docs.flatMap (·.attributes))) :
    (∀ name (i : Nat), d.attributes.place? name = some i ↔
      ∃ a, d.attributes.items[i]? = some a ∧ a.hasName name = true) ∧
    ∀ name a, d.attribute? name = some a ↔
      a ∈ d.attributes.items ∧ a.hasName name = true := by
  have hexact : d.attributes.Exact := exact_of_namesKept h hkept
  exact ⟨hexact, fun name a => attribute?_eq_some_iff hexact⟩

/-- Two documents, of which the second gives an attribute of the first another name besides. -/
def extendedNames : List SchemaDocument :=
  [{ attributes := [{ names := ["uid", "userid"] }, { names := ["mail"] }] },
    { attributes := [{ names := ["UID", "UserId", "login"], multivalued := true }] }]

theorem lookup_exact_extendedNames :
    ∃ d, ofDocuments extendedNames = .ok d ∧
      NamesKept (extendedNames.flatMap (·.attributes)) ∧
      ∀ name a, d.attribute? name = some a ↔
        a ∈ d.attributes.items ∧ a.hasName name = true :=
  have h : ofDocuments extendedNames = .ok _ := rfl
  have hkept : NamesKept (extendedNames.flatMap (·.attributes)) := by decide
  ⟨_, h, hkept, (lookup_exact h hkept).2⟩

/-- Two documents, of which the second takes a name away from an attribute of the first. -/
def withdrawnName : List SchemaDocument :=
  [{ attributes := [{ names := ["uid", "userid"] }] }, { attributes := [{ names := ["uid"] }] }]

/-- Lookups are not exact for all documents: a name that was taken away is still found. -/
theorem not_lookup_exact :
    ¬ ∀ docs d, ofDocuments docs = .ok d → ∀ name (i : Nat) a, d.attributes.items[i]? = some a →
      (d.attribute? name = some a ↔ a.hasName name = true) := by
  intro h
  have hname := (h withdrawnName _ rfl "userid" 0 { names := ["uid"] } rfl).mp rfl
  exact absurd hname (by decide)

end Directory

end DirectoryTables
