/-!
# Dict

Finite maps with text keys, as pairs in ascending order of their keys, where texts are ordered by
code point.  Inserting gives its key the value and leaves those of the other keys as they are
(`Dict.get?_insert`).
-/

namespace DirectoryTables

/-- A finite map from texts: pairs, in ascending order of the keys.  The order is kept by `insert`
and stands in no field: with one, no inductive type could hold maps of its own values. -/
structure Dict (α : Type) where
  entries : List (String × α)
  deriving DecidableEq

namespace Dict

variable {α : Type}

/-- The map without keys. -/
def empty : Dict α := ⟨[]⟩

instance : Inhabited (Dict α) := ⟨empty⟩

/-- The value of the first pair with the key. -/
def lookup (key : String) : List (String × α) → Option α
  | [] => none
  | (k, v) :: es => if key = k then some v else lookup key es

/-- The pairs with one for the key, in place of the one they had or before the first greater
key. -/
def place (key : String) (value : α) : List (String × α) → List (String × α)
  | [] => [(key, value)]
  | (k, v) :: es =>
    if key < k then (key, value) :: (k, v) :: es
    else if key = k then (key, value) :: es
    else (k, v) :: place key value es

/-- The value of a key. -/
def get? (d : Dict α) (key : String) : Option α :=
  lookup key d.entries

/-- Whether a key has a value. -/
def contains (d : Dict α) (key : String) : Bool :=
  (d.get? key).isSome

/-- The map with a value for a key, in place of the one it had. -/
def insert (d : Dict α) (key : String) (value : α) : Dict α :=
  ⟨place key value d.entries⟩

/-- The map with every pair of a list inserted in turn: a later pair replaces an earlier one. -/
def insertAll (d : Dict α) (pairs : List (String × α)) : Dict α :=
  pairs.foldl (fun d p => d.insert p.1 p.2) d

/-- The map of a list of pairs, where a later pair replaces an earlier one. -/
def ofPairs (pairs : List (String × α)) : Dict α :=
  empty.insertAll pairs

/-- The keys in ascending order. -/
def keys (d : Dict α) : List String :=
  d.entries.map Prod.fst

/-! ### Reading after writing -/

@[simp] theorem get?_empty (key : String) : (empty : Dict α).get? key = none := rfl

theorem lookup_place (key other : String) (value : α) (es : List (String × α)) :
    lookup other (place key value es) = if other = key then some value else lookup other es := by
  fun_induction place key value es with
  | case1 => simp [lookup]
  | case2 => simp [lookup]
  | case3 v es => by_cases ho : other = key <;> simp [lookup, ho]
  | case4 k v es h hne ih =>
    by_cases ho : other = key
    · subst ho
      simp [lookup, hne, ih]
    · simp [lookup, ho, ih]

theorem get?_insert (d : Dict α) (key other : String) (value : α) :
    (d.insert key value).get? other = if other = key then some value else d.get? other :=
  lookup_place key other value d.entries

/-! ### Values -/

theorem mem_of_lookup {key : String} {value : α} {es : List (String × α)}
    (h : lookup key es = some value) : (key, value) ∈ es := by
  fun_induction lookup key es with
  | case1 => cases h
  | case2 v es =>
    cases h
    exact List.mem_cons_self
  | case3 k v es hne ih => exact List.mem_cons_of_mem _ (ih h)

/-- A value that is found is among the entries. -/
theorem mem_of_get? {d : Dict α} {key : String} {value : α} (h : d.get? key = some value) :
    (key, value) ∈ d.entries :=
  mem_of_lookup h

theorem mem_place {key : String} {value : α} {es : List (String × α)} {e : String × α}
    (h : e ∈ place key value es) : e = (key, value) ∨ e ∈ es := by
  fun_induction place key value es with
  | case1 => exact .inl (List.mem_singleton.mp h)
  | case2 => exact List.mem_cons.mp h
  | case3 v es _ => exact (List.mem_cons.mp h).imp_right (List.mem_cons_of_mem _)
  | case4 k v es _ _ ih =>
    rcases List.mem_cons.mp h with rfl | h
    · exact .inr List.mem_cons_self
    · exact (ih h).imp_right (List.mem_cons_of_mem _)

/-- What holds of the values of a map and of those inserted holds of all values. -/
theorem forall_insertAll {P : α → Prop} {d : Dict α} {pairs : List (String × α)}
    (hd : ∀ e ∈ d.entries, P e.2) (hpairs : ∀ e ∈ pairs, P e.2) :
    ∀ e ∈ (d.insertAll pairs).entries, P e.2 := by
  induction pairs generalizing d with
  | nil => exact hd
  | cons p pairs ih =>
    refine ih (fun e he => ?_) fun e he => hpairs e (List.mem_cons_of_mem p he)
    rcases mem_place he with rfl | he
    · exact hpairs p List.mem_cons_self
    · exact hd e he

theorem forall_ofPairs {P : α → Prop} {pairs : List (String × α)} (h : ∀ e ∈ pairs, P e.2) :
    ∀ e ∈ (ofPairs pairs).entries, P e.2 :=
  forall_insertAll (fun _ he => by cases he) h

end Dict

end DirectoryTables
