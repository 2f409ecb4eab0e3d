/-!
# Text — Affix

Texts that start, end, or are enclosed in a given way.  `afterPrefix?` and `beforeSuffix?` take an
affix off, `between?` takes off both, `splitLast?` splits at the last of a mark, and `substitute`
writes a replacement wherever a mark stands.
-/

namespace DirectoryTables.Text

/-- What follows `p`, for a text that starts with `p`. -/
def afterPrefix? : (p cs : List Char) → Option (List Char)
  | [], cs => some cs
  | _ :: _, [] => none
  | a :: p, c :: cs => if a = c then afterPrefix? p cs else none

/-- What precedes `q`, for a text that ends with `q`. -/
def beforeSuffix? (q cs : List Char) : Option (List Char) :=
  (afterPrefix? q.reverse cs.reverse).map List.reverse

/-- What stands between `p` and `q`, for a text that starts with `p` and, after it, ends with
`q`. -/
def between? (p q cs : List Char) : Option (List Char) :=
  (afterPrefix? p cs).bind (beforeSuffix? q)

/-- What precedes the first occurrence of `p`, and what follows it. -/
def splitFirst? (p : List Char) : List Char → Option (List Char × List Char)
  | [] => (afterPrefix? p []).map ([], ·)
  | c :: cs =>
    match afterPrefix? p (c :: cs) with
    | some r => some ([], r)
    | none => (splitFirst? p cs).map fun (before, after) => (c :: before, after)

/-- What precedes the last occurrence of `p`, and what follows it. -/
def splitLast? (p cs : List Char) : Option (List Char × List Char) :=
  (splitFirst? p.reverse cs.reverse).map fun (after, before) => (before.reverse, after.reverse)

/-! ### An affix taken off can be put back -/

theorem eq_append_of_afterPrefix? {p cs r : List Char} (h : afterPrefix? p cs = some r) :
    cs = p ++ r := by
  fun_induction afterPrefix? p cs with
  | case1 cs => simpa using h
  | case2 => simp at h
  | case3 a p cs ih => simp [ih h]
  | case4 => simp at h

@[simp] theorem afterPrefix?_append (p r : List Char) : afterPrefix? p (p ++ r) = some r := by
  induction p with
  | nil => simp [afterPrefix?]
  | cons a p ih => simp [afterPrefix?, ih]

theorem afterPrefix?_eq_some_iff {p cs r : List Char} :
    afterPrefix? p cs = some r ↔ cs = p ++ r :=
  ⟨eq_append_of_afterPrefix?, fun h => by simp [h]⟩

theorem beforeSuffix?_eq_some_iff {q cs r : List Char} :
    beforeSuffix? q cs = some r ↔ cs = r ++ q := by
  simp only [beforeSuffix?, Option.map_eq_some_iff, afterPrefix?_eq_some_iff]
  constructor
  · rintro ⟨s, hs, rfl⟩
    rw [← List.reverse_inj, hs]
    simp
  · rintro rfl
    exact ⟨r.reverse, by simp⟩

theorem between?_eq_some_iff {p q cs r : List Char} :
    between? p q cs = some r ↔ cs = p ++ r ++ q := by
  simp only [between?, Option.bind_eq_some_iff, afterPrefix?_eq_some_iff,
    beforeSuffix?_eq_some_iff, List.append_assoc]
  constructor
  · rintro ⟨s, rfl, rfl⟩
    rfl
  · rintro rfl
    exact ⟨r ++ q, rfl, rfl⟩

/-- The text with `replacement` written for every occurrence of the mark `first :: rest`, found
from left to right without overlap. -/
def substitute (first : Char) (rest replacement : List Char) : List Char → List Char
  | [] => []
  | c :: cs =>
    match _h : afterPrefix? (first :: rest) (c :: cs) with
    | some r => replacement ++ substitute first rest replacement r
    | none => c :: substitute first rest replacement cs
termination_by cs => cs.length
decreasing_by
  · have := congrArg List.length (eq_append_of_afterPrefix? _h)
    simp at this ⊢
    omega
  · simp

end DirectoryTables.Text
