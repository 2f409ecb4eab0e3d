import DirectoryTables.Json.Failure
import DirectoryTables.Text.Bytes

/-!
# JSON — Lexemes

The parts of a JSON text that have no structure: blank space, the words `null`, `true` and
`false`, strings and numbers.  Each reader takes a part off the start of the text and returns what
follows it; a string is read from behind its opening quote.
-/

namespace DirectoryTables.Json

/-- The blank space of JSON. -/
def isSpace (c : Char) : Bool :=
  c == ' ' || c == '\n' || c == '\t' || c == '\r'

/-- The text from its first character that is not blank. -/
def skipSpace (cs : List Char) : List Char :=
  cs.dropWhile isSpace

/-- What follows a word. -/
def readWord : (word cs : List Char) → Except Fault (List Char)
  | [], cs => .ok cs
  | _ :: _, [] => .error .endInValue
  | a :: word, c :: cs => if a = c then readWord word cs else .error .expectedWord

/-! ### Strings -/

/-- The value of a hexadecimal digit. -/
def hexValue? (c : Char) : Option Nat :=
  if '0' ≤ c ∧ c ≤ '9' then some (c.toNat - 48)
  else if 'a' ≤ c ∧ c ≤ 'f' then some (c.toNat - 87)
  else if 'A' ≤ c ∧ c ≤ 'F' then some (c.toNat - 55)
  else none

/-- The code unit written by four hexadecimal digits.  Fewer than four bytes are the end of the
text, whatever they are. -/
def readUnit : List Char → Except Fault (Nat × List Char)
  | a :: b :: c :: d :: cs =>
    match hexValue? a, hexValue? b, hexValue? c, hexValue? d with
    | some a, some b, some c, some d => .ok (((a * 16 + b) * 16 + c) * 16 + d, cs)
    | _, _, _, _ => .error .invalidEscape
  | cs => .error (if Text.byteLength cs < 4 then .endInString else .invalidEscape)

/-- The character behind `\u`.  Where units are `paired`, the first unit of a pair needs the second
one behind it, and the second one does not stand alone; else any unit will do. -/
def readUnicode (paired : Bool) (cs : List Char) : Except Fault (Char × List Char) := do
  let (unit, cs) ← readUnit cs
  if !paired || unit < 0xD800 || 0xDFFF < unit then return (Char.ofNat unit, cs)
  if 0xDC00 ≤ unit then throw .loneSurrogate
  match cs with
  | '\\' :: 'u' :: cs =>
    let (second, cs) ← readUnit cs
    if second < 0xDC00 || 0xDFFF < second then throw .loneSurrogate
    return (Char.ofNat (0x10000 + (unit - 0xD800) * 0x400 + (second - 0xDC00)), cs)
  | [] | ['\\'] => throw .endInString
  | _ => throw .unfinishedSurrogate

/-- The character behind a backslash. -/
def readEscape (paired : Bool) : List Char → Except Fault (Char × List Char)
  | [] => .error .endInString
  | c :: cs =>
    if c = '\x22' ∨ c = '\\' ∨ c = '/' then .ok (c, cs)
    else if c = 'b' then .ok ('\x08', cs)
    else if c = 'f' then .ok ('\x0c', cs)
    else if c = 'n' then .ok ('\n', cs)
    else if c = 'r' then .ok ('\r', cs)
    else if c = 't' then .ok ('\t', cs)
    else if c = 'u' then readUnicode paired cs
    else .error .invalidEscape

theorem length_of_readUnit {cs rest : List Char} {n : Nat} (h : readUnit cs = .ok (n, rest)) :
    rest.length < cs.length := by
  unfold readUnit at h
  split at h
  · split at h
    · simp only [Except.ok.injEq, Prod.mk.injEq] at h
      obtain ⟨_, rfl⟩ := h
      simp only [List.length_cons]
      omega
    · simp at h
  · simp at h

theorem length_of_readUnicode {paired : Bool} {cs rest : List Char} {c : Char}
    (h : readUnicode paired cs = .ok (c, rest)) : rest.length < cs.length := by
  simp only [readUnicode, bind, Except.bind, pure, Except.pure, throw, throwThe,
    MonadExceptOf.throw] at h
  split at h
  · simp at h
  next p hp =>
    have h₁ := length_of_readUnit hp
    split at h
    · simp only [Except.ok.injEq, Prod.mk.injEq] at h
      obtain ⟨_, rfl⟩ := h
      exact h₁
    · split at h
      · simp at h
      · split at h
        next heq =>
          split at h
          · simp at h
          next q hq =>
            have h₂ := length_of_readUnit hq
            have h₃ := congrArg List.length heq
            simp only [List.length_cons] at h₃
            split at h
            · simp at h
            · simp only [Except.ok.injEq, Prod.mk.injEq] at h
              obtain ⟨_, rfl⟩ := h
              omega
        all_goals simp at h

theorem length_of_readEscape {paired : Bool} {cs rest : List Char} {c : Char}
    (h : readEscape paired cs = .ok (c, rest)) : rest.length < cs.length := by
  cases cs with
  | nil => simp [readEscape] at h
  | cons a cs =>
    simp only [readEscape] at h
    split at h
    · simp_all
    · split at h
      · simp_all
      · split at h
        · simp_all
        · split at h
          · simp_all
          · split at h
            · simp_all
            · split at h
              · simp_all
              · split at h
                · have := length_of_readUnicode h
                  simp only [List.length_cons]
                  omega
                · simp at h

/-- The characters up to the closing quote. -/
def readQuoted (paired : Bool) : List Char → Except Fault (List Char × List Char)
  | [] => .error .endInString
  | c :: cs =>
    if c = '\x22' then .ok ([], cs)
    else if c = '\\' then
      match _h : readEscape paired cs with
      | .error e => .error e
      | .ok (c, rest) => do
        let (more, rest) ← readQuoted paired rest
        return (c :: more, rest)
    else if c < ' ' then .error .controlCharacter
    else do
      let (more, rest) ← readQuoted paired cs
      return (c :: more, rest)
termination_by cs => cs.length
decreasing_by
  · have := length_of_readEscape _h
    simp only [List.length_cons]
    omega
  · simp

/-- A string, from behind its opening quote. -/
def readString (cs : List Char) : Except Fault (String × List Char) := do
  let (inside, rest) ← readQuoted true cs
  return (String.ofList inside, rest)

/-! ### Numbers -/

/-- The digits at the start of the text, and what follows them. -/
def spanDigits (cs : List Char) : List Char × List Char :=
  (cs.takeWhile Char.isDigit, cs.dropWhile Char.isDigit)

/-- The fault of a place where a digit had to stand. -/
def missingDigit : List Char → Fault
  | [] => .endInValue
  | _ => .invalidNumber

/-- The digits before the point: no other digit follows a zero at their start. -/
def readWhole (cs : List Char) : Except Fault (Scientific × List Char) :=
  match spanDigits cs with
  | ([], rest) => .error (missingDigit rest)
  | ('0' :: _ :: _, _) => .error .invalidNumber
  | (digits, rest) => .ok (digits.foldl Scientific.addWhole {}, rest)

/-- The digits behind a point, if there is one. -/
def readFraction (s : Scientific) : List Char → Except Fault (Option Scientific × List Char)
  | '.' :: cs =>
    match spanDigits cs with
    | ([], rest) => .error (missingDigit rest)
    | (digits, rest) =>
      .ok (some (digits.foldl Scientific.addFraction { s with full := false }), rest)
  | cs => .ok (none, cs)

/-- The power of ten behind an `e`, if there is one. -/
def readExponent : List Char → Except Fault (Option Int × List Char)
  | c :: cs =>
    if c = 'e' ∨ c = 'E' then
      let (negative, cs) :=
        match cs with
        | '+' :: cs => (false, cs)
        | '-' :: cs => (true, cs)
        | cs => (false, cs)
      match spanDigits cs with
      | ([], rest) => .error (missingDigit rest)
      | (digits, rest) =>
        let n : Int := Text.decimalValue digits
        .ok (some (if negative then -n else n), rest)
    else .ok (none, c :: cs)
  | [] => .ok (none, [])

/-- The number with a sign, when it was written as an integer: a double where it does not fit in
64 bits or is a negative zero. -/
def wholeNumber? (negative : Bool) (s : Scientific) : Option Int :=
  if s.full then none
  else if negative then
    if s.significand ≠ 0 ∧ 2 * s.significand ≤ UInt64.size then some (-s.significand) else none
  else some s.significand

/-- A number, from behind its minus sign. -/
def readNumber (negative : Bool) (cs : List Char) : Except Fault (Number × List Char) := do
  let (whole, cs) ← readWhole cs
  let (fraction, cs) ← readFraction whole cs
  let (power, cs) ← readExponent cs
  match fraction, power, wholeNumber? negative whole with
  | none, none, some n => return (.integer n, cs)
  | _, _, _ =>
    let s := fraction.getD whole
    match { s with exponent := s.exponent + power.getD 0 }.toFloat? with
    | some x => return (.float (if negative then -x else x), cs)
    | none => throw .numberTooLarge

end DirectoryTables.Json
