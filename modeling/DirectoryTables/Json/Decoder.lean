import DirectoryTables.Json.Skip
import DirectoryTables.Dict

/-!
# JSON — Decoders

Decoders read a value of a known shape off the start of a JSON text.  A decoder is told how many
levels of lists and objects may still be opened (`maxDepth` at the start) and returns the value
with the text behind it, or the first failure from the left.

A record (`Record`) is an object whose known keys occur at most once and whose other keys are
skipped, or a list of the values of its fields in order; a field that is not given keeps its
default, unless it is required.
-/

namespace DirectoryTables.Json

/-- A reader of values, given the levels that may still be opened. -/
abbrev Decoder (α : Type) := Nat → List Char → Except Failure (α × List Char)

/-- How many lists and objects may be open at a time. -/
def maxDepth : Nat := 127

/-- The result of a reader of lexemes. -/
def orFault {α : Type} (r : Except Fault α) : Except Failure α :=
  r.mapError .fault

/-- The failure of a value of the wrong shape. -/
def mismatch {α : Type} (m : Mismatch) : Except Failure α :=
  .error (.mismatch m)

/-- The failure of a text that is not JSON. -/
def fault {α : Type} (f : Fault) : Except Failure α :=
  .error (.fault f)

/-- The failure at a value that is not of the expected type.  Words, numbers and strings are read
to their end first. -/
def wrongType {α : Type} (expected : Expected) (cs : List Char) : Except Failure α := do
  let found ← match skipSpace cs with
    | [] => fault .endInValue
    | c :: cs =>
      if c = 'n' then (fun _ => Found.null) <$> orFault (readWord "ull".toList cs)
      else if c = 't' then (fun _ => Found.boolean true) <$> orFault (readWord "rue".toList cs)
      else if c = 'f' then (fun _ => Found.boolean false) <$> orFault (readWord "alse".toList cs)
      else if c = '-' then (fun r => Found.number r.1) <$> orFault (readNumber true cs)
      else if c.isDigit then (fun r => Found.number r.1) <$> orFault (readNumber false (c :: cs))
      else if c = '\x22' then (fun r => Found.string r.1) <$> orFault (readString cs)
      else if c = '[' then pure .sequence
      else if c = '\x7b' then pure .map
      else fault .expectedValue
  mismatch (.wrongType found expected)

namespace Decoder

variable {α β : Type}

/-- The decoder with its values changed. -/
def map (f : α → β) (d : Decoder α) : Decoder β := fun depth cs => do
  let (a, cs) ← d depth cs
  return (f a, cs)

/-! ### Single values -/

/-- A string. -/
def string : Decoder String := fun _ cs =>
  match skipSpace cs with
  | c :: rest => if c = '\x22' then orFault (readString rest) else wrongType .string cs
  | [] => wrongType .string cs

/-- A truth value. -/
def boolean : Decoder Bool := fun _ cs =>
  match skipSpace cs with
  | c :: rest =>
    if c = 't' then (true, ·) <$> orFault (readWord "rue".toList rest)
    else if c = 'f' then (false, ·) <$> orFault (readWord "alse".toList rest)
    else wrongType .boolean cs
  | [] => wrongType .boolean cs

/-- The 32-bit number that a JSON number is. -/
def wordOf (n : Number) : Except Failure UInt32 :=
  match n with
  | .integer n =>
    if 0 ≤ n ∧ n.toNat < UInt32.size then .ok (UInt32.ofNat n.toNat) else mismatch (.wordRange n)
  | .float x => mismatch (.wrongType (.number (.float x)) .word)

/-- A number of 32 bits. -/
def word : Decoder UInt32 := fun _ cs =>
  match skipSpace cs with
  | c :: rest =>
    if c = '-' then do
      let (n, rest) ← orFault (readNumber true rest)
      return (← wordOf n, rest)
    else if c.isDigit then do
      let (n, rest) ← orFault (readNumber false (c :: rest))
      return (← wordOf n, rest)
    else wrongType .word cs
  | [] => wrongType .word cs

/-- The value `null`. -/
def unit : Decoder Unit := fun _ cs =>
  match skipSpace cs with
  | 'n' :: rest => ((), ·) <$> orFault (readWord "ull".toList rest)
  | cs => wrongType .unit cs

/-- A value or `null`. -/
def optional (d : Decoder α) : Decoder (Option α) := fun depth cs =>
  match skipSpace cs with
  | 'n' :: rest => (none, ·) <$> orFault (readWord "ull".toList rest)
  | cs => d.map some depth cs

/-! ### Lists -/

/-- What comes next in a list or an object: its end, or one more element. -/
inductive Next where
  | close (rest : List Char)
  | element (rest : List Char)

/-- The next element of a list; a comma stands before all but the first. -/
def nextElement (first : Bool) (cs : List Char) : Except Fault Next :=
  match skipSpace cs with
  | [] => .error .endInList
  | ']' :: cs => .ok (.close cs)
  | c :: cs =>
    if first then .ok (.element (c :: cs))
    else if c = ',' then
      match skipSpace cs with
      | [] => .error .endInValue
      | ']' :: _ => .error .trailingComma
      | cs => .ok (.element cs)
    else .error .expectedListEnd

/-- The elements of a list up to its end. -/
def elements (item : List Char → Except Failure (α × List Char)) :
    Nat → Bool → List Char → Except Failure (List α × List Char)
  | 0, _, _ => fault .tooDeep
  | fuel + 1, first, cs => do
    match ← orFault (nextElement first cs) with
    | .close cs => return ([], cs)
    | .element cs =>
      let (a, cs) ← item cs
      let (as, cs) ← elements item fuel false cs
      return (a :: as, cs)

/-- Everything inside a bracket that was just opened, one level deeper. -/
def deeper (inside : Nat → Except Failure (α × List Char)) : Nat → Except Failure (α × List Char)
  | 0 => fault .tooDeep
  | depth + 1 => inside depth

/-- A list of values. -/
def list (item : Decoder α) : Decoder (List α) := fun depth cs =>
  match skipSpace cs with
  | '[' :: rest => deeper (fun depth => elements (item depth) (rest.length + 1) true rest) depth
  | cs => wrongType .sequence cs

/-! ### Objects -/

/-- The next key of an object, from behind its quote; a comma stands before all but the first. -/
def nextKey (first : Bool) (cs : List Char) : Except Fault Next :=
  let key (c : Char) (cs : List Char) : Except Fault Next :=
    if c = '\x22' then .ok (.element cs) else .error .keyNotString
  match skipSpace cs with
  | [] => .error .endInObject
  | c :: cs =>
    if c = '\x7d' then .ok (.close cs)
    else if first then key c cs
    else if c = ',' then
      match skipSpace cs with
      | [] => .error .endInValue
      | c :: cs => if c = '\x7d' then .error .trailingComma else key c cs
    else .error .expectedObjectEnd

/-- The text behind the colon that follows a key. -/
def afterColon (cs : List Char) : Except Failure (List Char) :=
  match skipSpace cs with
  | [] => fault .endInObject
  | ':' :: cs => .ok cs
  | _ => fault .expectedColon

/-- The members of an object up to its end.  `member` reads what follows a key, colon included, and
takes it into the value built so far. -/
def members (member : α → String → List Char → Except Failure (α × List Char)) :
    Nat → Bool → α → List Char → Except Failure (α × List Char)
  | 0, _, _, _ => fault .tooDeep
  | fuel + 1, first, a, cs => do
    match ← orFault (nextKey first cs) with
    | .close cs => return (a, cs)
    | .element cs =>
      let (key, cs) ← orFault (readString cs)
      let (a, cs) ← member a key cs
      members member fuel false a cs

/-- A map from texts; of two members with one key the later is kept. -/
def dict (item : Decoder α) : Decoder (Dict α) := fun depth cs =>
  let member (depth : Nat) (d : Dict α) (key : String) (cs : List Char) :
      Except Failure (Dict α × List Char) := do
    let (a, cs) ← item depth (← afterColon cs)
    return (d.insert key a, cs)
  match skipSpace cs with
  | '\x7b' :: rest =>
    deeper (fun depth => members (member depth) (rest.length + 1) true .empty rest) depth
  | cs => wrongType .map cs

end Decoder

/-! ### Records -/

/-- A field of a record: its key, other keys in use, and how its value goes into the record. -/
structure Field (σ : Type) where
  name : String
  aliases : List String := []
  required : Bool := false
  read : Decoder (σ → σ)

/-- The shape of a record: its name in messages, its fields in order, and their defaults. -/
structure Record (σ : Type) where
  name : String
  fields : List (Field σ)
  start : σ

namespace Record

variable {σ : Type}

/-- The field a key stands for. -/
def field? (r : Record σ) (key : String) : Option (Field σ) :=
  r.fields.find? fun f => f.name = key || key ∈ f.aliases

/-- A required field that is not among those seen. -/
def missing? (r : Record σ) (seen : List String) : Option (Field σ) :=
  r.fields.find? fun f => f.required && f.name ∉ seen

/-- One member of a record: a known key must be new, an unknown one is skipped. -/
def member (r : Record σ) (depth : Nat) (state : σ × List String) (key : String)
    (cs : List Char) : Except Failure ((σ × List String) × List Char) :=
  match r.field? key with
  | some f =>
    if f.name ∈ state.2 then mismatch (.duplicateField f.name)
    else do
      let (change, cs) ← f.read depth (← Decoder.afterColon cs)
      return ((change state.1, f.name :: state.2), cs)
  | none => do
    let cs ← orFault (skipValue (← Decoder.afterColon cs))
    return (state, cs)

/-- A record given as an object, from behind its bracket. -/
def fromMembers (r : Record σ) (depth : Nat) (cs : List Char) : Except Failure (σ × List Char) := do
  let ((a, seen), cs) ← Decoder.members (r.member depth) (cs.length + 1) true (r.start, []) cs
  match r.missing? seen with
  | some f => mismatch (.missingField f.name)
  | none => return (a, cs)

/-- The end of a list whose values have all been taken. -/
def listEnd (cs : List Char) : Except Fault (List Char) :=
  match skipSpace cs with
  | [] => .error .endInList
  | ']' :: cs => .ok cs
  | ',' :: cs =>
    match skipSpace cs with
    | ']' :: _ => .error .trailingComma
    | _ => .error .trailingCharacters
  | _ => .error .trailingCharacters

/-- The remaining fields of a record given as a list, `taken` of its fields being read. -/
def fromElements (r : Record σ) (depth : Nat) :
    List (Field σ) → Nat → σ → List Char → Except Failure (σ × List Char)
  | [], _, a, cs => do
    return (a, ← orFault (listEnd cs))
  | f :: fields, taken, a, cs => do
    match ← orFault (Decoder.nextElement (taken = 0) cs) with
    | .close cs =>
      if (f :: fields).any (·.required) then
        mismatch (.tooShort r.name taken r.fields.length)
      else return (a, cs)
    | .element cs =>
      let (change, cs) ← f.read depth cs
      fromElements r depth fields (taken + 1) (change a) cs

/-- A record, given as an object or as a list. -/
def decoder (r : Record σ) : Decoder σ := fun depth cs =>
  match skipSpace cs with
  | '\x7b' :: rest => Decoder.deeper (fun depth => r.fromMembers depth rest) depth
  | '[' :: rest => Decoder.deeper (fun depth => r.fromElements depth r.fields 0 r.start rest) depth
  | cs => wrongType (.record r.name) cs

end Record

/-! ### Whole documents -/

/-- The value that a whole text writes, blank space around it allowed. -/
def Decoder.document {α : Type} (d : Decoder α) (text : String) : Except Failure α := do
  let (a, cs) ← d maxDepth text.toList
  if skipSpace cs = [] then return a else fault .trailingCharacters

end DirectoryTables.Json
