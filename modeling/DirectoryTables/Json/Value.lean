import DirectoryTables.Json.Decoder

/-!
# JSON — Values

JSON values of any shape, with the members of an object in the order in which they were written.
-/

namespace DirectoryTables.Json

/-- A JSON value. -/
inductive Value where
  | null
  | boolean (b : Bool)
  | number (n : Number)
  | string (s : String)
  | list (items : List Value)
  | object (members : List (String × Value))
  deriving Inhabited

namespace Value

/-- A value as it is named when it is not of the expected type. -/
def found : Value → Found
  | null => .null
  | boolean b => .boolean b
  | number n => .number n
  | string s => .string s
  | list _ => .sequence
  | object _ => .map

/-- A value of any shape. -/
def decoder (depth : Nat) (cs : List Char) : Except Failure (Value × List Char) :=
  match skipSpace cs with
  | [] => fault .endInValue
  | c :: rest =>
    if c = 'n' then (null, ·) <$> orFault (readWord "ull".toList rest)
    else if c = 't' then (boolean true, ·) <$> orFault (readWord "rue".toList rest)
    else if c = 'f' then (boolean false, ·) <$> orFault (readWord "alse".toList rest)
    else if c = '-' then (Prod.map number id) <$> orFault (readNumber true rest)
    else if c.isDigit then (Prod.map number id) <$> orFault (readNumber false (c :: rest))
    else if c = '\x22' then (Prod.map string id) <$> orFault (readString rest)
    else if c = '[' then
      match depth with
      | 0 => fault .tooDeep
      | depth + 1 =>
        (Prod.map list id) <$> Decoder.elements (decoder depth) (rest.length + 1) true rest
    else if c = '\x7b' then
      match depth with
      | 0 => fault .tooDeep
      | depth + 1 =>
        let member (ms : List (String × Value)) (key : String) (cs : List Char) :
            Except Failure (List (String × Value) × List Char) := do
          let (v, cs) ← decoder depth (← Decoder.afterColon cs)
          return (ms ++ [(key, v)], cs)
        (Prod.map object id) <$> Decoder.members member (rest.length + 1) true [] rest
    else fault .expectedValue
termination_by structural depth

/-! ### Reading values that were kept -/

/-- The text that a value is. -/
def string? : Value → Except Failure String
  | string s => .ok s
  | v => mismatch (.wrongType v.found .string)

/-- The texts of a list of texts. -/
def strings? : Value → Except Failure (List String)
  | list items => items.mapM string?
  | v => mismatch (.wrongType v.found .sequence)

end Value

end DirectoryTables.Json
