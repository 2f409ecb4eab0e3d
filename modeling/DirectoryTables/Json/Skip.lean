import DirectoryTables.Json.Lexeme

/-!
# JSON — Skip

Values that nothing asks for.  A skipped value has to be JSON, but it may be nested to any depth,
its numbers to any size, and the units of its strings need not pair.  The lists and objects that
are open around the place of reading are kept as a stack.
-/

namespace DirectoryTables.Json

/-- A list or an object that is open. -/
inductive Bracket where
  | list
  | object
  deriving DecidableEq

namespace Bracket

/-- The character that closes it. -/
def close : Bracket → Char
  | list => ']'
  | object => '\x7d'

/-- The fault of a text that ends inside it. -/
def unended : Bracket → Fault
  | list => .endInList
  | object => .endInObject

/-- The fault of a value followed by neither a comma nor the end. -/
def unseparated : Bracket → Fault
  | list => .expectedListEnd
  | object => .expectedObjectEnd

end Bracket

/-- Where reading goes on: nowhere, or with a value inside the brackets of a stack. -/
inductive Pending where
  | done
  | inside (innermost : Bracket) (outer : List Bracket)

/-- The text after a value, or after an opening bracket when `comma` does not hold: brackets that
end are closed, and a comma leads to the next value. -/
def settle (comma : Bool) (innermost : Bracket) (outer : List Bracket) :
    List Char → Except Fault (Pending × List Char)
  | [] => .error innermost.unended
  | c :: cs =>
    if isSpace c then settle comma innermost outer cs
    else if c = ',' ∧ comma = true then .ok (.inside innermost outer, cs)
    else if c = innermost.close then
      match outer with
      | [] => .ok (.done, cs)
      | next :: outer => settle true next outer cs
    else if comma then .error innermost.unseparated
    else .ok (.inside innermost outer, c :: cs)

/-- The text after a key and its colon. -/
def skipKey (cs : List Char) : Except Fault (List Char) :=
  match skipSpace cs with
  | [] => .error .endInObject
  | c :: cs =>
    if c = '\x22' then do
      let (_, cs) ← readQuoted false cs
      match skipSpace cs with
      | [] => throw .endInObject
      | c :: cs => if c = ':' then return cs else throw .expectedColon
    else .error .keyNotString

/-- The digits of a skipped number. -/
def skipDigits (cs : List Char) : Except Fault (List Char) :=
  match spanDigits cs with
  | ([], _) => .error .invalidNumber
  | (_, rest) => .ok rest

/-- The text after a number, from behind its minus sign. -/
def skipNumber (cs : List Char) : Except Fault (List Char) := do
  let cs ← match spanDigits cs with
    | ([], _) | ('0' :: _ :: _, _) => throw .invalidNumber
    | (_, rest) => pure rest
  let cs ← match cs with
    | '.' :: cs => skipDigits cs
    | cs => pure cs
  match cs with
  | c :: rest =>
    if c = 'e' ∨ c = 'E' then
      match rest with
      | '+' :: rest | '-' :: rest => skipDigits rest
      | rest => skipDigits rest
    else return cs
  | [] => return []

/-- The text after a value that opens no bracket, or the bracket that it opens. -/
def skipScalar (cs : List Char) : Except Fault (Option Bracket × List Char) :=
  match skipSpace cs with
  | [] => .error .endInValue
  | c :: cs =>
    let scalar (r : Except Fault (List Char)) : Except Fault (Option Bracket × List Char) := do
      return (none, ← r)
    if c = 'n' then scalar (readWord "ull".toList cs)
    else if c = 't' then scalar (readWord "rue".toList cs)
    else if c = 'f' then scalar (readWord "alse".toList cs)
    else if c = '-' then scalar (skipNumber cs)
    else if c.isDigit then scalar (skipNumber (c :: cs))
    else if c = '\x22' then scalar ((·.2) <$> readQuoted false cs)
    else if c = '[' then .ok (some .list, cs)
    else if c = '\x7b' then .ok (some .object, cs)
    else .error .expectedValue

/-- The text after the value inside the brackets of a stack, and after all of them. -/
def skipInside (fuel : Nat) (brackets : List Bracket) (cs : List Char) : Except Fault (List Char) :=
  match fuel with
  | 0 => .error .tooDeep
  | fuel + 1 => do
    let (opened, cs) ← skipScalar cs
    let (pending, cs) ← match opened, brackets with
      | some bracket, brackets => settle false bracket brackets cs
      | none, innermost :: outer => settle true innermost outer cs
      | none, [] => pure (.done, cs)
    match pending with
    | .done => return cs
    | .inside .list outer => skipInside fuel (.list :: outer) cs
    | .inside .object outer => skipInside fuel (.object :: outer) (← skipKey cs)

/-- The text after a value.  Every value takes a character at least, which bounds their number. -/
def skipValue (cs : List Char) : Except Fault (List Char) :=
  skipInside (cs.length + 1) [] cs

end DirectoryTables.Json
