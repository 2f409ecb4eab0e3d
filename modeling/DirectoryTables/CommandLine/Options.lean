import DirectoryTables.Text.Affix

/-!
# Command line — Options

Options among the arguments of a command.  Every option but the one for the version takes a value,
which is attached to it (`--name=value`, `-nvalue`, `-n=value`) or is the next argument
(`--name value`, `-n value`).  An argument that begins like an option is never taken for the value
of the one before it.
-/

namespace DirectoryTables.CommandLine

/-- What is wrong with the arguments. -/
inductive UsageError where
  | unexpected (argument : String)
  | valueMissing (option : String)
  | valueUnexpected (option : String)
  | valueRefused (option value : String)
  | repeated (option : String)
  | optionMissing (option : String)
  | commandMissing
  deriving DecidableEq

/-- What is said of wrong arguments. -/
def UsageError.message : UsageError → String
  | unexpected argument => "unexpected argument " ++ argument
  | valueMissing option => "a value is required for --" ++ option
  | valueUnexpected option => "--" ++ option ++ " takes no value"
  | valueRefused option value => "invalid value " ++ value ++ " for --" ++ option
  | repeated option => "--" ++ option ++ " cannot be used more than once"
  | optionMissing option => "--" ++ option ++ " is required"
  | commandMissing => "a command is required"

/-- Why arguments are not read to their end. -/
inductive Stop where
  | wrong (cause : UsageError)
  /-- The version of the program is asked for; what comes behind does not count. -/
  | versionAsked
  deriving DecidableEq

/-- The end of reading at a wrong argument. -/
def refuse {α : Type} (cause : UsageError) : Except Stop α :=
  .error (.wrong cause)

/-! ### Single arguments -/

/-- An argument that begins like an option. -/
inductive OptionWord where
  | long (name : List Char) (attached : Option (List Char))
  | short (letter : Char) (attached : Option (List Char))
  deriving DecidableEq

namespace OptionWord

/-- What follows the first equals sign of a text. -/
def afterEquals? : List Char → Option (List Char)
  | [] => none
  | c :: cs => if c = '=' then some cs else afterEquals? cs

/-- The value in the argument of a letter, behind an equals sign or not. -/
def attachedToLetter : List Char → Option (List Char)
  | [] => none
  | c :: cs => some (if c = '=' then cs else c :: cs)

/-- An argument as an option; one or two hyphens alone are none. -/
def ofArgument? : List Char → Option OptionWord
  | ['-', '-'] => none
  | '-' :: '-' :: cs => some (long (cs.takeWhile (· ≠ '=')) (afterEquals? cs))
  | '-' :: c :: cs => some (short c (attachedToLetter cs))
  | _ => none

/-- The value in the argument. -/
def attached? : OptionWord → Option String
  | long _ attached | short _ attached => attached.map String.ofList

end OptionWord

/-- Whether an argument can be the value of the option before it. -/
def isFreeValue : List Char → Bool
  | '-' :: _ :: _ => false
  | _ => true

/-! ### Known options -/

/-- What an option is for. -/
inductive Purpose (α : Type) where
  /-- Its value goes into the settings. -/
  | value (take : String → α → Except UsageError α)
  /-- It asks for the version and takes no value. -/
  | version

/-- A known option: its letter and its name, and what it is for. -/
structure Setting (α : Type) where
  letter : Option Char := none
  name : String
  purpose : Purpose α

namespace Setting

variable {α β : Type}

/-- An option for a value that can be given once. -/
def once (letter : Option Char) (name : String) (read : String → Option β) (given : α → Option β)
    (give : β → α → α) : Setting α where
  letter := letter
  name := name
  purpose := .value fun value a =>
    if (given a).isSome then .error (.repeated name)
    else
      match read value with
      | some b => .ok (give b a)
      | none => .error (.valueRefused name value)

/-- Whether an argument stands for the option. -/
def matchesWord (s : Setting α) : OptionWord → Bool
  | .long name _ => s.name.toList == name
  | .short letter _ => s.letter == some letter

end Setting

variable {α : Type}

/-- The end of reading at the option for the version.  A letter takes no value, so what is attached
to it are further letters. -/
def stopForVersion (name : String) : OptionWord → Stop
  | .long _ (some _) => .wrong (.valueUnexpected name)
  | .long _ none | .short _ _ => .versionAsked

/-- The settings that the options at the start of the arguments make, and the arguments from the
first that is no option. -/
def readOptions (known : List (Setting α)) : α → List String → Except Stop (α × List String)
  | a, [] => .ok (a, [])
  | a, argument :: rest =>
    match OptionWord.ofArgument? argument.toList with
    | none => .ok (a, argument :: rest)
    | some word =>
      match known.find? (·.matchesWord word) with
      | none => refuse (.unexpected argument)
      | some s =>
        match s.purpose with
        | .version => .error (stopForVersion s.name word)
        | .value take =>
          match word.attached?, rest with
          | some value, rest => do readOptions known (← (take value a).mapError .wrong) rest
          | none, [] => refuse (.valueMissing s.name)
          | none, value :: rest =>
            if isFreeValue value.toList then do
              readOptions known (← (take value a).mapError .wrong) rest
            else refuse (.valueMissing s.name)

end DirectoryTables.CommandLine
