import RouteFleet.Text.Split

/-! # Words of a command line

A word that begins with two dashes is a *flag*, or an *option* with a value after an equals sign or
in the next word; one that begins with a single dash holds letters, each short for a flag; two dashes
alone end flags and options. All other words are *operands*, a single dash too.

Words are read from left to right. Nothing may be given twice, and whoever asks for help before a
word that is wrong is helped.
-/

namespace RouteFleet.Command

open Text

/-! ## Words -/

/-- A word of a command line. -/
inductive Word where
  | long (name : String) (value : Option String)
  | short (letters : List Char)
  | escape
  | plain (text : String)
deriving DecidableEq, Repr

/-- The word that a text is. -/
def Word.ofText (s : String) : Word :=
  match s.toList with
  | ['-', '-'] => .escape
  | '-' :: '-' :: rest =>
    match cutFirst '=' rest with
    | some (name, value) => .long (String.ofList name) (some (String.ofList value))
    | none => .long (String.ofList rest) none
  | '-' :: c :: rest => .short (c :: rest)
  | _ => .plain s

/-! ## What is expected -/

/-- What a value is used for. -/
inductive ValueKind where
  | text
  | path
deriving DecidableEq, Repr

/-- Whether a value can be used: a path is not empty. -/
def ValueKind.accepts : ValueKind → String → Bool
  | .text, _ => true
  | .path, value => value ≠ ""

/-- What a command line may hold. -/
structure Grammar where
  flags : List String := []
  letters : List (Char × String) := []
  options : List (String × ValueKind) := []
  operands : List ValueKind := []

/-! ## What is given -/

/-- What a command line holds. -/
structure Given where
  flags : List String := []
  values : List (String × String) := []
  operands : List String := []
deriving DecidableEq, Repr

namespace Given

/-- One more flag. -/
def withFlag (g : Given) (flag : String) : Option Given :=
  if g.flags.contains flag then none else some { g with flags := flag :: g.flags }

/-- One more option. -/
def withValue (g : Given) (name : String) (kind : ValueKind) (value : String) : Option Given :=
  if (g.values.lookup name).isSome || !kind.accepts value then none
  else some { g with values := (name, value) :: g.values }

/-- One more operand. -/
def withOperand (g : Given) (grammar : Grammar) (value : String) : Option Given :=
  match grammar.operands[g.operands.length]? with
  | some kind =>
    if kind.accepts value then some { g with operands := g.operands ++ [value] } else none
  | none => none

/-- Whether a flag is given. -/
def has (g : Given) (flag : String) : Bool := g.flags.contains flag

/-- The value of an option. -/
def value? (g : Given) (name : String) : Option String := g.values.lookup name

end Given

/-- What somebody wants who gave a command line. -/
inductive Reading where
  | help
  | given (g : Given)
deriving DecidableEq, Repr

/-- Reads letters that are short for flags. -/
def readLetters (grammar : Grammar) : List Char → Given → Option Reading
  | [], g => some (.given g)
  | c :: rest, g =>
    if c = 'h' then some .help
    else do
      let flag ← grammar.letters.lookup c
      readLetters grammar rest (← g.withFlag flag)

/-- Reads words that are operands, whatever they begin with. -/
def readOperands (grammar : Grammar) : List String → Given → Option Reading
  | [], g => some (.given g)
  | w :: rest, g => do readOperands grammar rest (← g.withOperand grammar w)

/-- Reads words. `wanted` is an option whose value the next word must be. -/
def readWords (grammar : Grammar) : (wanted : Option (String × ValueKind)) → List String → Given →
    Option Reading
  | none, [], g => some (.given g)
  | some _, [], _ => none
  | some (name, kind), w :: rest, g =>
    match Word.ofText w with
    | .plain value => do readWords grammar none rest (← g.withValue name kind value)
    | _ => none
  | none, w :: rest, g =>
    match Word.ofText w with
    | .plain value => do readWords grammar none rest (← g.withOperand grammar value)
    | .escape => readOperands grammar rest g
    | .short letters => do
      match ← readLetters grammar letters g with
      | .help => some .help
      | .given g => readWords grammar none rest g
    | .long name value =>
      if name = "help" then if value.isNone then some .help else none
      else if grammar.flags.contains name then
        if value.isNone then do readWords grammar none rest (← g.withFlag name) else none
      else do
        let kind ← grammar.options.lookup name
        match value with
        | some value => readWords grammar none rest (← g.withValue name kind value)
        | none => readWords grammar (some (name, kind)) rest g

/-- Reads a command line. -/
def Grammar.read (grammar : Grammar) (words : List String) : Option Reading :=
  readWords grammar none words {}

end RouteFleet.Command
