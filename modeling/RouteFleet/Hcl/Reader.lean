import RouteFleet.Hcl.Template

/-! # Reading HCL expressions

In parentheses, breaks count as blanks; elsewhere an expression stands on one line, though there may be
breaks before and after each part of an array, of a call, and of whatever else stands in brackets.
Expressions are nested at most as deep as `deepest` says, where each operand after an operator is
deeper than the one before it. Where an expression is kept as it is written, it is kept as its text
from the first parenthesis to the last.
-/

namespace RouteFleet.Hcl

open Text ReadM

/-- Where an expression stands. -/
structure Place where
  /-- Whether breaks count as blanks. -/
  lines : Bool
  /-- How many levels deeper expressions may be nested. -/
  levels : Nat
deriving DecidableEq, Repr

/-- How deep expressions may be nested. -/
def deepest : Nat := 64

/-- On one line, in no other expression. -/
def Place.outermost : Place := ⟨false, deepest⟩

/-- One level deeper, if there may be one, where breaks count as blanks if `lines` holds. -/
def Place.inner (lines : Bool) (p : Place) : ReadM Place :=
  match p.levels with
  | 0 => failure
  | n + 1 => pure ⟨lines, n⟩

/-- What a text of a template ends with. -/
inductive Closing where
  | quote
  | mark (name : List Char)
deriving DecidableEq, Repr

/-- The length of a closing mark with the blanks before it, if it comes next. -/
def markLength? (mark cs : List Char) : Option Nat :=
  let blanks := (cs.takeWhile (isGap false)).length
  if mark.isPrefixOf (cs.drop blanks) then some (blanks + mark.length) else none

/-- Whether a template ends here. -/
def Closing.isNext (closing : Closing) (atLineStart : Bool) (cs : List Char) : Bool :=
  match closing with
  | .quote => cs.head? = some '"'
  | .mark name => atLineStart && (markLength? name cs).isSome

/-- Whether a character of a template says nothing about where parts and lines begin and end. -/
def isOrdinary (c : Char) : Bool := !"\"\\$%\n".toList.contains c

/-- Where a value, condition or loop in a template begins and ends, a tilde may stand. -/
def tilde : ReadM Unit := do
  let _ ← takeIf ['~']

/-- Reads the rest of a mark in a template. -/
def closeBrace : ReadM Unit := do
  gap true
  tilde
  expect ['\x7d']

/-- The word of the mark that comes next in a template. -/
def markWord? (cs : List Char) : Option String :=
  let start : ReadM String := do
    expect ['%', '\x7b']
    tilde
    gap true
    name
  (start.run { rest := cs }).map (·.1)

/-- Reads a mark in a template that holds nothing but a word. -/
def wordMark (w : String) : ReadM Unit := do
  expect ['%', '\x7b']
  tilde
  gap true
  word w
  closeBrace

/-- The number of an element, which has no zero before other digits. -/
def indexNumber (cs : List Char) : List Char :=
  match cs with
  | '0' :: _ => ['0']
  | cs => cs.takeWhile isDigit

/-- Reads a name with others before it, between which two colons stand. -/
def scopedName : Nat → String → ReadM String
  | 0, _ => failure
  | fuel + 1, scope => do
    let more ← attempt (do gap false; expect [':', ':']; gap false; name)
    match more with
    | some n => scopedName fuel (scope ++ "::" ++ n)
    | none => return scope

/-- What a name that calls nothing stands for. -/
def ofName (name : String) : Expression :=
  if name = "null" then .null
  else if name = "true" then .bool true
  else if name = "false" then .bool false
  else .term name

mutual

/-- Reads an expression. -/
def expression (p : Place) : Nat → ReadM Expression
  | 0 => failure
  | fuel + 1 => do
    let first ← operation p fuel
    match ← attempt (do gap p.lines; expect ['?']) with
    | none => return first
    | some () =>
      let inner ← p.inner p.lines
      gap p.lines
      let yes ← expression inner fuel
      gap p.lines
      expect [':']
      gap p.lines
      let no ← expression inner fuel
      return .term (first.text ++ " ? " ++ yes.text ++ " : " ++ no.text)

/-- Reads operands with operators between them. -/
def operation (p : Place) : Nat → ReadM Expression
  | 0 => failure
  | fuel + 1 => do
    let first ← operand p fuel
    let sign ← attempt do
      gap p.lines
      let sign ← operator? (← rest)
      advance sign.length
      return sign
    match sign with
    | none => return first
    | some sign =>
      gap p.lines
      let second ← operation (← p.inner p.lines) fuel
      return .term (first.text ++ " " ++ String.ofList sign ++ " " ++ second.text)

/-- Reads an operand, with signs before it if there are some. -/
def operand (p : Place) : Nat → ReadM Expression
  | 0 => failure
  | fuel + 1 => do
    match ← rest with
    | '-' :: _ =>
      match ← attempt (do advance 1; gap false; number) with
      | some e => accesses p fuel (← negate? e)
      | none => signed "-" p fuel
    | '!' :: _ => signed "!" p fuel
    | _ => accesses p fuel (← primary p fuel)

/-- Reads a sign and its operand. -/
def signed (sign : String) (p : Place) : Nat → ReadM Expression
  | 0 => failure
  | fuel + 1 => do
    advance 1
    gap p.lines
    let e ← operand (← p.inner p.lines) fuel
    return .term (sign ++ e.text)

/-- Reads what is accessed of an expression: its attributes and elements. -/
def accesses (p : Place) : Nat → Expression → ReadM Expression
  | 0, _ => failure
  | fuel + 1, e => do
    match ← attempt (do gap p.lines; access p fuel) with
    | some text => accesses p fuel (.term (e.text ++ text))
    | none => return e

/-- Reads one access, and says how it is written. -/
def access (p : Place) : Nat → ReadM String
  | 0 => failure
  | fuel + 1 => do
    if ← takeIf ['.'] then
      gap false
      if ← takeIf ['*'] then return ".*"
      match indexNumber (← rest) with
      | [] => return "." ++ (← name)
      | digits =>
        if UInt64.size ≤ (digits? 10 digits).getD 0 then failure
        advance digits.length
        return "." ++ String.ofList digits
    else
      expect ['[']
      gap true
      if ← takeIf ['*'] then
        gap true
        expect [']']
        return "[*]"
      let index ← expression (← p.inner false) fuel
      gap true
      expect [']']
      return "[" ++ index.text ++ "]"

/-- Reads an expression that is no operation. -/
def primary (p : Place) : Nat → ReadM Expression
  | 0 => failure
  | fuel + 1 => do
    match ← rest with
    | '"' :: _ => quoted p fuel
    | '<' :: '<' :: _ => heredoc p fuel
    | '(' :: _ =>
      let e ← withoutKept do
        advance 1
        let e ← between true (expression (← p.inner true) fuel)
        expect [')']
        return .term ("(" ++ e.text ++ ")")
      keep e.text.toList
      return e
    | '[' :: _ =>
      advance 1
      gap true
      match ← attempt (word "for") with
      | some () => listComprehension p fuel
      | none => return .array (← items [']'] p fuel)
    | '\x7b' :: _ =>
      advance 1
      gap true
      match ← attempt (word "for") with
      | some () => objectComprehension p fuel
      | none => return .object (← entries p fuel [])
    | c :: _ =>
      if isDigit c then number else named p fuel
    | [] => failure

/-- Reads a name, or a call of one. -/
def named (p : Place) : Nat → ReadM Expression
  | 0 => failure
  | fuel + 1 => do
    let first ← name
    let full ← scopedName fuel first
    match ← attempt (do gap false; expect ['(']) with
    | some () => return .term (full ++ "(" ++ (← arguments p fuel) ++ ")")
    | none => if full = first then return ofName first else failure

/-- Reads the arguments of a call up to its closing parenthesis, and says how they are written. Three
full stops may stand after the last one, or a comma. -/
def arguments (p : Place) : Nat → ReadM String
  | 0 => failure
  | fuel + 1 => do
    gap true
    if ← takeIf [')'] then return ""
    let e ← expression (← p.inner false) fuel
    gap true
    if ← takeIf ['.', '.', '.'] then
      gap true
      expect [')']
      return e.text ++ "..."
    else if ← takeIf [','] then
      let more ← arguments p fuel
      return if more = "" then e.text else e.text ++ ", " ++ more
    else
      expect [')']
      return e.text

/-- Reads expressions with commas between them, up to a closing character. A comma may also stand
after the last one. -/
def items (close : List Char) (p : Place) : Nat → ReadM (List Expression)
  | 0 => failure
  | fuel + 1 => do
    gap true
    if ← takeIf close then return []
    let e ← expression (← p.inner false) fuel
    gap true
    if ← takeIf [','] then return e :: (← items close p fuel)
    else
      expect close
      return [e]

/-- Reads the entries of an object, up to its closing brace. Each is on one line; between them stand
commas or breaks. No key is written twice. -/
def entries (p : Place) : Nat → List (Expression × Expression) →
    ReadM (List (Expression × Expression))
  | 0, _ => failure
  | fuel + 1, before => do
    gap true
    if ← takeIf ['\x7d'] then return before.reverse
    let inner ← p.inner false
    let key ← expression inner fuel
    if Expression.hasKey key before then failure
    gap false
    if !(← takeIf ['=']) then expect [':']
    let value ← between false (expression inner fuel)
    if !(← takeIf [',']) then
      if (← rest).head? != some '\x7d' then lineEnd
    entries p fuel ((key, value) :: before)

/-- Reads the names and the collection of a comprehension, up to its colon, and says how they are
written. -/
def generator (p : Place) : Nat → ReadM String
  | 0 => failure
  | fuel + 1 => do
    let first ← between true name
    let names ← do
      if ← takeIf [','] then
        let second ← between true name
        pure (first ++ ", " ++ second)
      else pure first
    word "in"
    let collection ← between true (expression (← p.inner false) fuel)
    expect [':']
    return names ++ " in " ++ collection.text

/-- Reads the condition of a comprehension, if it has one, and says how it is written. -/
def condition (p : Place) : Nat → ReadM String
  | 0 => failure
  | fuel + 1 => do
    match ← attempt (word "if") with
    | some () =>
      let e ← between true (expression (← p.inner false) fuel)
      return " if " ++ e.text
    | none => return ""

/-- Reads a comprehension in brackets, after the word that begins it. -/
def listComprehension (p : Place) : Nat → ReadM Expression
  | 0 => failure
  | fuel + 1 => do
    let source ← generator p fuel
    let value ← between true (expression (← p.inner false) fuel)
    let test ← condition p fuel
    expect [']']
    return .term ("[for " ++ source ++ " : " ++ value.text ++ test ++ "]")

/-- Reads a comprehension in braces, after the word that begins it. -/
def objectComprehension (p : Place) : Nat → ReadM Expression
  | 0 => failure
  | fuel + 1 => do
    let source ← generator p fuel
    let inner ← p.inner false
    let key ← between true (expression inner fuel)
    expect ['=', '>']
    let value ← between true (expression inner fuel)
    let dots := if ← takeIf ['.', '.', '.'] then "..." else ""
    gap true
    let test ← condition p fuel
    expect ['\x7d']
    return .term ("\x7bfor " ++ source ++ " : " ++ key.text ++ " => " ++ value.text ++ dots ++ test ++
      "\x7d")

/-- Reads a text between quotes, and keeps it written anew. -/
def quoted (p : Place) : Nat → ReadM Expression
  | 0 => failure
  | fuel + 1 => do
    let parts ← withoutKept do
      expect ['"']
      let parts ← parts .quote false p fuel
      expect ['"']
      return parts
    keep ('"' :: parts.flatMap Part.quoted ++ ['"'])
    return ofQuoted parts

/-- Reads a text of several lines. -/
def heredoc (p : Place) : Nat → ReadM Expression
  | 0 => failure
  | fuel + 1 => do
    expect ['<', '<']
    let flush ← takeIf ['-']
    let mark ← name
    if !(← takeIf ['\n']) then expect ['\r', '\n']
    let parts ← parts (.mark mark.toList) true p fuel
    match markLength? mark.toList (← rest) with
    | some n =>
      advance n
      return ofLines flush mark parts
    | none => failure

/-- Reads the parts of a template up to its end, or to a mark that belongs to what is around it. -/
def parts (closing : Closing) (atLineStart : Bool) (p : Place) : Nat → ReadM (List Part)
  | 0 => failure
  | fuel + 1 => do
    let cs ← rest
    if closing.isNext atLineStart cs then return []
    match cs with
    | [] => failure
    | '$' :: '$' :: '\x7b' :: _ =>
      advance 3
      return Part.cons ['$', '\x7b'] (← parts closing false p fuel)
    | '%' :: '%' :: '\x7b' :: _ =>
      advance 3
      return Part.cons ['%', '\x7b'] (← parts closing false p fuel)
    | '$' :: '\x7b' :: _ =>
      let ((), source) ← withKept do
        advance 2
        tilde
        gap true
        let _ ← expression (← p.inner false) fuel
        closeBrace
      return .code source :: (← parts closing false p fuel)
    | '%' :: '\x7b' :: _ =>
      match markWord? cs with
      | some "if" =>
        let first ← ifMark closing p fuel
        return first ++ (← parts closing false p fuel)
      | some "for" =>
        let first ← forMark closing p fuel
        return first ++ (← parts closing false p fuel)
      | some _ => return []
      | none => failure
    | '\\' :: escaped =>
      if closing = .quote then
        let (c, after) ← takeEscape escaped
        goTo after
        return Part.cons [c] (← parts closing false p fuel)
      else
        advance 1
        return Part.cons ['\\'] (← parts closing false p fuel)
    | c :: _ =>
      let run := if isOrdinary c then cs.takeWhile isOrdinary else [c]
      advance run.length
      return Part.cons run (← parts closing (c = '\n') p fuel)

/-- Reads a condition in a template, with what is written if it holds and if it does not. -/
def ifMark (closing : Closing) (p : Place) : Nat → ReadM (List Part)
  | 0 => failure
  | fuel + 1 => do
    let inner ← p.inner false
    let ((), opening) ← withKept do
      expect ['%', '\x7b']
      tilde
      gap true
      word "if"
      gap true
      let _ ← expression inner fuel
      closeBrace
    let yes ← parts closing false inner fuel
    let no ← do
      match ← attempt (withKept (wordMark "else")) with
      | some ((), mark) => pure (.code mark :: (← parts closing false inner fuel))
      | none => pure []
    let ((), ending) ← withKept (wordMark "endif")
    return .code opening :: yes ++ no ++ [.code ending]

/-- Reads a loop in a template, with what is written each time. -/
def forMark (closing : Closing) (p : Place) : Nat → ReadM (List Part)
  | 0 => failure
  | fuel + 1 => do
    let inner ← p.inner false
    let ((), opening) ← withKept do
      expect ['%', '\x7b']
      tilde
      gap true
      word "for"
      let _ ← between true name
      if ← takeIf [','] then
        let _ ← between true name
      word "in"
      gap true
      let _ ← expression inner fuel
      closeBrace
    let body ← parts closing false inner fuel
    let ((), ending) ← withKept (wordMark "endfor")
    return .code opening :: body ++ [.code ending]

end

/-- Where a fuel that each step takes from begins. -/
def fuelFor (cs : List Char) : Nat := 16 * cs.length + 64

/-- Reads an attribute's value, after the mark that sets it. -/
def value : ReadM Expression := do
  gap false
  let e ← expression .outermost (fuelFor (← rest))
  gap false
  return e

/-- Reads a text between quotes in which nothing would have to be computed. -/
def plainText : ReadM String := do
  let cs ← rest
  match ← quoted .outermost (fuelFor cs) with
  | .string s => return s
  | _ => failure

end RouteFleet.Hcl
