import RouteFleet.Decimal.Binary64

/-! # HCL expressions and bodies

A body is a row of attributes, each with an expression, and of blocks, each with a body of its own.
An expression is not computed: what is not a plain value is kept as its text, in which a single
blank stands around operators and after commas.
-/

namespace RouteFleet.Hcl

open Text

/-- What an attribute is set to. -/
inductive Expression where
  | null
  | bool (value : Bool)
  | integer (value : Int)
  | real (value : Binary64)
  | string (text : String)
  /-- A text with parts that would have to be computed. These stand in `source` as they are written,
  and the others as what they mean. -/
  | template (source : String)
  /-- A text of several lines between two marks. Where `flush` holds, what all its lines are indented
  by does not belong to it. -/
  | heredoc (flush : Bool) (mark : String) (source : String)
  | array (items : List Expression)
  | object (entries : List (Expression × Expression))
  /-- A name, or an expression that would have to be computed. -/
  | term (text : String)
deriving Repr, Inhabited

namespace Expression

/-! ## Text -/

/-- A character between quotes. -/
def escapeChar (c : Char) : List Char :=
  if c = '"' then ['\\', '"']
  else if c = '\\' then ['\\', '\\']
  else if c = '\n' then ['\\', 'n']
  else if c = '\r' then ['\\', 'r']
  else if c = '\t' then ['\\', 't']
  else if c = '\x08' then ['\\', 'b']
  else if c = '\x0c' then ['\\', 'f']
  else if c.toNat < 0x20 then '\\' :: 'u' :: hexDigits 4 c.toNat
  else [c]

/-- A text in which what would begin a part to be computed is marked as text. -/
def markText : List Char → List Char
  | '$' :: '\x7b' :: rest => ['$', '$', '\x7b'] ++ markText rest
  | '%' :: '\x7b' :: rest => ['%', '%', '\x7b'] ++ markText rest
  | c :: rest => c :: markText rest
  | [] => []

/-- A text between quotes. -/
def escape (cs : List Char) : List Char := (markText cs).flatMap escapeChar

mutual

/-- The text of an expression. -/
def text : Expression → String
  | .null => "null"
  | .bool true => "true"
  | .bool false => "false"
  | .integer n => toString n
  | .real r => r.toText
  | .string s => "\"" ++ String.ofList (escape s.toList) ++ "\""
  | .template source => "\"" ++ source ++ "\""
  | .heredoc flush mark source => (if flush then "<<-" else "<<") ++ mark ++ "\n" ++ source ++ mark
  | .array items => "[" ++ itemTexts items ++ "]"
  | .object [] => "\x7b\x7d"
  | .object entries => "\x7b " ++ entryTexts entries ++ " \x7d"
  | .term s => s

/-- The texts of some expressions, with commas between them. -/
def itemTexts : List Expression → String
  | [] => ""
  | [e] => text e
  | e :: rest => text e ++ ", " ++ itemTexts rest

/-- The texts of some entries, with commas between them. -/
def entryTexts : List (Expression × Expression) → String
  | [] => ""
  | [(k, v)] => text k ++ " = " ++ text v
  | (k, v) :: rest => text k ++ " = " ++ text v ++ ", " ++ entryTexts rest

end

/-- What an expression says where a text is wanted: itself if it is a text, else the text that would
have the expression computed in it. -/
def asText : Expression → String
  | .string s => s
  | .template source => source
  | .heredoc _ _ source => source
  | e => "$\x7b" ++ e.text ++ "\x7d"

/-- The key that an expression stands for in an object. -/
def asKey : Expression → String
  | .term s => s
  | e => e.asText

/-- Whether a key of some entries is written like another. -/
def hasKey (key : Expression) (entries : List (Expression × Expression)) : Bool :=
  entries.any (·.1.text = key.text)

end Expression

/-! ## Bodies -/

/-- A part of a body. -/
inductive Item where
  | attribute (name : String) (value : Expression)
  | block (name : String) (labels : List String) (body : List Item)
deriving Repr, Inhabited

/-- What a file, or a block in it, consists of. -/
abbrev Body := List Item

end RouteFleet.Hcl
