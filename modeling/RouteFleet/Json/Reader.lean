import RouteFleet.Json.Token

/-! # Reading JSON documents

A text is read by cutting it into tokens and putting the tokens together. Nothing may follow the
document.
-/

namespace RouteFleet.Json

mutual

/-- The document at the head of the tokens, and the tokens after it. -/
def ofTokens : Nat → List Token → Option (Json × List Token)
  | 0, _ => none
  | fuel + 1, tokens =>
    match tokens with
    | .null :: rest => some (.null, rest)
    | .bool b :: rest => some (.bool b, rest)
    | .number literal :: rest => some (.number literal, rest)
    | .string literal :: rest => some (.string literal, rest)
    | .openBracket :: .closeBracket :: rest => some (.array [], rest)
    | .openBracket :: rest => (itemsOfTokens fuel rest).map fun p => (.array p.1, p.2)
    | .openBrace :: .closeBrace :: rest => some (.object [], rest)
    | .openBrace :: rest => (fieldsOfTokens fuel rest).map fun p => (.object p.1, p.2)
    | _ => none

/-- The items up to the closing bracket of an array that is not empty. -/
def itemsOfTokens : Nat → List Token → Option (List Json × List Token)
  | 0, _ => none
  | fuel + 1, tokens =>
    match ofTokens fuel tokens with
    | some (item, .comma :: rest) =>
      (itemsOfTokens fuel rest).map fun p => (item :: p.1, p.2)
    | some (item, .closeBracket :: rest) => some ([item], rest)
    | _ => none

/-- The fields up to the closing brace of an object that is not empty. -/
def fieldsOfTokens : Nat → List Token → Option (List (String × Json) × List Token)
  | 0, _ => none
  | fuel + 1, tokens =>
    match tokens with
    | .string key :: .colon :: rest =>
      match ofTokens fuel rest with
      | some (value, .comma :: rest) =>
        (fieldsOfTokens fuel rest).map fun p => ((key, value) :: p.1, p.2)
      | some (value, .closeBrace :: rest) => some ([(key, value)], rest)
      | _ => none
    | _ => none

end

/-- Reads one document; nothing but blanks may stand around it. A document takes at most two rounds
for each of its tokens. -/
def read? (text : String) : Option Json := do
  let tokens ← Token.scan text.toList
  let (document, rest) ← ofTokens (2 * tokens.length + 2) tokens
  if rest.isEmpty then some document else none

end RouteFleet.Json
