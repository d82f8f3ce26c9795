import RouteFleet.Text.Split

/-! # The shapes that the fields of a route must have

Each rule is a test on one text. Lengths count characters.
-/

namespace RouteFleet.Rule

open Text

/-- Whether `s` has from `min` to `max` characters, all in the class `p`. -/
def within (min max : Nat) (p : Char → Bool) (s : String) : Bool :=
  min ≤ s.toList.length && s.toList.length ≤ max && s.toList.all p

/-- A route's name: 3 to 32 letters, digits or hyphens. -/
def isName (s : String) : Bool := within 3 32 (fun c => isAlnum c || c == '-') s

/-- Labels of a domain before the last: not empty, letters and digits. -/
def isLabel (cs : List Char) : Bool := !cs.isEmpty && cs.all isAlnum

/-- The last label of a domain: 2 to 6 letters. -/
def isTopLabel (cs : List Char) : Bool := 2 ≤ cs.length && cs.length ≤ 6 && cs.all isLetter

/-- A domain: 2 to 63 labels, each with a dot after it, and a top label. -/
def isDomain (s : String) : Bool :=
  match (pieces '.' s.toList).reverse with
  | top :: labels =>
    2 ≤ labels.length && labels.length ≤ 63 && isTopLabel top && labels.all isLabel
  | [] => false

/-- What follows the scheme of a web address. -/
def afterScheme (s : String) : Option String :=
  match stripLead? "http://" s with
  | some rest => some rest
  | none => stripLead? "https://" s

/-- A backend: a web address with a host and a colon, after which up to five digits may stand. -/
def isBackendUrl (s : String) : Bool :=
  match afterScheme s with
  | none => false
  | some rest =>
    match cutFirst ':' rest.toList with
    | none => false
    | some (host, port) =>
      !host.isEmpty && host.all (fun c => isAlnum c || c == '.' || c == '-') &&
        port.length ≤ 5 && port.all isDigit

/-- A user's name: 3 to 32 letters or digits. -/
def isUsername (s : String) : Bool := within 3 32 isAlnum s

/-- A password: 1 to 128 characters on one line. -/
def isPassword (s : String) : Bool := within 1 128 (· != '\n') s

/-- A number of an address: 1 to 3 digits. -/
def isOctet (cs : List Char) : Bool := 1 ≤ cs.length && cs.length ≤ 3 && cs.all isDigit

/-- Four numbers with dots between them. Their values are not bounded. -/
def isDottedQuad (cs : List Char) : Bool :=
  (pieces '.' cs).length == 4 && (pieces '.' cs).all isOctet

/-- An address, with a slash and 1 or 2 digits after it if it stands for a range of them. -/
def isIpEntry (s : String) : Bool :=
  match cutFirst '/' s.toList with
  | none => isDottedQuad s.toList
  | some (address, bits) =>
    isDottedQuad address && 1 ≤ bits.length && bits.length ≤ 2 && bits.all isDigit

/-- A header's name: 1 to 64 letters, digits, underscores or hyphens. -/
def isHeaderName (s : String) : Bool := within 1 64 (fun c => isAlnum c || c == '_' || c == '-') s

/-- A header's value: 3 to 128 characters on one line. -/
def isHeaderValue (s : String) : Bool := within 3 128 (· != '\n') s

end RouteFleet.Rule
