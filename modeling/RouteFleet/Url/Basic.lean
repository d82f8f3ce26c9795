import RouteFleet.Url.Host

/-! # URLs

Of a URL this library needs to know the scheme, the host and the port, and why a text is none. Blanks
around a URL do not count, and tabs and line breaks in it do not either. Some schemes are *special*:
what follows them is a host, with or without slashes before it, and a backslash is as good as a slash.
-/

namespace RouteFleet

/-- The parts of a URL by which its host can be reached. -/
structure Url where
  scheme : String
  host : Option Host
  port : Option UInt16
deriving DecidableEq, Repr

namespace Url

open Text

/-! ## Schemes -/

/-- The port of a scheme, where none is given. -/
def defaultPort? (scheme : String) : Option UInt16 :=
  match scheme with
  | "http" | "ws" => some 80
  | "https" | "wss" => some 443
  | "ftp" => some 21
  | _ => none

/-- Whether a scheme is special and not that of files. -/
def isSpecial (scheme : String) : Bool := (defaultPort? scheme).isSome

/-- A character of a scheme. -/
def isSchemeChar (c : Char) : Bool := isAlnum c || c == '+' || c == '-' || c == '.'

/-- The scheme in lower case, and what follows its colon. -/
def takeScheme (cs : List Char) : Option (String × List Char) := do
  let (scheme, rest) ← cutFirst ':' cs
  match scheme with
  | c :: _ =>
    if isLetter c && scheme.all isSchemeChar then
      return (String.ofList (scheme.map Char.toLower), rest)
    else none
  | [] => none

/-! ## Hosts and ports -/

/-- Whether the part with the host ends at a character. -/
def endsAuthority (special : Bool) (c : Char) : Bool :=
  c == '/' || c == '?' || c == '#' || (special && c == '\\')

/-- Where a host ends: at a colon that does not stand in brackets. -/
def takeHost (inBrackets : Bool) : List Char → List Char × List Char
  | [] => ([], [])
  | c :: rest =>
    if c == ':' && !inBrackets then ([], c :: rest)
    else
      let (host, after) := takeHost (if c == '[' then true else if c == ']' then false
        else inBrackets) rest
      (c :: host, after)

/-- Reads a port, or nothing. A backslash ends it. -/
def readPort (cs : List Char) : Except UrlError (Option UInt16) :=
  let ds := cs.takeWhile (· != '\\')
  if ds.isEmpty then .ok none
  else match digits? 10 ds with
    | some n => if n < 65536 then .ok (some (UInt16.ofNat n)) else .error .badPort
    | none => .error .badPort

/-- Reads a host and the port after it. -/
def readHostAndPort (special : Bool) (cs : List Char) :
    Except UrlError (Option Host × Option UInt16) := do
  let (host, after) := takeHost false cs
  if host.isEmpty && (special || !after.isEmpty) then .error .emptyHost
  else
    let host ← if special then Host.read host else Host.readOpaque host
    let port ← readPort (after.drop 1)
    return (if host = .domain "" then none else some host, port)

/-- Reads the part with the host. Before it may stand a user, up to the last `@`. -/
def readAuthority (scheme : String) (special : Bool) (cs : List Char) : Except UrlError Url := do
  let authority := cs.takeWhile fun c => !endsAuthority special c
  match cutLast '@' authority with
  | none =>
    let (host, port) ← readHostAndPort special authority
    return { scheme := scheme, host := host, port := port }
  | some (user, rest) =>
    if user.isEmpty && rest.isEmpty && authority.length < cs.length then .error .emptyHost
    else
      let (host, port) ← readHostAndPort special rest
      if host.isNone && !(user.isEmpty || user = [':']) then .error .emptyHost
      else return { scheme := scheme, host := host, port := port }

/-- Whether a text is a letter and a colon or bar, which file URLs take for a drive. -/
def isDrive (cs : List Char) : Bool :=
  match cs with
  | [c, d] => isLetter c && (d == ':' || d == '|')
  | _ => false

/-- Reads the host of a file, if there is one. -/
def readFile (scheme : String) (cs : List Char) : Except UrlError Url := do
  let isSlash (c : Char) : Bool := c == '/' || c == '\\'
  match cs with
  | a :: b :: rest =>
    let host := rest.takeWhile fun c => !endsAuthority true c
    if isSlash a && isSlash b && !host.isEmpty && !isDrive host then
      let host ← Host.read host
      return { scheme := scheme, host := if host = .domain "localhost" then none else some host,
               port := none }
    else return { scheme := scheme, host := none, port := none }
  | _ => return { scheme := scheme, host := none, port := none }

/-! ## URLs -/

/-- Drops what does not count in a URL. -/
def significant (s : String) : List Char :=
  let isMargin (c : Char) : Bool := c.toNat ≤ 0x20
  let cs := ((s.toList.dropWhile isMargin).reverse.dropWhile isMargin).reverse
  cs.filter fun c => c != '\t' && c != '\n' && c != '\r'

/-- Reads a URL. -/
def read (s : String) : Except UrlError Url :=
  match takeScheme (significant s) with
  | none => .error .noScheme
  | some (scheme, rest) =>
    if scheme = "file" then readFile scheme rest
    else if isSpecial scheme then
      readAuthority scheme true (rest.dropWhile fun c => c == '/' || c == '\\')
    else match rest with
      | '/' :: '/' :: rest => readAuthority scheme false rest
      | _ => .ok { scheme := scheme, host := none, port := none }

/-- The port at which the host is reached. -/
def effectivePort? (u : Url) : Option UInt16 := u.port.or (defaultPort? u.scheme)

end Url

end RouteFleet
