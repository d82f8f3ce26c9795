import RouteFleet.Url.Domain
import RouteFleet.Url.Error

/-! # Hosts of URLs

A host is a domain or an address. Addresses of four bytes may be written in many ways: each of up to
four numbers may be written in base ten, eight or sixteen, and the last one stands for all bytes that
are left. Addresses of eight words stand in brackets.
-/

namespace RouteFleet

/-- A host. -/
inductive Host where
  | domain (name : String)
  | ipv4 (address : UInt32)
  | ipv6 (words : List Nat)
deriving DecidableEq, Repr

namespace Host

open Text

/-! ## Addresses of four bytes -/

/-- The value of a number in an address, in base ten, eight or sixteen. -/
def number? (cs : List Char) : Option Nat :=
  match cs with
  | [] => none
  | ['0', 'x'] => some 0
  | '0' :: 'x' :: ds => digits? 16 ds
  | '0' :: 'X' :: ds => if ds.isEmpty then some 0 else digits? 16 ds
  | '0' :: d :: ds => digits? 8 (d :: ds)
  | ds => digits? 10 ds

/-- The parts between the full stops, without an empty one at the end. -/
def dotted (cs : List Char) : List (List Char) :=
  let all := pieces '.' cs
  if 1 < all.length && all.getLast? = some [] then all.dropLast else all

/-- Whether a domain ends in a number, so that it must be an address. -/
def endsInNumber (cs : List Char) : Bool :=
  match (dotted cs).getLast? with
  | some last => (!last.isEmpty && last.all isDigit) || (number? last).isSome
  | none => false

/-- The address that numbers make, the last one standing for all bytes that are left. -/
def joinNumbers : (bytesLeft : Nat) → List Nat → Option Nat
  | left, [n] => if n < Nat.pow 256 left then some n else none
  | left + 1, n :: rest => do
    if 255 < n then none
    else return n * Nat.pow 256 left + (← joinNumbers left rest)
  | _, _ => none

/-- Reads an address of four bytes. -/
def ipv4? (cs : List Char) : Option UInt32 := do
  let parts := dotted cs
  if 4 < parts.length then none
  return UInt32.ofNat (← joinNumbers 4 (← parts.mapM number?))

/-! ## Addresses of eight words -/

/-- A byte in base ten: without a zero before other digits. -/
def byte? (cs : List Char) : Option Nat := do
  let n ← digits? 10 cs
  if 255 < n || (1 < cs.length && cs.head? = some '0') then none
  return n

/-- The two words that four bytes in base ten make. -/
def byteWords? (cs : List Char) : Option (List Nat) := do
  match ← (pieces '.' cs).mapM byte? with
  | [a, b, c, d] => some [a * 256 + b, c * 256 + d]
  | _ => none

/-- A word: one to four digits in base sixteen. -/
def word? (cs : List Char) : Option Nat := if cs.length ≤ 4 then digits? 16 cs else none

/-- Words between colons. The last one may be four bytes. -/
def words? : List (List Char) → Option (List Nat)
  | [] => some []
  | [last] => if last.contains '.' then byteWords? last else (word? last).map ([·])
  | w :: rest => do return (← word? w) :: (← words? rest)

/-- The words before and after two colons in a row, if there are such. -/
def cutColons : List Char → Option (List Char × List Char)
  | ':' :: ':' :: rest => some ([], rest)
  | c :: rest => (cutColons rest).map fun p => (c :: p.1, p.2)
  | [] => none

/-- The words of a text; none of an empty one. -/
def wordsOf? (cs : List Char) : Option (List Nat) :=
  if cs.isEmpty then some [] else words? (pieces ':' cs)

/-- Reads an address of eight words. Two colons in a row stand for at least one word that is zero. -/
def ipv6? (cs : List Char) : Option (List Nat) := do
  match cutColons cs with
  | some (before, after) =>
    if before.contains '.' then none
    let front ← wordsOf? before
    let back ← wordsOf? after
    if 7 < front.length + back.length then none
    return front ++ List.replicate (8 - front.length - back.length) 0 ++ back
  | none =>
    let words ← wordsOf? cs
    if words.length = 8 then some words else none

/-! ## Hosts -/

/-- The bytes of a text in which escapes stand for bytes. An escape that is not one stands for
itself. -/
def unescape : List Char → List UInt8
  | '%' :: a :: b :: rest =>
    match digits? 16 [a, b] with
    | some n => n.toUInt8 :: unescape rest
    | none => '%'.toNat.toUInt8 :: unescape (a :: b :: rest)
  | c :: rest => (String.singleton c).toUTF8.data.toList ++ unescape rest
  | [] => []

/-- The address in brackets, if the text begins with one. -/
def bracketed? (cs : List Char) : Option (Except UrlError Host) :=
  match cs with
  | '[' :: rest =>
    match rest.getLast?, ipv6? rest.dropLast with
    | some ']', some words => some (.ok (.ipv6 words))
    | _, _ => some (.error .badIpv6)
  | _ => none

/-- Reads the host of a URL whose scheme knows domains. -/
def read (cs : List Char) : Except UrlError Host :=
  match bracketed? cs with
  | some host => host
  | none =>
    match (String.fromUTF8? ⟨(unescape cs).toArray⟩).bind Domain.normal? with
    | none => .error .badDomain
    | some name =>
      if name = "" then .error .emptyHost
      else if endsInNumber name.toList then
        match ipv4? name.toList with
        | some address => .ok (.ipv4 address)
        | none => .error .badIpv4
      else .ok (.domain name)

/-- Reads the host of a URL with any other scheme. -/
def readOpaque (cs : List Char) : Except UrlError Host :=
  match bracketed? cs with
  | some host => host
  | none =>
    if cs.any fun c => "\x00\t\n\r #/:<>?@[\\]^|".toList.contains c then .error .badHostCharacter
    else .ok (.domain (String.ofList cs))

end Host

end RouteFleet
