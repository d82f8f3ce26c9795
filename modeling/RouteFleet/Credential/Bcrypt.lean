import RouteFleet.Credential.Blowfish
import RouteFleet.Credential.Hasher
import RouteFleet.Text.Split

/-! # Hashes that are slow to make

A password's hash is what a cipher makes of a fixed text when its tables have been changed by the
password and a salt, in turns, 2 to the power of the cost many times. It is written with the cost and
the salt before it, so that whoever knows the password can make it again.

Only the first 72 bytes of a password count, with a zero byte after its end among them.
-/

namespace RouteFleet.Bcrypt

open Text Blowfish

/-- The cost that is taken where none is given. -/
def defaultCost : Nat := 12

/-- How many bytes a salt has. -/
def saltSize : Nat := 16

/-- How many bytes of a password count. -/
def passwordLimit : Nat := 72

/-! ## Digits -/

/-- The digits, by their values. -/
def alphabet : List Char :=
  "./ABCDEFGHIJKLMNOPQRSTUVWXYZabcdefghijklmnopqrstuvwxyz0123456789".toList

/-- The digit of a value below 64. -/
def digit (n : Nat) : Char := alphabet.getD n '.'

/-- The digits of some bytes: four for three bytes, and one more than bytes for those at the end. -/
def encode : List UInt8 → List Char
  | a :: b :: c :: rest =>
    let n := a.toNat * 65536 + b.toNat * 256 + c.toNat
    digit (n / 262144) :: digit (n / 4096 % 64) :: digit (n / 64 % 64) :: digit (n % 64) ::
      encode rest
  | [a, b] =>
    let n := a.toNat * 65536 + b.toNat * 256
    [digit (n / 262144), digit (n / 4096 % 64), digit (n / 64 % 64)]
  | [a] => [digit (a.toNat / 4), digit (a.toNat % 4 * 16)]
  | [] => []

/-- The bytes that digits spell. What is left of a group at the end counts as far as it fills
bytes. -/
def decode? (cs : List Char) : Option (List UInt8) := do
  let values ← cs.mapM fun c => alphabet.findIdx? (· == c)
  return bytes values
where
  /-- The bytes of some values below 64. -/
  bytes : List Nat → List UInt8
    | a :: b :: c :: d :: rest =>
      (a * 4 + b / 16).toUInt8 :: (b % 16 * 16 + c / 4).toUInt8 :: (c % 4 * 64 + d).toUInt8 ::
        bytes rest
    | [a, b, c] => [(a * 4 + b / 16).toUInt8, (b % 16 * 16 + c / 4).toUInt8]
    | [a, b] => [(a * 4 + b / 16).toUInt8]
    | _ => []

/-! ## Hashing -/

/-- The bytes of a password that count. -/
def keyOf (password : String) : ByteArray :=
  (password.toUTF8.push 0).extract 0 passwordLimit

/-- Changes tables by a password and a salt, in turns. -/
def stretch (key salt : ByteArray) : (turns : Nat) → Tables → Tables
  | 0, t => t
  | n + 1, t =>
    stretch key salt n ((t.expand (fun _ => 0) key).expand (fun _ => 0) salt)

/-- Enciphers a block `n` times. -/
def encipherTimes (t : Tables) : Nat → Block → Block
  | 0, b => b
  | n + 1, b => encipherTimes t n (t.encipher b)

/-- The four bytes of a word. -/
def bytesOfWord (w : UInt32) : List UInt8 :=
  [(w >>> 24).toUInt8, (w >>> 16).toUInt8, (w >>> 8).toUInt8, w.toUInt8]

/-- The text that is enciphered, in words. -/
def magic : List Block :=
  [(0x4f727068, 0x65616e42), (0x65686f6c, 0x64657253), (0x63727944, 0x6f756274)]

/-- The 23 bytes that a password comes to. -/
def digest (cost : Nat) (salt : ByteArray) (password : String) : List UInt8 :=
  let key := keyOf password
  let t := stretch key salt (Nat.pow 2 cost) (Tables.start.expand (wordAt salt) key)
  (magic.flatMap fun b =>
    let c := encipherTimes t 64 b
    bytesOfWord c.1 ++ bytesOfWord c.2).take 23

/-- A number with two digits. -/
def twoDigits (n : Nat) : String := if n < 10 then "0" ++ toString n else toString n

/-- The hash of a password. -/
def hash (cost : Nat) (salt : ByteArray) (password : String) : Except HashError String :=
  if 4 ≤ cost && cost ≤ 31 then
    .ok ("$2b$" ++ twoDigits cost ++ "$" ++
      String.ofList (encode salt.data.toList ++ encode (digest cost salt password)))
  else .error (.costNotAllowed cost)

/-- Whether a password has a hash. -/
def verify (password stored : String) : Bool :=
  match (pieces '$' stored.toList).drop 2 with
  | [cost, rest] =>
    match digits? 10 cost, decode? (rest.take 22) with
    | some cost, some salt =>
      match hash cost ⟨salt.toArray⟩ password with
      | .ok again => again = stored
      | .error _ => false
    | _, _ => false
  | _ => false

/-- Hashes passwords with one salt, at the cost that is taken where none is given. -/
def hasher (salt : ByteArray) : Hasher := hash defaultCost salt

end RouteFleet.Bcrypt
