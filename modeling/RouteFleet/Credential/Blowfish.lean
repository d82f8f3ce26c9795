import RouteFleet.Credential.PiDigits

/-! # The Blowfish cipher

A cipher of blocks of two words, in sixteen rounds. Its tables begin as the digits of π and are
changed by a key: the key is added to the table of rounds, and then each pair of words in the tables
is replaced by what the cipher makes of the pair before it.
-/

namespace RouteFleet.Blowfish

/-- The tables of a cipher: a word for each round and two more, and four tables of 256 words that
follow each other. -/
structure Tables where
  rounds : Array UInt32
  boxes : Array UInt32

/-- A block. -/
abbrev Block := UInt32 × UInt32

/-- How many words the table of rounds has. -/
def roundCount : Nat := 18

/-- How many words the four tables have. -/
def boxCount : Nat := 1024

/-- The tables before there is a key. -/
def Tables.start : Tables :=
  let digits := Pi.words (roundCount + boxCount)
  { rounds := digits.extract 0 roundCount, boxes := digits.extract roundCount digits.size }

/-! ## Enciphering -/

/-- The word that the tables make of one half of a block. -/
def Tables.mix (t : Tables) (x : UInt32) : UInt32 :=
  let a := t.boxes.getD (x >>> 24).toNat 0
  let b := t.boxes.getD (256 + ((x >>> 16) &&& 0xff).toNat) 0
  let c := t.boxes.getD (512 + ((x >>> 8) &&& 0xff).toNat) 0
  let d := t.boxes.getD (768 + (x &&& 0xff).toNat) 0
  ((a + b) ^^^ c) + d

/-- The rounds that are left, `left` of sixteen. -/
def Tables.run (t : Tables) : (left : Nat) → Block → Block
  | 0, (l, r) => (r ^^^ t.rounds.getD 17 0, l ^^^ t.rounds.getD 16 0)
  | n + 1, (l, r) =>
    let l := l ^^^ t.rounds.getD (15 - n) 0
    t.run n (r ^^^ t.mix l, l)

/-- What the cipher makes of a block. -/
def Tables.encipher (t : Tables) (b : Block) : Block := t.run 16 b

/-! ## Keys -/

/-- The four bytes of a key at `i`, over and over again, as a word. -/
def wordAt (key : ByteArray) (i : Nat) : UInt32 :=
  let byte (k : Nat) : UInt32 := (key.data.getD ((4 * i + k) % key.size) 0).toUInt32
  (byte 0 <<< 24) ||| (byte 1 <<< 16) ||| (byte 2 <<< 8) ||| byte 3

/-- Adds a key to the table of rounds. -/
def Tables.addKey (t : Tables) (key : ByteArray) : Tables :=
  { t with rounds := t.rounds.mapIdx fun i w => w ^^^ wordAt key i }

/-- Replaces the pair of words at `2 * i`, counted through all tables. -/
def Tables.setPair (t : Tables) (i : Nat) (b : Block) : Tables :=
  if 2 * i < roundCount then
    { t with rounds := (t.rounds.setIfInBounds (2 * i) b.1).setIfInBounds (2 * i + 1) b.2 }
  else
    let place := 2 * i - roundCount
    { t with boxes := (t.boxes.setIfInBounds place b.1).setIfInBounds (place + 1) b.2 }

/-- Replaces the pairs that are left, `left` of all, each by what the cipher makes of the pair before
it with two words of the salt added. -/
def replacePairs (salt : Nat → UInt32) : (left : Nat) → Block → Tables → Tables
  | 0, _, t => t
  | n + 1, (l, r), t =>
    let i := (roundCount + boxCount) / 2 - (n + 1)
    let b := t.encipher (l ^^^ salt (2 * i), r ^^^ salt (2 * i + 1))
    replacePairs salt n b (t.setPair i b)

/-- The tables after a key, with a salt. -/
def Tables.expand (t : Tables) (salt : Nat → UInt32) (key : ByteArray) : Tables :=
  replacePairs salt ((roundCount + boxCount) / 2) (0, 0) (t.addKey key)

end RouteFleet.Blowfish
