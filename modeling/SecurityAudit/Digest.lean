import SecurityAudit.Text.Encoding
import SecurityAudit.Text.Quoted

/-!
# Digests

The digest of a text by the first secure hash standard, in hexadecimal.  The text is padded to
whole blocks of 64 bytes; each block is stretched to eighty words, which are mixed into five state
words one after another.
-/

namespace SecurityAudit.Digest

/-- The state between two blocks. -/
structure State where
  a : UInt32
  b : UInt32
  c : UInt32
  d : UInt32
  e : UInt32
  deriving Repr, DecidableEq

/-- The state before the first block. -/
def State.initial : State :=
  ⟨0x67452301, 0xEFCDAB89, 0x98BADCFE, 0x10325476, 0xC3D2E1F0⟩

/-- Turn the bits of a word to the left, by `n` places of thirty-two. -/
def rotate (x : UInt32) (n : UInt32) : UInt32 :=
  (x <<< n) ||| (x >>> (32 - n))

/-- The bytes of a number, eight of them, the highest first. -/
def lengthBytes (n : Nat) : List UInt8 :=
  [56, 48, 40, 32, 24, 16, 8, 0].map fun shift => UInt8.ofNat (n / Nat.pow 2 shift % 256)

/-- The bytes followed by a one bit, zeros, and their number in bits, in whole blocks. -/
def padded (bytes : List UInt8) : List UInt8 :=
  let zeros := (64 - (bytes.length + 9) % 64) % 64
  bytes ++ 0x80 :: List.replicate zeros 0 ++ lengthBytes (8 * bytes.length)

/-- The words of a sequence of bytes, the highest byte first. -/
def words : List UInt8 → List UInt32
  | a :: b :: c :: d :: rest =>
    ((a.toUInt32 <<< 24) ||| (b.toUInt32 <<< 16) ||| (c.toUInt32 <<< 8) ||| d.toUInt32) ::
      words rest
  | _ => []

/-- Add `count` words to a schedule, which holds its latest word first: each is made of the words
three, eight, fourteen and sixteen places before it. -/
def stretch : (count : Nat) → List UInt32 → List UInt32
  | 0, schedule => schedule
  | count + 1, schedule =>
    let word (k : Nat) : UInt32 := schedule.getD k 0
    stretch count (rotate (word 2 ^^^ word 7 ^^^ word 13 ^^^ word 15) 1 :: schedule)

/-- The mixing function and the constant of a round. -/
def round (i : Nat) (s : State) : UInt32 × UInt32 :=
  if i < 20 then ((s.b &&& s.c) ||| (~~~s.b &&& s.d), 0x5A827999)
  else if i < 40 then (s.b ^^^ s.c ^^^ s.d, 0x6ED9EBA1)
  else if i < 60 then ((s.b &&& s.c) ||| (s.b &&& s.d) ||| (s.c &&& s.d), 0x8F1BBCDC)
  else (s.b ^^^ s.c ^^^ s.d, 0xCA62C1D6)

/-- Mix the words of a schedule into the state, from round `i` on. -/
def rounds : (i : Nat) → State → List UInt32 → State
  | _, s, [] => s
  | i, s, w :: rest =>
    let (f, k) := round i s
    let a := rotate s.a 5 + f + s.e + k + w
    rounds (i + 1) ⟨a, s.a, rotate s.b 30, s.c, s.d⟩ rest

/-- The state after one more block of sixteen words. -/
def block (s : State) (ws : List UInt32) : State :=
  let t := rounds 0 s (stretch 64 ws.reverse).reverse
  ⟨s.a + t.a, s.b + t.b, s.c + t.c, s.d + t.d, s.e + t.e⟩

/-- The state after all blocks; `fuel` bounds their number. -/
def blocks : (fuel : Nat) → State → List UInt32 → State
  | 0, s, _ => s
  | fuel + 1, s, ws =>
    if ws.isEmpty then s else blocks fuel (block s (ws.take 16)) (ws.drop 16)

/-- The digest of a text, forty hexadecimal digits. -/
def hex (text : List Char) : List Char :=
  let ws := words (padded (Text.utf8Bytes text))
  let s := blocks ws.length State.initial ws
  [s.a, s.b, s.c, s.d, s.e].flatMap fun w => Text.hexDigits 8 w.toNat

end SecurityAudit.Digest
