/-
# Digests of texts

The SHA-256 digest of a list of bytes: the message is padded to blocks of 64
bytes, each block is spread to 64 words, and 64 rounds mix the words into a
state of eight. A text is digested through its UTF-8 bytes.

Key definitions: `Digest.padded`, `Digest.schedule`, `Digest.compress`,
`Digest.hex`, `Text.fingerprint`.
-/
import Augur.Text.Blank
import Augur.Text.LowerCase

namespace Augur.Digest

/-- The constants of the rounds. -/
def roundConstants : List UInt32 := [
  0x428a2f98, 0x71374491, 0xb5c0fbcf, 0xe9b5dba5, 0x3956c25b, 0x59f111f1, 0x923f82a4, 0xab1c5ed5,
  0xd807aa98, 0x12835b01, 0x243185be, 0x550c7dc3, 0x72be5d74, 0x80deb1fe, 0x9bdc06a7, 0xc19bf174,
  0xe49b69c1, 0xefbe4786, 0x0fc19dc6, 0x240ca1cc, 0x2de92c6f, 0x4a7484aa, 0x5cb0a9dc, 0x76f988da,
  0x983e5152, 0xa831c66d, 0xb00327c8, 0xbf597fc7, 0xc6e00bf3, 0xd5a79147, 0x06ca6351, 0x14292967,
  0x27b70a85, 0x2e1b2138, 0x4d2c6dfc, 0x53380d13, 0x650a7354, 0x766a0abb, 0x81c2c92e, 0x92722c85,
  0xa2bfe8a1, 0xa81a664b, 0xc24b8b70, 0xc76c51a3, 0xd192e819, 0xd6990624, 0xf40e3585, 0x106aa070,
  0x19a4c116, 0x1e376c08, 0x2748774c, 0x34b0bcb5, 0x391c0cb3, 0x4ed8aa4a, 0x5b9cca4f, 0x682e6ff3,
  0x748f82ee, 0x78a5636f, 0x84c87814, 0x8cc70208, 0x90befffa, 0xa4506ceb, 0xbef9a3f7, 0xc67178f2]

/-- The eight words that the rounds mix. -/
structure State where
  a : UInt32
  b : UInt32
  c : UInt32
  d : UInt32
  e : UInt32
  f : UInt32
  g : UInt32
  h : UInt32

/-- The state before the first block. -/
def start : State :=
  ⟨0x6a09e667, 0xbb67ae85, 0x3c6ef372, 0xa54ff53a, 0x510e527f, 0x9b05688c, 0x1f83d9ab, 0x5be0cd19⟩

/-- The word turned right by `n` bits. -/
def turn (w n : UInt32) : UInt32 := (w >>> n) ||| (w <<< (32 - n))

/-- The four bytes of a word, the highest first. -/
def bytesOf (w : UInt32) : List UInt8 :=
  [(w >>> 24).toUInt8, (w >>> 16).toUInt8, (w >>> 8).toUInt8, w.toUInt8]

/-- The words of bytes, four bytes each, the highest first. -/
def wordsOf : List UInt8 → List UInt32
  | p :: q :: r :: s :: rest =>
    ((p.toUInt32 <<< 24) ||| (q.toUInt32 <<< 16) ||| (r.toUInt32 <<< 8) ||| s.toUInt32)
      :: wordsOf rest
  | _ => []

/-- The message with a one bit behind it, zeros up to eight bytes before the end of a block,
and its length in bits. -/
def padded (bytes : List UInt8) : List UInt8 :=
  let bits := 8 * bytes.length
  bytes ++ [0x80] ++ List.replicate ((119 - bytes.length % 64) % 64) 0
    ++ bytesOf (UInt32.ofNat (bits / 4294967296)) ++ bytesOf (UInt32.ofNat bits)

/-- The word that follows the last sixteen of a schedule, given newest first. -/
def nextWord (newest : List UInt32) : UInt32 :=
  let at16 := newest.getD 15 0
  let at15 := newest.getD 14 0
  let at7 := newest.getD 6 0
  let at2 := newest.getD 1 0
  at16 + (turn at15 7 ^^^ turn at15 18 ^^^ (at15 >>> 3)) + at7
    + (turn at2 17 ^^^ turn at2 19 ^^^ (at2 >>> 10))

/-- A schedule, newest word first, with `n` more words. -/
def extend : Nat → List UInt32 → List UInt32
  | 0, newest => newest
  | n + 1, newest => extend n (nextWord newest :: newest)

/-- The 64 words of a block of sixteen. -/
def schedule (block : List UInt32) : List UInt32 := (extend 48 block.reverse).reverse

/-- One round, with its constant and its word. -/
def round (s : State) (k : UInt32 × UInt32) : State :=
  let t1 := s.h + (turn s.e 6 ^^^ turn s.e 11 ^^^ turn s.e 25)
    + ((s.e &&& s.f) ^^^ (~~~s.e &&& s.g)) + k.1 + k.2
  let t2 := (turn s.a 2 ^^^ turn s.a 13 ^^^ turn s.a 22)
    + ((s.a &&& s.b) ^^^ (s.a &&& s.c) ^^^ (s.b &&& s.c))
  ⟨t1 + t2, s.a, s.b, s.c, s.d + t1, s.e, s.f, s.g⟩

/-- The state after a block. -/
def compress (s : State) (block : List UInt32) : State :=
  let t := (roundConstants.zip (schedule block)).foldl round s
  ⟨s.a + t.a, s.b + t.b, s.c + t.c, s.d + t.d, s.e + t.e, s.f + t.f, s.g + t.g, s.h + t.h⟩

/-- The first `n` blocks of sixteen words, one after another. -/
def blocks : Nat → State → List UInt32 → State
  | 0, s, _ => s
  | n + 1, s, ws => blocks n (compress s (ws.take 16)) (ws.drop 16)

/-- The 32 bytes of the digest. -/
def ofBytes (bytes : List UInt8) : List UInt8 :=
  let ws := wordsOf (padded bytes)
  let s := blocks (ws.length / 16) start ws
  [s.a, s.b, s.c, s.d, s.e, s.f, s.g, s.h].flatMap bytesOf

/-- Two hexadecimal digits. -/
def hexByte (b : UInt8) : List Char :=
  [Nat.digitChar (b.toNat / 16), Nat.digitChar (b.toNat % 16)]

/-- The digest of a text in hexadecimal digits. -/
def hex (s : String) : String := String.ofList ((ofBytes s.toUTF8.toList).flatMap hexByte)

end Augur.Digest

namespace Augur.Text

/-- A short mark of a text that does not tell the text: the first sixteen digits of the digest
of its words in small letters. -/
def fingerprint (s : String) : String := ((Digest.hex (collapse (lower s))).take 16).toString

end Augur.Text
