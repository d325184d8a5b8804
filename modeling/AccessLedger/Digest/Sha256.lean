/-!
# SHA-256

The digest of FIPS 180-4 over lists of bytes: `pad` fills a message up to
blocks of 64 bytes, `compress` takes one block into the eight words of the
state, and `digest` is the state after all blocks, as 32 bytes.
-/

namespace AccessLedger.Sha256

/-- The eight working words. -/
structure State where
  a : UInt32
  b : UInt32
  c : UInt32
  d : UInt32
  e : UInt32
  f : UInt32
  g : UInt32
  h : UInt32
  deriving DecidableEq, Repr

/-- The state before the first block. -/
def initial : State :=
  ⟨0x6a09e667, 0xbb67ae85, 0x3c6ef372, 0xa54ff53a, 0x510e527f, 0x9b05688c, 0x1f83d9ab, 0x5be0cd19⟩

/-- The constants of the 64 rounds. -/
def roundConstants : List UInt32 :=
  [0x428a2f98, 0x71374491, 0xb5c0fbcf, 0xe9b5dba5, 0x3956c25b, 0x59f111f1, 0x923f82a4, 0xab1c5ed5,
   0xd807aa98, 0x12835b01, 0x243185be, 0x550c7dc3, 0x72be5d74, 0x80deb1fe, 0x9bdc06a7, 0xc19bf174,
   0xe49b69c1, 0xefbe4786, 0x0fc19dc6, 0x240ca1cc, 0x2de92c6f, 0x4a7484aa, 0x5cb0a9dc, 0x76f988da,
   0x983e5152, 0xa831c66d, 0xb00327c8, 0xbf597fc7, 0xc6e00bf3, 0xd5a79147, 0x06ca6351, 0x14292967,
   0x27b70a85, 0x2e1b2138, 0x4d2c6dfc, 0x53380d13, 0x650a7354, 0x766a0abb, 0x81c2c92e, 0x92722c85,
   0xa2bfe8a1, 0xa81a664b, 0xc24b8b70, 0xc76c51a3, 0xd192e819, 0xd6990624, 0xf40e3585, 0x106aa070,
   0x19a4c116, 0x1e376c08, 0x2748774c, 0x34b0bcb5, 0x391c0cb3, 0x4ed8aa4a, 0x5b9cca4f, 0x682e6ff3,
   0x748f82ee, 0x78a5636f, 0x84c87814, 0x8cc70208, 0x90befffa, 0xa4506ceb, 0xbef9a3f7, 0xc67178f2]

/-- A word turned right by `n` bits. -/
def rotate (n w : UInt32) : UInt32 := (w >>> n) ||| (w <<< (32 - n))

/-- The word with these four bytes, the highest first. -/
def word (a b c d : UInt8) : UInt32 :=
  (a.toUInt32 <<< 24) ||| (b.toUInt32 <<< 16) ||| (c.toUInt32 <<< 8) ||| d.toUInt32

/-- The four bytes of a word, the highest first. -/
def wordBytes (w : UInt32) : List UInt8 :=
  [(w >>> 24).toUInt8, (w >>> 16).toUInt8, (w >>> 8).toUInt8, w.toUInt8]

/-- The words of a row of bytes; bytes that fill no word are dropped. -/
def words : List UInt8 → List UInt32
  | a :: b :: c :: d :: r => word a b c d :: words r
  | _ => []

/-- The next word of a schedule, given the last sixteen words with the latest first. -/
def nextWord (latest : List UInt32) : UInt32 :=
  let w (i : Nat) : UInt32 := latest.getD i 0
  let s0 := rotate 7 (w 14) ^^^ rotate 18 (w 14) ^^^ (w 14 >>> 3)
  let s1 := rotate 17 (w 1) ^^^ rotate 19 (w 1) ^^^ (w 1 >>> 10)
  w 15 + s0 + w 6 + s1

/-- `n` more words in front of a schedule that is kept with the latest word first. -/
def extend : Nat → List UInt32 → List UInt32
  | 0, latest => latest
  | n + 1, latest => extend n (nextWord latest :: latest)

/-- The words of the 64 rounds for one block. -/
def schedule (block : List UInt32) : List UInt32 := (extend 48 block.reverse).reverse

/-- One round, with its constant and its word. -/
def round (s : State) (k w : UInt32) : State :=
  let s1 := rotate 6 s.e ^^^ rotate 11 s.e ^^^ rotate 25 s.e
  let choice := (s.e &&& s.f) ^^^ (~~~s.e &&& s.g)
  let t1 := s.h + s1 + choice + k + w
  let s0 := rotate 2 s.a ^^^ rotate 13 s.a ^^^ rotate 22 s.a
  let majority := (s.a &&& s.b) ^^^ (s.a &&& s.c) ^^^ (s.b &&& s.c)
  let t2 := s0 + majority
  ⟨t1 + t2, s.a, s.b, s.c, s.d + t1, s.e, s.f, s.g⟩

/-- The sums of the words of two states. -/
def State.add (s t : State) : State :=
  ⟨s.a + t.a, s.b + t.b, s.c + t.c, s.d + t.d, s.e + t.e, s.f + t.f, s.g + t.g, s.h + t.h⟩

/-- Take one block of sixteen words into the state. -/
def compress (s : State) (block : List UInt32) : State :=
  s.add ((roundConstants.zip (schedule block)).foldl (fun s (k, w) => round s k w) s)

/-- Take a row of words into the state, sixteen at a time, at most `n` times. -/
def absorb : Nat → State → List UInt32 → State
  | 0, s, _ => s
  | _ + 1, s, [] => s
  | n + 1, s, ws => absorb n (compress s (ws.take 16)) (ws.drop 16)

/-- A message followed by a one bit, zeros and its length in bits, in whole blocks. -/
def pad (message : List UInt8) : List UInt8 :=
  let n := message.length
  let zeros := (119 - n % 64) % 64
  let bits := UInt64.ofNat (8 * n)
  message ++ ([0x80] : List UInt8) ++ List.replicate zeros (0 : UInt8) ++
    wordBytes (bits >>> 32).toUInt32 ++ wordBytes bits.toUInt32

/-- The bytes of a state. -/
def State.toBytes (s : State) : List UInt8 :=
  [s.a, s.b, s.c, s.d, s.e, s.f, s.g, s.h].flatMap wordBytes

/-- The digest of a message. -/
def digest (message : List UInt8) : List UInt8 :=
  let ws := words (pad message)
  (absorb ws.length initial ws).toBytes

/-- Bytes in lower-case hexadecimal digits. -/
def hex (bs : List UInt8) : List Char :=
  bs.flatMap fun b => [Nat.digitChar (b.toNat / 16), Nat.digitChar (b.toNat % 16)]

end AccessLedger.Sha256
