import SignatureCatalog.Bytes

/-!
# SHA-256

The hash function of the sample scheme: the message is padded to blocks of sixteen 32-bit words, and
each block is folded into a chaining value of eight words by sixty-four rounds.
-/

namespace SignatureCatalog.Sample.Sha256

/-- A chaining value. -/
structure State where
  a : UInt32
  b : UInt32
  c : UInt32
  d : UInt32
  e : UInt32
  f : UInt32
  g : UInt32
  h : UInt32
  deriving DecidableEq, Repr

/-- The first chaining value. -/
def initial : State :=
  ⟨0x6a09e667, 0xbb67ae85, 0x3c6ef372, 0xa54ff53a, 0x510e527f, 0x9b05688c, 0x1f83d9ab, 0x5be0cd19⟩

/-- The constants of the rounds. -/
def constants : List UInt32 :=
  [0x428a2f98, 0x71374491, 0xb5c0fbcf, 0xe9b5dba5, 0x3956c25b, 0x59f111f1, 0x923f82a4, 0xab1c5ed5,
   0xd807aa98, 0x12835b01, 0x243185be, 0x550c7dc3, 0x72be5d74, 0x80deb1fe, 0x9bdc06a7, 0xc19bf174,
   0xe49b69c1, 0xefbe4786, 0x0fc19dc6, 0x240ca1cc, 0x2de92c6f, 0x4a7484aa, 0x5cb0a9dc, 0x76f988da,
   0x983e5152, 0xa831c66d, 0xb00327c8, 0xbf597fc7, 0xc6e00bf3, 0xd5a79147, 0x06ca6351, 0x14292967,
   0x27b70a85, 0x2e1b2138, 0x4d2c6dfc, 0x53380d13, 0x650a7354, 0x766a0abb, 0x81c2c92e, 0x92722c85,
   0xa2bfe8a1, 0xa81a664b, 0xc24b8b70, 0xc76c51a3, 0xd192e819, 0xd6990624, 0xf40e3585, 0x106aa070,
   0x19a4c116, 0x1e376c08, 0x2748774c, 0x34b0bcb5, 0x391c0cb3, 0x4ed8aa4a, 0x5b9cca4f, 0x682e6ff3,
   0x748f82ee, 0x78a5636f, 0x84c87814, 0x8cc70208, 0x90befffa, 0xa4506ceb, 0xbef9a3f7, 0xc67178f2]

/-- Rotation to the right; the amounts in use are between 1 and 31. -/
def rotate (x : UInt32) (n : UInt32) : UInt32 :=
  (x >>> n) ||| (x <<< (32 - n))

/-- The four octets of a word, most significant first. -/
def wordOctets (w : UInt32) : Bytes :=
  [(w >>> 24).toUInt8, (w >>> 16).toUInt8, (w >>> 8).toUInt8, w.toUInt8]

/-- The words of a string of octets; an incomplete word at the end is left out. -/
def words : Bytes → List UInt32
  | a :: b :: c :: d :: rest =>
    ((a.toUInt32 <<< 24) ||| (b.toUInt32 <<< 16) ||| (c.toUInt32 <<< 8) ||| d.toUInt32) ::
      words rest
  | _ => []

/-- The message with a one bit, zeros, and its length in bits as 64-bit number, which fills blocks
of 64 octets. -/
def pad (message : Bytes) : Bytes :=
  let bits := UInt64.ofNat (8 * message.length)
  -- With the octet for the one bit and eight for the length, 119 makes the sum a multiple of 64.
  message ++ ((0x80 : UInt8) :: List.replicate ((119 - message.length % 64) % 64) 0) ++
    wordOctets (bits >>> 32).toUInt32 ++ wordOctets bits.toUInt32

/-- Continues a schedule, whose words come latest first, by some more words. -/
def extend : (count : Nat) → List UInt32 → List UInt32
  | 0, schedule => schedule
  | count + 1, schedule =>
    -- Two, seven, fifteen and sixteen words back, counted from the word to come.
    let w2 := schedule.getD 1 0
    let w15 := schedule.getD 14 0
    let s0 := rotate w15 7 ^^^ rotate w15 18 ^^^ (w15 >>> 3)
    let s1 := rotate w2 17 ^^^ rotate w2 19 ^^^ (w2 >>> 10)
    extend count ((s1 + schedule.getD 6 0 + s0 + schedule.getD 15 0) :: schedule)

/-- One round, with the sum of its constant and its word. -/
def round (s : State) (kw : UInt32) : State :=
  let s1 := rotate s.e 6 ^^^ rotate s.e 11 ^^^ rotate s.e 25
  let choice := (s.e &&& s.f) ^^^ (~~~s.e &&& s.g)
  let t1 := s.h + s1 + choice + kw
  let s0 := rotate s.a 2 ^^^ rotate s.a 13 ^^^ rotate s.a 22
  let majority := (s.a &&& s.b) ^^^ (s.a &&& s.c) ^^^ (s.b &&& s.c)
  ⟨t1 + (s0 + majority), s.a, s.b, s.c, s.d + t1, s.e, s.f, s.g⟩

/-- Folds a block of sixteen words into a chaining value. -/
def compress (s : State) (block : List UInt32) : State :=
  let schedule := (extend 48 block.reverse).reverse
  let t := (List.zipWith (· + ·) constants schedule).foldl round s
  ⟨s.a + t.a, s.b + t.b, s.c + t.c, s.d + t.d, s.e + t.e, s.f + t.f, s.g + t.g, s.h + t.h⟩

/-- Folds a number of blocks into a chaining value. -/
def absorb : (blocks : Nat) → State → List UInt32 → State
  | 0, s, _ => s
  | blocks + 1, s, ws => absorb blocks (compress s (ws.take 16)) (ws.drop 16)

/-- The octets of a chaining value. -/
def State.octets (s : State) : Bytes :=
  [s.a, s.b, s.c, s.d, s.e, s.f, s.g, s.h].flatMap wordOctets

/-- The digest of a message. -/
def digest (message : Bytes) : Bytes :=
  let padded := pad message
  (absorb (padded.length / 64) initial (words padded)).octets

/-- A digest has thirty-two octets. -/
@[simp] theorem length_digest (message : Bytes) : (digest message).length = 32 := by
  simp [digest, State.octets, wordOctets]

/-- The digest of the empty message. -/
example : digest [] =
    [0xe3, 0xb0, 0xc4, 0x42, 0x98, 0xfc, 0x1c, 0x14, 0x9a, 0xfb, 0xf4, 0xc8, 0x99, 0x6f, 0xb9, 0x24,
     0x27, 0xae, 0x41, 0xe4, 0x64, 0x9b, 0x93, 0x4c, 0xa4, 0x95, 0x99, 0x1b, 0x78, 0x52, 0xb8,
     0x55] := by
  decide +kernel

end SignatureCatalog.Sample.Sha256
