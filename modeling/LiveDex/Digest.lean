import LiveDex.Bytes

/-!
The SHA-1 digest of a byte string, which signs containers. The message is padded to whole blocks
of 64 bytes, each block is folded into a state of five words, and the state is written out in
the big order.
-/
namespace LiveDex.Digest

structure State where
  a : UInt32
  b : UInt32
  c : UInt32
  d : UInt32
  e : UInt32

def State.initial : State :=
  ⟨0x67452301, 0xefcdab89, 0x98badcfe, 0x10325476, 0xc3d2e1f0⟩

def rotate (x n : UInt32) : UInt32 :=
  (x <<< n) ||| (x >>> (32 - n))

def words : Bytes → List UInt32
  | b₁ :: b₂ :: b₃ :: b₄ :: rest =>
    ((b₁.toUInt32 <<< 24) ||| (b₂.toUInt32 <<< 16) ||| (b₃.toUInt32 <<< 8) ||| b₄.toUInt32)
      :: words rest
  | _ => []

/-- Adds `n` words to a schedule that is held newest first. -/
def extendSchedule : Nat → List UInt32 → List UInt32
  | 0, ws => ws
  | n + 1, ws =>
    let next := ws.getD 2 0 ^^^ ws.getD 7 0 ^^^ ws.getD 13 0 ^^^ ws.getD 15 0
    extendSchedule n (rotate next 1 :: ws)

def schedule (block : Bytes) : List UInt32 :=
  (extendSchedule 64 (words block).reverse).reverse

def mix (round : Nat) (b c d : UInt32) : UInt32 :=
  if round < 20 then (b &&& c) ||| (~~~b &&& d)
  else if round < 40 then b ^^^ c ^^^ d
  else if round < 60 then (b &&& c) ||| (b &&& d) ||| (c &&& d)
  else b ^^^ c ^^^ d

def roundConstant (round : Nat) : UInt32 :=
  if round < 20 then 0x5a827999
  else if round < 40 then 0x6ed9eba1
  else if round < 60 then 0x8f1bbcdc
  else 0xca62c1d6

def State.step (s : State) (round : Nat) (w : UInt32) : State :=
  let next := rotate s.a 5 + mix round s.b s.c s.d + s.e + roundConstant round + w
  ⟨next, s.a, rotate s.b 30, s.c, s.d⟩

def roundsFrom (round : Nat) (s : State) : List UInt32 → State
  | [] => s
  | w :: ws => roundsFrom (round + 1) (s.step round w) ws

def State.absorb (s : State) (block : Bytes) : State :=
  let t := roundsFrom 0 s (schedule block)
  ⟨s.a + t.a, s.b + t.b, s.c + t.c, s.d + t.d, s.e + t.e⟩

/-- Folds `n` blocks, taken from the front of the byte string, into the state. -/
def absorbBlocks : Nat → State → Bytes → State
  | 0, s, _ => s
  | n + 1, s, bytes => absorbBlocks n (s.absorb (bytes.take 64)) (bytes.drop 64)

/-- A one bit, as few zeros as make whole blocks, and the length in bits. -/
def pad (message : Bytes) : Bytes :=
  let zeros := (119 - message.length % 64) % 64
  message ++ 0x80 :: (List.replicate zeros 0 ++ Bytes.ofNat .big 8 (8 * message.length))

def State.toBytes (s : State) : Bytes :=
  [s.a, s.b, s.c, s.d, s.e].flatMap fun w => Bytes.ofNat .big 4 w.toNat

def sha1 (message : Bytes) : Bytes :=
  let padded := pad message
  (absorbBlocks (padded.length / 64) .initial padded).toBytes

theorem length_sha1 (message : Bytes) : (sha1 message).length = 20 := by
  simp [sha1, State.toBytes, Bytes.length_ofNat]

end LiveDex.Digest
