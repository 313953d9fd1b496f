import PushDelivery.Crypto.BigEndian

namespace PushDelivery

/-- Two rotations and a third one, or a shift in its place. -/
structure Sha2.Mixing where
  first : Nat
  second : Nat
  third : Nat

structure Sha2 (w : Nat) where
  roundConstants : List (BitVec w)
  start : List (BitVec w)
  early : Sha2.Mixing
  late : Sha2.Mixing
  lower : Sha2.Mixing
  upper : Sha2.Mixing

namespace Sha2

/-- The first 64 bits of the fractional parts of the cube roots of the first 80 primes. -/
def cubeRoots : List (BitVec 64) :=
  [0x428a2f98d728ae22, 0x7137449123ef65cd, 0xb5c0fbcfec4d3b2f, 0xe9b5dba58189dbbc,
    0x3956c25bf348b538, 0x59f111f1b605d019, 0x923f82a4af194f9b, 0xab1c5ed5da6d8118,
    0xd807aa98a3030242, 0x12835b0145706fbe, 0x243185be4ee4b28c, 0x550c7dc3d5ffb4e2,
    0x72be5d74f27b896f, 0x80deb1fe3b1696b1, 0x9bdc06a725c71235, 0xc19bf174cf692694,
    0xe49b69c19ef14ad2, 0xefbe4786384f25e3, 0x0fc19dc68b8cd5b5, 0x240ca1cc77ac9c65,
    0x2de92c6f592b0275, 0x4a7484aa6ea6e483, 0x5cb0a9dcbd41fbd4, 0x76f988da831153b5,
    0x983e5152ee66dfab, 0xa831c66d2db43210, 0xb00327c898fb213f, 0xbf597fc7beef0ee4,
    0xc6e00bf33da88fc2, 0xd5a79147930aa725, 0x06ca6351e003826f, 0x142929670a0e6e70,
    0x27b70a8546d22ffc, 0x2e1b21385c26c926, 0x4d2c6dfc5ac42aed, 0x53380d139d95b3df,
    0x650a73548baf63de, 0x766a0abb3c77b2a8, 0x81c2c92e47edaee6, 0x92722c851482353b,
    0xa2bfe8a14cf10364, 0xa81a664bbc423001, 0xc24b8b70d0f89791, 0xc76c51a30654be30,
    0xd192e819d6ef5218, 0xd69906245565a910, 0xf40e35855771202a, 0x106aa07032bbd1b8,
    0x19a4c116b8d2d0c8, 0x1e376c085141ab53, 0x2748774cdf8eeb99, 0x34b0bcb5e19b48a8,
    0x391c0cb3c5c95a63, 0x4ed8aa4ae3418acb, 0x5b9cca4f7763e373, 0x682e6ff3d6b2b8a3,
    0x748f82ee5defb2fc, 0x78a5636f43172f60, 0x84c87814a1f0ab72, 0x8cc702081a6439ec,
    0x90befffa23631e28, 0xa4506cebde82bde9, 0xbef9a3f7b2c67915, 0xc67178f2e372532b,
    0xca273eceea26619c, 0xd186b8c721c0c207, 0xeada7dd6cde0eb1e, 0xf57d4f7fee6ed178,
    0x06f067aa72176fba, 0x0a637dc5a2c898a6, 0x113f9804bef90dae, 0x1b710b35131c471b,
    0x28db77f523047d84, 0x32caab7b40c72493, 0x3c9ebe0a15c9bebc, 0x431d67c49c100d4c,
    0x4cc5d4becb3e42b6, 0x597f299cfc657e2a, 0x5fcb6fab3ad6faec, 0x6c44198c4a475817]

/-- The first 64 bits of the fractional parts of the square roots of the first eight primes. -/
def squareRoots : List (BitVec 64) :=
  [0x6a09e667f3bcc908, 0xbb67ae8584caa73b, 0x3c6ef372fe94f82b, 0xa54ff53a5f1d36f1,
    0x510e527fade682d1, 0x9b05688c2b3e6c1f, 0x1f83d9abfb41bd6b, 0x5be0cd19137e2179]

variable {w : Nat}

def extension (m : Mixing) (x : BitVec w) : BitVec w :=
  x.rotateRight m.first ^^^ x.rotateRight m.second ^^^ (x >>> m.third)

def turning (m : Mixing) (x : BitVec w) : BitVec w :=
  x.rotateRight m.first ^^^ x.rotateRight m.second ^^^ x.rotateRight m.third

/-- Adds a word that depends on the sixteen before it; the list runs backward. -/
def nextWord (h : Sha2 w) (ws : List (BitVec w)) : BitVec w :=
  ws.getD 15 0 + extension h.early (ws.getD 14 0) + ws.getD 6 0 + extension h.late (ws.getD 1 0)

def extend (h : Sha2 w) : Nat → List (BitVec w) → List (BitVec w)
  | 0, ws => ws
  | n + 1, ws => extend h n (h.nextWord ws :: ws)

/-- A word for each round, from a block of sixteen. -/
def schedule (h : Sha2 w) (block : List (BitVec w)) : List (BitVec w) :=
  (h.extend (h.roundConstants.length - 16) block.reverse).reverse

structure State (w : Nat) where
  a : BitVec w
  b : BitVec w
  c : BitVec w
  d : BitVec w
  e : BitVec w
  f : BitVec w
  g : BitVec w
  h : BitVec w

namespace State

def ofList (ws : List (BitVec w)) : State w :=
  ⟨ws.getD 0 0, ws.getD 1 0, ws.getD 2 0, ws.getD 3 0, ws.getD 4 0, ws.getD 5 0, ws.getD 6 0,
    ws.getD 7 0⟩

def toList (s : State w) : List (BitVec w) :=
  [s.a, s.b, s.c, s.d, s.e, s.f, s.g, s.h]

end State

def round (h : Sha2 w) (s : State w) (kw : BitVec w × BitVec w) : State w :=
  let choice := (s.e &&& s.f) ^^^ (~~~s.e &&& s.g)
  let majority := (s.a &&& s.b) ^^^ (s.a &&& s.c) ^^^ (s.b &&& s.c)
  let t := s.h + turning h.upper s.e + choice + kw.1 + kw.2
  ⟨t + (turning h.lower s.a + majority), s.a, s.b, s.c, s.d + t, s.e, s.f, s.g⟩

def compress (h : Sha2 w) (s : State w) (block : List (BitVec w)) : State w :=
  let t := (List.zip h.roundConstants (h.schedule block)).foldl h.round s
  .ofList (List.zipWith (· + ·) s.toList t.toList)

def compressAll (h : Sha2 w) : Nat → State w → List (BitVec w) → State w
  | 0, s, _ => s
  | n + 1, s, ws => compressAll h n (h.compress s (ws.take 16)) (ws.drop 16)

def words : Nat → List UInt8 → List (BitVec w)
  | 0, _ => []
  | n + 1, bytes =>
    BitVec.ofNat w (BigEndian.toNat (bytes.take (w / 8))) :: words n (bytes.drop (w / 8))

/-- A one bit, zeros as long as the length does not end a block, and the length in bits, which
takes two words. -/
def padding (w length : Nat) : List UInt8 :=
  let block := 2 * w
  let taken := (length + 1 + w / 4) % block
  0x80 :: List.replicate ((block - taken) % block) 0 ++ BigEndian.ofNat (w / 4) (length * 8)

def digest (h : Sha2 w) (message : List UInt8) : List UInt8 :=
  let bytes := message ++ padding w message.length
  let count := bytes.length / (w / 8)
  let s := h.compressAll (count / 16) (.ofList h.start) (words count bytes)
  s.toList.flatMap fun x => BigEndian.ofNat (w / 8) x.toNat

def firstHalf (x : BitVec 64) : BitVec 32 :=
  (x >>> 32).truncate 32

def sha256 : Sha2 32 where
  roundConstants := (cubeRoots.take 64).map firstHalf
  start := squareRoots.map firstHalf
  early := ⟨7, 18, 3⟩
  late := ⟨17, 19, 10⟩
  lower := ⟨2, 13, 22⟩
  upper := ⟨6, 11, 25⟩

def sha512 : Sha2 64 where
  roundConstants := cubeRoots
  start := squareRoots
  early := ⟨1, 8, 7⟩
  late := ⟨19, 61, 6⟩
  lower := ⟨28, 34, 39⟩
  upper := ⟨14, 18, 41⟩

end Sha2

end PushDelivery
