import GhostBridge.Ecma.Utf8

/-!
# SHA-256

Words are natural numbers below `2^32`.
-/

namespace Ecma

namespace Sha256

def word (n : Nat) : Nat := n % 4294967296
def rotr (n x : Nat) : Nat := word ((x >>> n) ||| (x <<< (32 - n)))
def smallSigma0 (x : Nat) : Nat := rotr 7 x ^^^ rotr 18 x ^^^ (x >>> 3)
def smallSigma1 (x : Nat) : Nat := rotr 17 x ^^^ rotr 19 x ^^^ (x >>> 10)
def bigSigma0 (x : Nat) : Nat := rotr 2 x ^^^ rotr 13 x ^^^ rotr 22 x
def bigSigma1 (x : Nat) : Nat := rotr 6 x ^^^ rotr 11 x ^^^ rotr 25 x
def ch (x y z : Nat) : Nat := (x &&& y) ^^^ ((4294967295 - x) &&& z)
def maj (x y z : Nat) : Nat := (x &&& y) ^^^ (x &&& z) ^^^ (y &&& z)

def roundConstants : List Nat :=
  [0x428a2f98, 0x71374491, 0xb5c0fbcf, 0xe9b5dba5, 0x3956c25b, 0x59f111f1, 0x923f82a4,
    0xab1c5ed5, 0xd807aa98, 0x12835b01, 0x243185be, 0x550c7dc3, 0x72be5d74, 0x80deb1fe,
    0x9bdc06a7, 0xc19bf174, 0xe49b69c1, 0xefbe4786, 0x0fc19dc6, 0x240ca1cc, 0x2de92c6f,
    0x4a7484aa, 0x5cb0a9dc, 0x76f988da, 0x983e5152, 0xa831c66d, 0xb00327c8, 0xbf597fc7,
    0xc6e00bf3, 0xd5a79147, 0x06ca6351, 0x14292967, 0x27b70a85, 0x2e1b2138, 0x4d2c6dfc,
    0x53380d13, 0x650a7354, 0x766a0abb, 0x81c2c92e, 0x92722c85, 0xa2bfe8a1, 0xa81a664b,
    0xc24b8b70, 0xc76c51a3, 0xd192e819, 0xd6990624, 0xf40e3585, 0x106aa070, 0x19a4c116,
    0x1e376c08, 0x2748774c, 0x34b0bcb5, 0x391c0cb3, 0x4ed8aa4a, 0x5b9cca4f, 0x682e6ff3,
    0x748f82ee, 0x78a5636f, 0x84c87814, 0x8cc70208, 0x90befffa, 0xa4506ceb, 0xbef9a3f7,
    0xc67178f2]

structure State where
  (a b c d e f g h : Nat)

def initial : State :=
  ⟨0x6a09e667, 0xbb67ae85, 0x3c6ef372, 0xa54ff53a, 0x510e527f, 0x9b05688c, 0x1f83d9ab,
    0x5be0cd19⟩

def nextWord (window : List Nat) : Nat :=
  word (smallSigma1 (window.getD 14 0) + window.getD 9 0 + smallSigma0 (window.getD 1 0) +
    window.getD 0 0)

def round (s : State) (k w : Nat) : State :=
  let t1 := word (s.h + bigSigma1 s.e + ch s.e s.f s.g + k + w)
  let t2 := word (bigSigma0 s.a + maj s.a s.b s.c)
  ⟨word (t1 + t2), s.a, s.b, s.c, word (s.d + t1), s.e, s.f, s.g⟩

def rounds : List Nat → List Nat → State → State
  | [], _, s => s
  | k :: ks, window, s =>
    rounds ks (window.tail ++ [nextWord window]) (round s k (window.headD 0))

def compress (s : State) (block : List Nat) : State :=
  let t := rounds roundConstants block s
  ⟨word (s.a + t.a), word (s.b + t.b), word (s.c + t.c), word (s.d + t.d), word (s.e + t.e),
    word (s.f + t.f), word (s.g + t.g), word (s.h + t.h)⟩

/-- The low `count` bytes of a number, most significant first. -/
def bytesOf (n : Nat) : Nat → Bytes
  | 0 => []
  | count + 1 => UInt8.ofNat (n >>> (8 * count)) :: bytesOf n count

def pad (message : Bytes) : Bytes :=
  message ++ 0x80 :: List.replicate ((119 - message.length % 64) % 64) 0 ++
    bytesOf (8 * message.length) 8

def words : Bytes → List Nat
  | a :: b :: c :: d :: rest =>
    (a.toNat * 16777216 + b.toNat * 65536 + c.toNat * 256 + d.toNat) :: words rest
  | _ => []

def blocks : Nat → List Nat → State → State
  | 0, _, s => s
  | count + 1, ws, s => blocks count (ws.drop 16) (compress s (ws.take 16))

/-- `crypto.createHash('sha256').update(message).digest()`. -/
def hash (message : Bytes) : Bytes :=
  let padded := pad message
  let s := blocks (padded.length / 64) (words padded) initial
  [s.a, s.b, s.c, s.d, s.e, s.f, s.g, s.h].flatMap (bytesOf · 4)

theorem bytesOf_length (n count : Nat) : (bytesOf n count).length = count := by
  induction count with
  | zero => rfl
  | succ count ih => rw [bytesOf, List.length_cons, ih]

theorem hash_length (message : Bytes) : (hash message).length = 32 := by
  simp [hash, bytesOf_length]

example : (hash [0x61, 0x62, 0x63]).take 4 = [0xba, 0x78, 0x16, 0xbf] := by decide +kernel

end Sha256

end Ecma

/-!
## Hexadecimal digests
-/

namespace Ecma

def hexUnit (n : Nat) : UInt16 := UInt16.ofNat (if n < 10 then 48 + n else 87 + n)

/-- `buffer.toString('hex')`. -/
def hexText (bytes : Bytes) : Text :=
  bytes.flatMap fun b => [hexUnit (b.toNat / 16), hexUnit (b.toNat % 16)]

/-- `crypto.createHash('sha256').update(text).digest('hex')`. -/
def sha256Hex (text : Text) : Text := hexText (Sha256.hash (Utf8.encode text))

example : (sha256Hex (ascii "abc")).take 8 = ascii "ba7816bf" := by decide +kernel

end Ecma

/-!
## HMAC with SHA-256
-/

namespace Ecma

def hmacBlock (key : Bytes) : Bytes :=
  let key := if 64 < key.length then Sha256.hash key else key
  key ++ List.replicate (64 - key.length) 0

def hmacSha256 (key message : Bytes) : Bytes :=
  Sha256.hash ((hmacBlock key).map (· ^^^ 0x5c) ++
    Sha256.hash ((hmacBlock key).map (· ^^^ 0x36) ++ message))

example : (hexText (hmacSha256 (Utf8.encode (ascii "key"))
    (Utf8.encode (ascii "The quick brown fox jumps over the lazy dog")))).take 8 =
      ascii "f7bc83f4" := by decide +kernel

end Ecma
