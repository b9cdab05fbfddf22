import Mathlib.Algebra.GroupWithZero.Nat
import Mathlib.Data.List.GetD

/-! # SHA-256 and HMAC

The secure hash SHA-256 of FIPS 180-4 on whole bytes, and the keyed hash HMAC of
RFC 2104 over any hash. A message is padded to blocks of 64 bytes. Each block is
expanded to 64 words and mixed into eight words of the hash in 64 rounds.
-/
namespace ShardVPN.Sha256

abbrev Word := BitVec 32

/-- The eight working variables of a round. -/
structure Working (α : Type) where
  a : α
  b : α
  c : α
  d : α
  e : α
  f : α
  g : α
  h : α

namespace Working
variable {α β : Type}

def toList (v : Working α) : List α := [v.a,v.b,v.c,v.d,v.e,v.f,v.g,v.h]

def ofList (default : α) (l : List α) : Working α :=
  ⟨l.getD 0 default,l.getD 1 default,l.getD 2 default,l.getD 3 default,l.getD 4 default,l.getD 5 default,
    l.getD 6 default,l.getD 7 default⟩

def map (f : α → β) (v : Working α) : Working β := ⟨f v.a,f v.b,f v.c,f v.d,f v.e,f v.f,f v.g,f v.h⟩

@[simp] theorem toList_map (f : α → β) (v : Working α) : (v.map f).toList = v.toList.map f := rfl

theorem map_ofList (f : α → β) (default : α) (l : List α) :
    (ofList default l).map f = ofList (f default) (l.map f) := by
  unfold ofList map
  simp only [List.getD_map]

end Working

/-! ## Constants -/

/-- The first 32 bits of the fractional parts of the cube roots of the first 64 primes. -/
def constants : List Word :=
  [0x428a2f98,0x71374491,0xb5c0fbcf,0xe9b5dba5,0x3956c25b,0x59f111f1,0x923f82a4,0xab1c5ed5,
    0xd807aa98,0x12835b01,0x243185be,0x550c7dc3,0x72be5d74,0x80deb1fe,0x9bdc06a7,0xc19bf174,
    0xe49b69c1,0xefbe4786,0x0fc19dc6,0x240ca1cc,0x2de92c6f,0x4a7484aa,0x5cb0a9dc,0x76f988da,
    0x983e5152,0xa831c66d,0xb00327c8,0xbf597fc7,0xc6e00bf3,0xd5a79147,0x06ca6351,0x14292967,
    0x27b70a85,0x2e1b2138,0x4d2c6dfc,0x53380d13,0x650a7354,0x766a0abb,0x81c2c92e,0x92722c85,
    0xa2bfe8a1,0xa81a664b,0xc24b8b70,0xc76c51a3,0xd192e819,0xd6990624,0xf40e3585,0x106aa070,
    0x19a4c116,0x1e376c08,0x2748774c,0x34b0bcb5,0x391c0cb3,0x4ed8aa4a,0x5b9cca4f,0x682e6ff3,
    0x748f82ee,0x78a5636f,0x84c87814,0x8cc70208,0x90befffa,0xa4506ceb,0xbef9a3f7,0xc67178f2]

/-- The first 32 bits of the fractional parts of the square roots of the first eight primes. -/
def initial : List Word :=
  [0x6a09e667,0xbb67ae85,0x3c6ef372,0xa54ff53a,0x510e527f,0x9b05688c,0x1f83d9ab,0x5be0cd19]

/-- The first primes, as many as there are constants. -/
def primes : List ℕ := (List.range 312).filter fun n => 2 ≤ n ∧ (List.range n).all fun d => d < 2 || n % d ≠ 0

/-- The word is the beginning of the fractional part of the root of the number. -/
def isFraction (degree n : ℕ) (x : Word) : Bool := (List.range 18).any fun c =>
  (c * 2 ^ 32 + x.toNat) ^ degree ≤ n * 2 ^ (32 * degree) ∧ n * 2 ^ (32 * degree) < (c * 2 ^ 32 + x.toNat + 1) ^ degree

example : primes.length = 64 ∧ (primes.zip constants).all (fun p => isFraction 3 p.1 p.2) ∧
    (primes.zip initial).all (fun p => isFraction 2 p.1 p.2) := by decide +kernel

/-! ## Functions -/

def ch (x y z : Word) : Word := (x &&& y) ^^^ (~~~x &&& z)
def maj (x y z : Word) : Word := (x &&& y) ^^^ (x &&& z) ^^^ (y &&& z)
def bigSigma0 (x : Word) : Word := x.rotateRight 2 ^^^ x.rotateRight 13 ^^^ x.rotateRight 22
def bigSigma1 (x : Word) : Word := x.rotateRight 6 ^^^ x.rotateRight 11 ^^^ x.rotateRight 25
def smallSigma0 (x : Word) : Word := x.rotateRight 7 ^^^ x.rotateRight 18 ^^^ x >>> 3
def smallSigma1 (x : Word) : Word := x.rotateRight 17 ^^^ x.rotateRight 19 ^^^ x >>> 10

/-! ## A block -/

/-- The next word of a message schedule. -/
def nextWord (w : List Word) (t : ℕ) : Word :=
  smallSigma1 (w.getD (t - 2) 0) + w.getD (t - 7) 0 + smallSigma0 (w.getD (t - 15) 0) + w.getD (t - 16) 0

/-- The first `t` words of the message schedule of a block. -/
def schedule (block : ℕ → Word) : ℕ → List Word
  | 0 => []
  | t + 1 => schedule block t ++ [if t < 16 then block t else nextWord (schedule block t) t]

def round (k w : Word) (v : Working Word) : Working Word :=
  let t1 := v.h + bigSigma1 v.e + ch v.e v.f v.g + k + w
  let t2 := bigSigma0 v.a + maj v.a v.b v.c
  ⟨t1 + t2,v.a,v.b,v.c,v.d + t1,v.e,v.f,v.g⟩

def rounds (w hash : List Word) : Working Word :=
  (List.range 64).foldl (fun v t => round (constants.getD t 0) (w.getD t 0) v) (.ofList 0 hash)

def compress (hash : List Word) (block : ℕ → Word) : List Word :=
  List.zipWith (· + ·) hash (rounds (schedule block 64) hash).toList

/-! ## A message -/

/-- How many zero bytes there are between the first bit of padding and the length. -/
def zeros (length : ℕ) : ℕ := (119 - length % 64) % 64

/-- The length in bits, in 64 bits. -/
def lengthBytes (length : ℕ) : List UInt8 :=
  [7,6,5,4,3,2,1,0].map fun i => UInt8.ofNat (length * 8 / 2 ^ (i * 8))

def pad (message : List UInt8) : List UInt8 :=
  message ++ [0x80] ++ List.replicate (zeros message.length) 0 ++ lengthBytes message.length

/-- The word of four bytes, most significant first. -/
def wordOf (a b c d : UInt8) : Word :=
  a.toBitVec.setWidth 32 <<< 24 ||| b.toBitVec.setWidth 32 <<< 16 ||| c.toBitVec.setWidth 32 <<< 8 |||
    d.toBitVec.setWidth 32

def wordAt (bytes : List UInt8) (i : ℕ) : Word :=
  wordOf (bytes.getD i 0) (bytes.getD (i + 1) 0) (bytes.getD (i + 2) 0) (bytes.getD (i + 3) 0)

def wordBytes (x : Word) : List UInt8 :=
  [⟨(x >>> 24).setWidth 8⟩,⟨(x >>> 16).setWidth 8⟩,⟨(x >>> 8).setWidth 8⟩,⟨x.setWidth 8⟩]

/-- The words of the block that begins at a byte. -/
def blockAt (bytes : List UInt8) (start t : ℕ) : Word := wordAt bytes (start + t * 4)

def digest (message : List UInt8) : List UInt8 :=
  ((List.range ((pad message).length / 64)).foldl (fun h j => compress h (blockAt (pad message) (64 * j)))
    initial).flatMap wordBytes

theorem compress_length {hash : List Word} (h : hash.length = 8) (block : ℕ → Word) :
    (compress hash block).length = 8 := by
  unfold compress Working.toList
  simp [h]

theorem wordBytes_length (words : List Word) : (words.flatMap wordBytes).length = 4 * words.length := by
  induction words with
  | nil => rfl
  | cons x words ih =>
    simp only [List.flatMap_cons,List.length_append,List.length_cons,ih,wordBytes,List.length_nil]
    omega

theorem digest_length (message : List UInt8) : (digest message).length = 32 := by
  have hlength : ∀ (js : List ℕ) (hash : List Word), hash.length = 8 →
      (js.foldl (fun h j => compress h (blockAt (pad message) (64 * j))) hash).length = 8 := by
    intro js
    induction js with
    | nil => exact fun _ h => h
    | cons j js ih => exact fun hash h => ih _ (compress_length h _)
  unfold digest
  rw [wordBytes_length,hlength _ initial rfl]

/-- The example of the standard, a message of three bytes. -/
example : digest [0x61,0x62,0x63] = [0xba,0x78,0x16,0xbf,0x8f,0x01,0xcf,0xea,0x41,0x41,0x40,0xde,0x5d,0xae,0x22,0x23,
    0xb0,0x03,0x61,0xa3,0x96,0x17,0x7a,0x9c,0xb4,0x10,0xff,0x61,0xf2,0x00,0x15,0xad] := by decide +kernel

/-! ## The keyed hash -/

/-- A key of the size of a block. -/
def blockKey (hash : List UInt8 → List UInt8) (size : ℕ) (key : List UInt8) : List UInt8 :=
  List.rightpad size 0 (if size < key.length then hash key else key)

/-- HMAC over a hash with blocks of a size. -/
def hmac (hash : List UInt8 → List UInt8) (size : ℕ) (key message : List UInt8) : List UInt8 :=
  hash ((blockKey hash size key).map (· ^^^ 0x5c) ++ hash ((blockKey hash size key).map (· ^^^ 0x36) ++ message))

def hmacSha256 (key message : List UInt8) : List UInt8 := hmac digest 64 key message

theorem hmacSha256_length (key message : List UInt8) : (hmacSha256 key message).length = 32 := digest_length _

end ShardVPN.Sha256
