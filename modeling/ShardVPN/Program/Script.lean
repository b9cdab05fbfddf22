import ShardVPN.Ecma.Number
import ShardVPN.Hash.Sha256
import ShardVPN.Text.Codec

/-! # The phone client

The part of the script that encodes, hashes and signs a request. Its bytes are
numbers, its arrays are lists, and its bitwise operators are those of the language.
-/
namespace ShardVPN.Script
open Ecma Sha256

/-! ## UTF-8 -/

def utf8Point (code : ℤ) : List ℤ :=
  if code < 0x80 then [code]
  else if code < 0x800 then [bitOr 0xc0 (sar code 6),bitOr 0x80 (bitAnd code 0x3f)]
  else if code < 0x10000 then
    [bitOr 0xe0 (sar code 12),bitOr 0x80 (bitAnd (sar code 6) 0x3f),bitOr 0x80 (bitAnd code 0x3f)]
  else [bitOr 0xf0 (sar code 18),bitOr 0x80 (bitAnd (sar code 12) 0x3f),bitOr 0x80 (bitAnd (sar code 6) 0x3f),
    bitOr 0x80 (bitAnd code 0x3f)]

/-- The iterator of a string goes from code point to code point. -/
def utf8Bytes (str : Text) : List ℤ := str.flatMap fun ch => utf8Point (ch.val : ℕ)

/-! ## SHA-256 -/

/-- The table `K`. -/
def roundConstants : List ℤ :=
  [0x428a2f98,0x71374491,0xb5c0fbcf,0xe9b5dba5,0x3956c25b,0x59f111f1,
    0x923f82a4,0xab1c5ed5,0xd807aa98,0x12835b01,0x243185be,0x550c7dc3,
    0x72be5d74,0x80deb1fe,0x9bdc06a7,0xc19bf174,0xe49b69c1,0xefbe4786,
    0x0fc19dc6,0x240ca1cc,0x2de92c6f,0x4a7484aa,0x5cb0a9dc,0x76f988da,
    0x983e5152,0xa831c66d,0xb00327c8,0xbf597fc7,0xc6e00bf3,0xd5a79147,
    0x06ca6351,0x14292967,0x27b70a85,0x2e1b2138,0x4d2c6dfc,0x53380d13,
    0x650a7354,0x766a0abb,0x81c2c92e,0x92722c85,0xa2bfe8a1,0xa81a664b,
    0xc24b8b70,0xc76c51a3,0xd192e819,0xd6990624,0xf40e3585,0x106aa070,
    0x19a4c116,0x1e376c08,0x2748774c,0x34b0bcb5,0x391c0cb3,0x4ed8aa4a,
    0x5b9cca4f,0x682e6ff3,0x748f82ee,0x78a5636f,0x84c87814,0x8cc70208,
    0x90befffa,0xa4506ceb,0xbef9a3f7,0xc67178f2]

/-- The first value of `h`. -/
def firstHash : List ℤ :=
  [0x6a09e667,0xbb67ae85,0x3c6ef372,0xa54ff53a,
    0x510e527f,0x9b05688c,0x1f83d9ab,0x5be0cd19]

def rotr (x : ℤ) (n : ℕ) : ℤ := bitOr (ushr x n) (shl x (32 - n))

/-- `while (padded.length % 64 !== 56) padded.push(0)`. -/
def padZeros (padded : List ℤ) : List ℤ :=
  if padded.length % 64 ≠ 56 then padZeros (padded ++ [0]) else padded
termination_by (120 - padded.length % 64) % 64
decreasing_by
  rw [List.length_append,List.length_singleton]
  omega

/-- `Math.floor(bits / Math.pow(2, i * 8)) & 0xff`. -/
def lengthByte (bits : ℕ) (i : ℕ) : ℤ := bitAnd ((bits / 2 ^ (i * 8) : ℕ) : ℤ) 0xff

def padded (bytes : List ℤ) : List ℤ :=
  padZeros (bytes ++ [0x80]) ++ [7,6,5,4,3,2,1,0].map (lengthByte (bytes.length * 8))

/-- The words of a chunk. -/
def chunkWord (padded : List ℤ) (chunk i : ℕ) : ℤ :=
  let j := chunk + i * 4
  bitOr (bitOr (bitOr (shl (padded.getD j 0) 24) (shl (padded.getD (j + 1) 0) 16)) (shl (padded.getD (j + 2) 0) 8))
    (padded.getD (j + 3) 0)

def nextWord (w : List ℤ) (i : ℕ) : ℤ :=
  let s0 := bitXor (bitXor (rotr (w.getD (i - 15) 0) 7) (rotr (w.getD (i - 15) 0) 18)) (ushr (w.getD (i - 15) 0) 3)
  let s1 := bitXor (bitXor (rotr (w.getD (i - 2) 0) 17) (rotr (w.getD (i - 2) 0) 19)) (ushr (w.getD (i - 2) 0) 10)
  bitOr (w.getD (i - 16) 0 + s0 + w.getD (i - 7) 0 + s1) 0

/-- The array `w`, filled from its beginning. -/
def words (padded : List ℤ) (chunk : ℕ) : List ℤ :=
  (List.range' 16 48).foldl (fun w i => w ++ [nextWord w i]) ((List.range 16).map (chunkWord padded chunk))

/-- One pass of the loop over the variables `a` to `hh`. -/
def round (k w : ℤ) (v : Working ℤ) : Working ℤ :=
  let S1 := bitXor (bitXor (rotr v.e 6) (rotr v.e 11)) (rotr v.e 25)
  let ch := bitXor (bitAnd v.e v.f) (bitAnd (bitNot v.e) v.g)
  let t1 := bitOr (v.h + S1 + ch + k + w) 0
  let S0 := bitXor (bitXor (rotr v.a 2) (rotr v.a 13)) (rotr v.a 22)
  let maj := bitXor (bitXor (bitAnd v.a v.b) (bitAnd v.a v.c)) (bitAnd v.b v.c)
  let t2 := bitOr (S0 + maj) 0
  ⟨bitOr (t1 + t2) 0,v.a,v.b,v.c,bitOr (v.d + t1) 0,v.e,v.f,v.g⟩

/-- The variables `a` to `hh` after the loop over a chunk. -/
def rounds (padded : List ℤ) (chunk : ℕ) (h : List ℤ) : Working ℤ :=
  let w := words padded chunk
  (List.range 64).foldl (fun v i => round (roundConstants.getD i 0) (w.getD i 0) v) (.ofList 0 h)

/-- `h` after a chunk. -/
def nextHash (padded : List ℤ) (chunk : ℕ) (h : List ℤ) : List ℤ :=
  List.zipWith (fun x y => bitOr (x + y) 0) h (rounds padded chunk h).toList

/-- `for (let chunk = 0; chunk < padded.length; chunk += 64)`, from a chunk on. -/
def chunks (padded : List ℤ) (chunk : ℕ) (h : List ℤ) : List ℤ :=
  if chunk < padded.length then chunks padded (chunk + 64) (nextHash padded chunk h) else h
termination_by padded.length - chunk

def wordBytes (v : ℤ) : List ℤ :=
  [bitAnd (ushr v 24) 0xff,bitAnd (ushr v 16) 0xff,bitAnd (ushr v 8) 0xff,bitAnd v 0xff]

def sha256 (bytes : List ℤ) : List ℤ := (chunks (padded bytes) 0 firstHash).flatMap wordBytes

/-! ## HMAC -/

/-- `while (key.length < 64) key.push(0)`. -/
def padKey (key : List ℤ) : List ℤ := if key.length < 64 then padKey (key ++ [0]) else key
termination_by 64 - key.length
decreasing_by
  rw [List.length_append,List.length_singleton]
  omega

/-- `number.toString(radix)` of a number without sign. -/
def toString (n : ℤ) (radix : ℕ) : Text := (Nat.toDigits radix n.toNat).map codePoint

/-- `text.padStart(length, "0")`. -/
def padStart (t : Text) (length : ℕ) : Text := t.leftpad length 48

def hmacSha256Hex (keyStr messageStr : Text) : Text :=
  let keyBytes := utf8Bytes keyStr
  let key := padKey (if 64 < keyBytes.length then sha256 keyBytes else keyBytes)
  let inner := key.map (fun b => bitXor b 0x36) ++ utf8Bytes messageStr
  let outer := key.map (fun b => bitXor b 0x5c) ++ sha256 inner
  (sha256 outer).flatMap fun b => padStart (toString b 16) 2

/-! ## The request -/

/-- A code point as `JSON.stringify` quotes it. -/
def quoteChar (c : CodePoint) : Text :=
  if c = 8 then text "\\b"
  else if c = 9 then text "\\t"
  else if c = 10 then text "\\n"
  else if c = 12 then text "\\f"
  else if c = 13 then text "\\r"
  else if c = 34 then text "\\\""
  else if c = 92 then text "\\\\"
  else if c.val < 32 ∨ isSurrogate c = true then
    text "\\u" ++ [hexDigit (c.val / 4096),hexDigit (c.val / 256),hexDigit (c.val / 16),hexDigit c.val]
  else [c]

def quote (t : Text) : Text := 34 :: (t.flatMap quoteChar ++ [34])

/-- `JSON.stringify` of an object with texts as its members. -/
def stringify (members : List (Text × Text)) : Text :=
  123 :: ((members.map fun p => quote p.1 ++ 58 :: quote p.2).intersperse [44]).flatten ++ [125]

/-- `region ? { action, region } : { action }`. -/
def members (action : Text) (region : Option Text) : List (Text × Text) :=
  match region with
  | some region => if region = [] then [(text "action",action)] else [(text "action",action),(text "region",region)]
  | none => [(text "action",action)]

structure Request where
  body : Text
  headers : List (Text × Text)

/-- The request of an attempt of `send`, at a time in milliseconds. -/
def request (secret action : Text) (region : Option Text) (dateNow : ℕ) : Request :=
  let body := stringify (members action region)
  let timestamp := toString (dateNow / 1000 : ℕ) 10
  { body := body
    headers := [(text "Content-Type",text "application/json"),(text "X-ShardVPN-Timestamp",timestamp),
      (text "X-ShardVPN-Signature",hmacSha256Hex secret (timestamp ++ text "." ++ body))] }

end ShardVPN.Script
