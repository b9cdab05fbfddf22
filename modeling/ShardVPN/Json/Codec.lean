import ShardVPN.Json.Value

/-! # `json.dumps` and `json.loads`

The encoder escapes everything outside printable ASCII. The decoder is the
recursive scanner of the interpreter with a fuel argument that bounds its steps;
the length of the input always suffices. Nesting depth is not limited.
-/
namespace ShardVPN

/-! ## Encoding -/

def unicodeEscapeOf (n : ℕ) : Text :=
  text "\\u" ++ [hexDigit (n / 4096),hexDigit (n / 256),hexDigit (n / 16),hexDigit n]

def escapeChar (c : CodePoint) : Text :=
  if c = 34 then text "\\\""
  else if c = 92 then text "\\\\"
  else if c = 10 then text "\\n"
  else if c = 13 then text "\\r"
  else if c = 9 then text "\\t"
  else if c = 12 then text "\\f"
  else if c = 8 then text "\\b"
  else if inRange 32 126 c then [c]
  else if c.val < 0x10000 then unicodeEscapeOf c.val
  else unicodeEscapeOf (0xD800 + (c.val - 0x10000) / 1024) ++
    unicodeEscapeOf (0xDC00 + (c.val - 0x10000) % 1024)

def encodeString (s : Text) : Text := 34 :: (s.flatMap escapeChar ++ [34])

mutual

def dumps : Json → Text
  | .null => text "null"
  | .bool b => if b then text "true" else text "false"
  | .int n => decimalInt n
  | .float (.decimal m e) => decimalInt m ++ text "e" ++ decimalInt e
  | .float (.infinity negative) => if negative then text "-Infinity" else text "Infinity"
  | .float .nan => text "NaN"
  | .str s => encodeString s
  | .arr items => text "[" ++ dumpsItems items ++ text "]"
  | .obj fields => text "\x7b" ++ dumpsFields fields ++ text "\x7d"

def dumpsItems : List Json → Text
  | [] => []
  | [x] => dumps x
  | x :: y :: rest => dumps x ++ text ", " ++ dumpsItems (y :: rest)

def dumpsFields : List (Text × Json) → Text
  | [] => []
  | [(k,x)] => encodeString k ++ text ": " ++ dumps x
  | (k,x) :: y :: rest => encodeString k ++ text ": " ++ dumps x ++ text ", " ++ dumpsFields (y :: rest)

end

/-! ## Decoding -/

/-- A `JSONDecodeError`, the plain `ValueError` of an integer with too many digits, or
the `UnicodeDecodeError` of bytes that are no text. -/
inductive JsonError
  | decode
  | intLimit
  | unicode
deriving DecidableEq

def isJsonSpace (c : CodePoint) : Bool := c == 32 || c == 9 || c == 10 || c == 13

def skipJsonSpace (t : Text) : Text := t.dropWhile isJsonSpace

def hexValue (c : CodePoint) : Option ℕ :=
  if inRange 48 57 c then some (c.val - 48)
  else if inRange 97 102 c then some (c.val - 87)
  else if inRange 65 70 c then some (c.val - 55)
  else none

def hex4 : Text → Option (ℕ × Text)
  | a :: b :: c :: d :: rest => do
    let a ← hexValue a
    let b ← hexValue b
    let c ← hexValue c
    let d ← hexValue d
    some (((a * 16 + b) * 16 + c) * 16 + d,rest)
  | _ => none

/-- A low surrogate escape at the head of the text. -/
def lowSurrogate? (t : Text) : Option (ℕ × Text) :=
  if t.take 2 = text "\\u" then do
    let (n,rest) ← hex4 (t.drop 2)
    if 0xDC00 ≤ n ∧ n ≤ 0xDFFF then some (n,rest) else none
  else none

/-- The code point of a `\u` escape; a high surrogate joins a low one that follows it. -/
def unicodeEscape (t : Text) : Option (CodePoint × Text) := do
  let (n,rest) ← hex4 t
  if 0xD800 ≤ n ∧ n ≤ 0xDBFF then
    match lowSurrogate? rest with
    | some (m,rest) => (codePoint? (0x10000 + (n - 0xD800) * 1024 + (m - 0xDC00))).map (·,rest)
    | none => (codePoint? n).map (·,rest)
  else (codePoint? n).map (·,rest)

def simpleEscape (c : CodePoint) : Option CodePoint :=
  if c = 34 then some 34
  else if c = 92 then some 92
  else if c = 47 then some 47
  else if c = 98 then some 8
  else if c = 102 then some 12
  else if c = 110 then some 10
  else if c = 114 then some 13
  else if c = 116 then some 9
  else none

/-- The rest of a string after its opening quote. -/
def stringBody : ℕ → Text → Option (Text × Text)
  | 0,_ => none
  | _ + 1,[] => none
  | fuel + 1,c :: rest =>
    if c = 34 then some ([],rest)
    else if c = 92 then
      match rest with
      | [] => none
      | e :: rest => do
        let (d,rest) ← if e = 117 then unicodeEscape rest else (simpleEscape e).map (·,rest)
        let (ds,rest) ← stringBody fuel rest
        some (d :: ds,rest)
    else if c.val < 32 then none
    else do
      let (ds,rest) ← stringBody fuel rest
      some (c :: ds,rest)

def scanString (t : Text) : Except JsonError (Text × Text) :=
  match stringBody (t.length + 1) t with
  | some r => .ok r
  | none => .error .decode

def asciiDigitValues (t : Text) : List ℕ := t.map (fun c => c.val - 48)

/-- The fraction of a number: a point and at least one digit, or nothing. -/
def scanFraction (t : Text) : Text × Text :=
  if t.head? = some 46 ∧ ((t.drop 1).takeWhile isAsciiDigit).length ≠ 0 then
    ((t.drop 1).takeWhile isAsciiDigit,(t.drop 1).dropWhile isAsciiDigit)
  else ([],t)

/-- The exponent of a number, when there is one. -/
def scanExponent (t : Text) : Option ℤ × Text :=
  if t.head? = some 101 ∨ t.head? = some 69 then
    let signed := t.drop 1
    let negative := decide (signed.head? = some 45)
    let digits := if signed.head? = some 45 ∨ signed.head? = some 43 then signed.drop 1 else signed
    let taken := digits.takeWhile isAsciiDigit
    if taken.isEmpty then (none,t)
    else
      let value := Int.ofNat (ofDigitValues (asciiDigitValues taken))
      (some (if negative then -value else value),digits.dropWhile isAsciiDigit)
  else (none,t)

def scanNumber (t : Text) : Except JsonError (Json × Text) :=
  let negative := decide (t.head? = some 45)
  let unsigned := if negative then t.drop 1 else t
  let whole := if unsigned.head? = some 48 then unsigned.take 1 else unsigned.takeWhile isAsciiDigit
  if whole.isEmpty then .error .decode
  else
    let (fraction,rest) := scanFraction (unsigned.drop whole.length)
    let (exponent,rest) := scanExponent rest
    let sign (n : ℕ) : ℤ := if negative then -Int.ofNat n else Int.ofNat n
    if fraction.isEmpty ∧ exponent = none then
      if maxStrDigits < whole.length then .error .intLimit
      else .ok (.int (sign (ofDigitValues (asciiDigitValues whole))),rest)
    else
      .ok (.float (.decimal (sign (ofDigitValues (asciiDigitValues (whole ++ fraction))))
        (exponent.getD 0 - fraction.length)),rest)

/-- The constants, each with its literal. -/
def jsonConstants : List (Text × Json) :=
  [(text "null",.null),(text "true",.bool true),(text "false",.bool false),(text "NaN",.float .nan),
    (text "Infinity",.float (.infinity false)),(text "-Infinity",.float (.infinity true))]

def scanConstant (t : Text) : Option (Json × Text) :=
  (jsonConstants.find? (fun p => t.take p.1.length = p.1)).map (fun p => (p.2,t.drop p.1.length))

mutual

def scanValue : ℕ → Text → Except JsonError (Json × Text)
  | 0,_ => .error .decode
  | fuel + 1,t =>
    match t with
    | [] => .error .decode
    | c :: rest =>
      if c = 34 then do
        let (s,rest) ← scanString rest
        .ok (.str s,rest)
      else if c = 123 then
        let rest := skipJsonSpace rest
        if rest.head? = some 125 then .ok (.obj [],rest.drop 1)
        else do
          let (d,rest) ← scanFields fuel [] rest
          .ok (.obj d,rest)
      else if c = 91 then
        let rest := skipJsonSpace rest
        if rest.head? = some 93 then .ok (.arr [],rest.drop 1)
        else do
          let (xs,rest) ← scanItems fuel rest
          .ok (.arr xs,rest)
      else match scanConstant t with
        | some r => .ok r
        | none => scanNumber t

def scanItems : ℕ → Text → Except JsonError (List Json × Text)
  | 0,_ => .error .decode
  | fuel + 1,t => do
    let (x,rest) ← scanValue fuel t
    match skipJsonSpace rest with
    | [] => .error .decode
    | c :: rest =>
      if c = 93 then .ok ([x],rest)
      else if c = 44 then do
        let (xs,rest) ← scanItems fuel (skipJsonSpace rest)
        .ok (x :: xs,rest)
      else .error .decode

/-- The fields of an object from its first key on; `d` holds the fields before. -/
def scanFields : ℕ → Dict → Text → Except JsonError (Dict × Text)
  | 0,_,_ => .error .decode
  | fuel + 1,d,t =>
    match t with
    | [] => .error .decode
    | q :: rest =>
      if q ≠ 34 then .error .decode
      else do
        let (k,rest) ← scanString rest
        match skipJsonSpace rest with
        | [] => .error .decode
        | c :: rest =>
          if c ≠ 58 then .error .decode
          else do
            let (x,rest) ← scanValue fuel (skipJsonSpace rest)
            match skipJsonSpace rest with
            | [] => .error .decode
            | c :: rest =>
              if c = 125 then .ok (d.set k x,rest)
              else if c = 44 then scanFields fuel (d.set k x) (skipJsonSpace rest)
              else .error .decode

end

/-- `json.loads` of a `str`. -/
def loads (t : Text) : Except JsonError Json :=
  if t.head? = some 0xFEFF then .error .decode
  else do
    let (x,rest) ← scanValue (t.length + 1) (skipJsonSpace t)
    if (skipJsonSpace rest).isEmpty then .ok x else .error .decode

/-! ## Bytes -/

/-- The encodings `json.detect_encoding` can find. -/
inductive JsonEncoding
  | utf8
  | utf8sig
  | utf16 (bigEndian bom : Bool)
  | utf32 (bigEndian bom : Bool)
deriving DecidableEq

def detectEncoding (b : Bytes) : JsonEncoding :=
  if b.take 4 = [0x00,0x00,0xFE,0xFF] then .utf32 true true
  else if b.take 4 = [0xFF,0xFE,0x00,0x00] then .utf32 false true
  else if b.take 2 = [0xFE,0xFF] then .utf16 true true
  else if b.take 2 = [0xFF,0xFE] then .utf16 false true
  else if b.take 3 = [0xEF,0xBB,0xBF] then .utf8sig
  else match b with
    | x :: y :: z :: w :: _ =>
      if x = 0 then if y = 0 then .utf32 true false else .utf16 true false
      else if y = 0 then if z = 0 ∧ w = 0 then .utf32 false false else .utf16 false false
      else .utf8
    | [x,y] => if x = 0 then .utf16 true false else if y = 0 then .utf16 false false else .utf8
    | _ => .utf8

def units16 (bigEndian : Bool) : Bytes → Option (List ℕ)
  | [] => some []
  | x :: y :: rest => (units16 bigEndian rest).map
      ((if bigEndian then x.toNat * 256 + y.toNat else y.toNat * 256 + x.toNat) :: ·)
  | _ => none

/-- Joins surrogate pairs; lone surrogates pass. -/
def joinUnits : List ℕ → Option Text
  | [] => some []
  | [n] => (codePoint? n).map ([·])
  | n :: m :: rest =>
    if 0xD800 ≤ n ∧ n ≤ 0xDBFF ∧ 0xDC00 ≤ m ∧ m ≤ 0xDFFF then do
      let c ← codePoint? (0x10000 + (n - 0xD800) * 1024 + (m - 0xDC00))
      (joinUnits rest).map (c :: ·)
    else do
      let c ← codePoint? n
      (joinUnits (m :: rest)).map (c :: ·)

def decodeUtf32 (bigEndian : Bool) : Bytes → Option Text
  | [] => some []
  | x :: y :: z :: w :: rest => do
    let n := if bigEndian then ((x.toNat * 256 + y.toNat) * 256 + z.toNat) * 256 + w.toNat
      else ((w.toNat * 256 + z.toNat) * 256 + y.toNat) * 256 + x.toNat
    let c ← codePoint? n
    (decodeUtf32 bigEndian rest).map (c :: ·)
  | _ => none

def decodeJsonBytes (b : Bytes) : Option Text :=
  match detectEncoding b with
  | .utf8 => decodeUtf8 b
  | .utf8sig => decodeUtf8 (b.drop 3)
  | .utf16 bigEndian bom => (units16 bigEndian (if bom then b.drop 2 else b)).bind joinUnits
  | .utf32 bigEndian bom => decodeUtf32 bigEndian (if bom then b.drop 4 else b)

/-- `json.loads` of `bytes`. -/
def loadsBytes (b : Bytes) : Except JsonError Json :=
  match decodeJsonBytes b with
  | some t => loads t
  | none => .error .unicode

end ShardVPN
