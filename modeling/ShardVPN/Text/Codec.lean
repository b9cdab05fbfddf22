import ShardVPN.Text.Basic

/-! # UTF-8, base64 and hexadecimal

Strict UTF-8 encoding fails on surrogates. Decoding accepts their three-byte
forms, as the `surrogatepass` handler does. Base64 is the strict mode of the
interpreter's scanner, one character at a time.
-/
namespace ShardVPN

def codePoint? (n : ℕ) : Option CodePoint := if h : n < 0x110000 then some ⟨n,h⟩ else none

def byte (n : ℕ) : UInt8 := UInt8.ofNat n

/-! ## UTF-8 -/

def utf8Bytes (c : CodePoint) : Bytes :=
  let n := c.val
  if n < 0x80 then [byte n]
  else if n < 0x800 then [byte (0xC0 + n / 64),byte (0x80 + n % 64)]
  else if n < 0x10000 then [byte (0xE0 + n / 4096),byte (0x80 + n / 64 % 64),byte (0x80 + n % 64)]
  else [byte (0xF0 + n / 262144),byte (0x80 + n / 4096 % 64),byte (0x80 + n / 64 % 64),
    byte (0x80 + n % 64)]

/-- `text.encode()`; `none` stands for its `UnicodeEncodeError`. -/
def encodeUtf8 (t : Text) : Option Bytes :=
  if t.any isSurrogate then none else some (t.flatMap utf8Bytes)

theorem encodeUtf8_eq_none {t : Text} : encodeUtf8 t = none ↔ t.any isSurrogate = true := by
  rw [encodeUtf8]
  by_cases h : t.any isSurrogate = true
  · rw [if_pos h]
    exact ⟨fun _ => h,fun _ => rfl⟩
  · rw [if_neg h]
    exact ⟨fun hn => (by cases hn),fun hs => absurd hs h⟩

theorem encodeUtf8_eq_some {t : Text} {bs : Bytes} :
    encodeUtf8 t = some bs ↔ t.any isSurrogate = false ∧ bs = t.flatMap utf8Bytes := by
  rw [encodeUtf8]
  by_cases h : t.any isSurrogate = true
  · rw [if_pos h,h]
    exact ⟨fun hn => (by cases hn),fun hs => by cases hs.1⟩
  · rw [if_neg h,Option.some.injEq]
    exact ⟨fun hb => ⟨Bool.not_eq_true _ ▸ h,hb.symm⟩,fun hb => hb.2.symm⟩

theorem any_isSurrogate_of_ascii {t : Text} (h : ∀ c ∈ t, isAscii c = true) : t.any isSurrogate = false := by
  rw [List.any_eq_false]
  intro c hc
  simp [isSurrogate_of_isAscii (h c hc)]

/-- ASCII texts are encoded byte for byte. -/
theorem utf8Bytes_of_ascii {c : CodePoint} (h : isAscii c = true) : utf8Bytes c = [byte c.val] := by
  have hc := (inRange_iff.mp h).2
  rw [utf8Bytes,if_pos (by omega)]

theorem encodeUtf8_of_ascii {t : Text} (h : ∀ c ∈ t, isAscii c = true) :
    encodeUtf8 t = some (t.map (fun c => byte c.val)) := by
  refine encodeUtf8_eq_some.mpr ⟨any_isSurrogate_of_ascii h,?_⟩
  induction t with
  | nil => rfl
  | cons c t ih =>
    rw [List.flatMap_cons,utf8Bytes_of_ascii (h c List.mem_cons_self),List.map_cons,
      ih (fun d hd => h d (List.mem_cons_of_mem c hd))]
    rfl

def tailBits (b : UInt8) : Option ℕ :=
  if 0x80 ≤ b.toNat ∧ b.toNat ≤ 0xBF then some (b.toNat - 0x80) else none

/-- UTF-8 decoding that lets encoded surrogates through. -/
def decodeUtf8 : Bytes → Option Text
  | [] => some []
  | a :: rest =>
    if a.toNat < 0x80 then do
      let c ← codePoint? a.toNat
      (decodeUtf8 rest).map (c :: ·)
    else match rest with
      | [] => none
      | b :: rest =>
        if 0xC2 ≤ a.toNat ∧ a.toNat ≤ 0xDF then do
          let x ← tailBits b
          let c ← codePoint? ((a.toNat - 0xC0) * 64 + x)
          (decodeUtf8 rest).map (c :: ·)
        else match rest with
          | [] => none
          | d :: rest =>
            if 0xE0 ≤ a.toNat ∧ a.toNat ≤ 0xEF then do
              let x ← tailBits b
              let y ← tailBits d
              let n := (a.toNat - 0xE0) * 4096 + x * 64 + y
              if n < 0x800 then none
              let c ← codePoint? n
              (decodeUtf8 rest).map (c :: ·)
            else match rest with
              | [] => none
              | f :: rest =>
                if 0xF0 ≤ a.toNat ∧ a.toNat ≤ 0xF4 then do
                  let x ← tailBits b
                  let y ← tailBits d
                  let z ← tailBits f
                  let n := (a.toNat - 0xF0) * 262144 + x * 4096 + y * 64 + z
                  if n < 0x10000 then none
                  let c ← codePoint? n
                  (decodeUtf8 rest).map (c :: ·)
                else none

/-! ## Base64 -/

def base64Value (c : CodePoint) : Option ℕ :=
  if inRange 65 90 c then some (c.val - 65)
  else if inRange 97 122 c then some (c.val - 71)
  else if inRange 48 57 c then some (c.val + 4)
  else if c = 43 then some 62
  else if c = 47 then some 63
  else none

/-- The scanner's state: characters of the current quad, their pending bits, whether
padding has started and how much of it the quad has. -/
def base64Scan : ℕ → ℕ → Bool → ℕ → Text → Option Bytes
  | quad,_,_,_,[] => if quad = 0 then some [] else none
  | quad,left,padded,pads,c :: rest =>
    if c = 61 then
      if 2 ≤ quad ∧ 4 ≤ quad + pads + 1 then
        if rest.isEmpty then some [] else none
      else base64Scan quad left true (if 2 ≤ quad then pads + 1 else pads) rest
    else match base64Value c with
      | none => none
      | some v =>
        if padded then none
        else match quad with
          | 0 => base64Scan 1 v false 0 rest
          | 1 => (base64Scan 2 (v % 16) false 0 rest).map (byte (left * 4 + v / 16) :: ·)
          | 2 => (base64Scan 3 (v % 4) false 0 rest).map (byte (left * 16 + v / 4) :: ·)
          | _ => (base64Scan 0 0 false 0 rest).map (byte (left * 64 + v) :: ·)

/-- Strict base64 decoding of an ASCII text; `none` stands for `binascii.Error`. -/
def decodeBase64 (t : Text) : Option Bytes := if t.head? = some 61 then none else base64Scan 0 0 false 0 t

/-! ## Hexadecimal -/

theorem numeral_lt (d : ℕ) : 48 + d % 16 < 0x110000 := by omega

/-- The lower-case hexadecimal digit of value `d % 16`. -/
def hexDigit (d : ℕ) : CodePoint :=
  if h : d % 16 < 10 then ⟨48 + d % 16,numeral_lt d⟩ else ⟨87 + d % 16,by omega⟩

def hexByte (b : UInt8) : Text := [hexDigit (b.toNat / 16),hexDigit b.toNat]

/-- `bytes.hex()`. -/
def hex (bs : Bytes) : Text := bs.flatMap hexByte

def isLowerHex (c : CodePoint) : Bool := inRange 48 57 c || inRange 97 102 c

theorem hexDigit_injective_mod {d e : ℕ} (h : hexDigit d = hexDigit e) : d % 16 = e % 16 := by
  have hv := congrArg Fin.val h
  unfold hexDigit at hv
  split at hv <;> split at hv <;> dsimp only at hv <;> omega

theorem hexByte_injective {a b : UInt8} (h : hexByte a = hexByte b) : a = b := by
  simp only [hexByte,List.cons.injEq,and_true] at h
  have hhi := hexDigit_injective_mod h.1
  have hlo := hexDigit_injective_mod h.2
  have ha := a.toNat_lt
  have hb := b.toNat_lt
  exact UInt8.toNat.inj (by omega)

@[simp] theorem hex_length (bs : Bytes) : (hex bs).length = 2 * bs.length := by
  induction bs with
  | nil => rfl
  | cons b bs ih =>
    simp only [hex,List.flatMap_cons,List.length_append,List.length_cons] at ih ⊢
    simp only [hexByte,List.length_cons,List.length_nil]
    omega

theorem hex_injective {xs ys : Bytes} (h : hex xs = hex ys) : xs = ys := by
  induction xs generalizing ys with
  | nil =>
    have hl := congrArg List.length h
    simp only [hex_length,List.length_nil] at hl
    exact (List.length_eq_zero_iff.mp (by omega)).symm
  | cons x xs ih =>
    cases ys with
    | nil =>
      have hl := congrArg List.length h
      simp at hl
    | cons y ys =>
      simp only [hex,List.flatMap_cons] at h
      obtain ⟨hx,hr⟩ := List.append_inj h rfl
      rw [hexByte_injective hx,ih hr]

end ShardVPN
