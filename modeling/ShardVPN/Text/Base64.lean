import ShardVPN.Text.Codec

/-! # Base64 encoding

Three bytes are four characters; one or two last bytes are padded with the sign of
equality. The strict decoder takes back what was encoded.
-/
namespace ShardVPN

/-- The character of a value below 64. -/
def base64Char (n : ℕ) : CodePoint :=
  if n < 26 then ⟨65 + n % 64,by omega⟩
  else if n < 52 then ⟨71 + n % 64,by omega⟩
  else if n < 62 then ⟨n % 64 - 4,by omega⟩
  else if n = 62 then 43
  else 47

def encodeBase64 : Bytes → Text
  | [] => []
  | [a] => [base64Char (a.toNat / 4),base64Char (a.toNat % 4 * 16),61,61]
  | [a,b] => [base64Char (a.toNat / 4),base64Char (a.toNat % 4 * 16 + b.toNat / 16),base64Char (b.toNat % 16 * 4),61]
  | a :: b :: c :: rest =>
    base64Char (a.toNat / 4) :: base64Char (a.toNat % 4 * 16 + b.toNat / 16) ::
      base64Char (b.toNat % 16 * 4 + c.toNat / 64) :: base64Char (c.toNat % 64) :: encodeBase64 rest

theorem base64Char_facts : ∀ n < 64, base64Value (base64Char n) = some n ∧ base64Char n ≠ 61 ∧
    isAscii (base64Char n) = true := by decide

variable {n left : ℕ} {rest : Text}

/-! ## The four characters of a quad -/

theorem base64Scan_first (hn : n < 64) :
    base64Scan 0 left false 0 (base64Char n :: rest) = base64Scan 1 n false 0 rest := by
  obtain ⟨hvalue,hpad,-⟩ := base64Char_facts n hn
  rw [base64Scan,if_neg hpad,hvalue]
  rfl

theorem base64Scan_second (hn : n < 64) : base64Scan 1 left false 0 (base64Char n :: rest) =
    (base64Scan 2 (n % 16) false 0 rest).map (byte (left * 4 + n / 16) :: ·) := by
  obtain ⟨hvalue,hpad,-⟩ := base64Char_facts n hn
  rw [base64Scan,if_neg hpad,hvalue]
  rfl

theorem base64Scan_third (hn : n < 64) : base64Scan 2 left false 0 (base64Char n :: rest) =
    (base64Scan 3 (n % 4) false 0 rest).map (byte (left * 16 + n / 4) :: ·) := by
  obtain ⟨hvalue,hpad,-⟩ := base64Char_facts n hn
  rw [base64Scan,if_neg hpad,hvalue]
  rfl

theorem base64Scan_fourth (hn : n < 64) : base64Scan 3 left false 0 (base64Char n :: rest) =
    (base64Scan 0 0 false 0 rest).map (byte (left * 64 + n) :: ·) := by
  obtain ⟨hvalue,hpad,-⟩ := base64Char_facts n hn
  rw [base64Scan,if_neg hpad,hvalue]
  rfl

/-! ## The round trip -/

theorem byte_toNat {m : ℕ} {b : UInt8} (h : m = b.toNat) : byte m = b := by
  unfold byte
  rw [h]
  exact UInt8.ofNat_toNat

theorem base64Scan_encode (bytes : Bytes) : base64Scan 0 0 false 0 (encodeBase64 bytes) = some bytes := by
  induction bytes using encodeBase64.induct with
  | case1 => rfl
  | case2 a =>
    have ha := a.toNat_lt
    unfold encodeBase64
    rw [base64Scan_first (by omega),base64Scan_second (by omega)]
    simp [base64Scan]
    apply byte_toNat
    omega
  | case3 a b =>
    have ha := a.toNat_lt
    have hb := b.toNat_lt
    unfold encodeBase64
    rw [base64Scan_first (by omega),base64Scan_second (by omega),base64Scan_third (by omega)]
    simp [base64Scan]
    constructor <;> apply byte_toNat <;> omega
  | case4 a b c rest ih =>
    have ha := a.toNat_lt
    have hb := b.toNat_lt
    have hc := c.toNat_lt
    unfold encodeBase64
    rw [base64Scan_first (by omega),base64Scan_second (by omega),base64Scan_third (by omega),
      base64Scan_fourth (by omega),ih]
    simp
    refine ⟨?_,?_,?_⟩ <;> apply byte_toNat <;> omega

theorem encodeBase64_head (bytes : Bytes) : (encodeBase64 bytes).head? ≠ some 61 := by
  have hfirst : ∀ a : UInt8, base64Char (a.toNat / 4) ≠ 61 := by
    intro a
    have ha := a.toNat_lt
    exact (base64Char_facts _ (by omega)).2.1
  cases bytes using encodeBase64.induct <;> simp [encodeBase64,hfirst]

/-- What is encoded is decoded. -/
theorem decodeBase64_encode (bytes : Bytes) : decodeBase64 (encodeBase64 bytes) = some bytes := by
  unfold decodeBase64
  rw [if_neg (encodeBase64_head bytes)]
  exact base64Scan_encode bytes

theorem encodeBase64_ascii (bytes : Bytes) : (encodeBase64 bytes).all isAscii = true := by
  have hchar : ∀ n, n < 64 → isAscii (base64Char n) = true := fun n hn => (base64Char_facts n hn).2.2
  have hpad : isAscii 61 = true := by decide
  induction bytes using encodeBase64.induct with
  | case1 => rfl
  | case2 a =>
    have ha := a.toNat_lt
    simp [encodeBase64,hpad,hchar (a.toNat / 4) (by omega),hchar (a.toNat % 4 * 16) (by omega)]
  | case3 a b =>
    have ha := a.toNat_lt
    have hb := b.toNat_lt
    simp [encodeBase64,hpad,hchar (a.toNat / 4) (by omega),hchar (a.toNat % 4 * 16 + b.toNat / 16) (by omega),
      hchar (b.toNat % 16 * 4) (by omega)]
  | case4 a b c rest ih =>
    have ha := a.toNat_lt
    have hb := b.toNat_lt
    have hc := c.toNat_lt
    unfold encodeBase64
    simp [ih,hchar (a.toNat / 4) (by omega),hchar (a.toNat % 4 * 16 + b.toNat / 16) (by omega),
      hchar (b.toNat % 16 * 4 + c.toNat / 64) (by omega),hchar (c.toNat % 64) (by omega)]

end ShardVPN
