import ShardVPN.Text.Codec

/-! # Decoding UTF-8 again

Each code point is decoded from its own bytes, by the length of its form, so every
text comes back from its encoding.
-/
namespace ShardVPN

theorem toNat_byte {n : ℕ} (h : n < 256) : (byte n).toNat = n := by
  rw [byte,UInt8.toNat_ofNat']
  exact Nat.mod_eq_of_lt h

theorem tailBits_byte {n : ℕ} (h : n < 64) : tailBits (byte (0x80 + n)) = some n := by
  have hn : (byte (0x80 + n)).toNat = 0x80 + n := toNat_byte (by omega)
  unfold tailBits
  rw [hn,if_pos (by omega),Nat.add_sub_cancel_left]

theorem codePoint?_self (c : CodePoint) {n : ℕ} (h : n = c.val) : codePoint? n = some c := by
  subst h
  rw [codePoint?,dif_pos c.isLt]

section
variable {a b d f : UInt8} (rest : Bytes)

theorem decodeUtf8_one (ha : a.toNat < 0x80) {c : CodePoint} (hc : a.toNat = c.val) :
    decodeUtf8 (a :: rest) = (decodeUtf8 rest).map (c :: ·) := by
  rw [decodeUtf8.eq_def]
  dsimp only
  rw [if_pos ha,codePoint?_self c hc]
  rfl

theorem decodeUtf8_two (ha : 0xC2 ≤ a.toNat ∧ a.toNat ≤ 0xDF) {x : ℕ} (hb : tailBits b = some x) {c : CodePoint}
    (hc : (a.toNat - 0xC0) * 64 + x = c.val) : decodeUtf8 (a :: b :: rest) = (decodeUtf8 rest).map (c :: ·) := by
  rw [decodeUtf8.eq_def]
  dsimp only
  rw [if_neg (by omega),if_pos ha,hb,Option.bind_eq_bind,Option.bind_some,codePoint?_self c hc]
  rfl

theorem decodeUtf8_three (ha : 0xE0 ≤ a.toNat ∧ a.toNat ≤ 0xEF) {x y : ℕ} (hb : tailBits b = some x)
    (hd : tailBits d = some y) {c : CodePoint} (hc : (a.toNat - 0xE0) * 4096 + x * 64 + y = c.val)
    (hlarge : 0x800 ≤ c.val) : decodeUtf8 (a :: b :: d :: rest) = (decodeUtf8 rest).map (c :: ·) := by
  rw [decodeUtf8.eq_def]
  dsimp only
  rw [if_neg (by omega),if_neg (by omega),if_pos ha,hb,hd]
  iterate 2 rw [Option.bind_eq_bind,Option.bind_some]
  rw [hc,if_neg (by omega),codePoint?_self c rfl]
  rfl

theorem decodeUtf8_four (ha : 0xF0 ≤ a.toNat ∧ a.toNat ≤ 0xF4) {x y z : ℕ} (hb : tailBits b = some x)
    (hd : tailBits d = some y) (hf : tailBits f = some z) {c : CodePoint}
    (hc : (a.toNat - 0xF0) * 262144 + x * 4096 + y * 64 + z = c.val) (hlarge : 0x10000 ≤ c.val) :
    decodeUtf8 (a :: b :: d :: f :: rest) = (decodeUtf8 rest).map (c :: ·) := by
  rw [decodeUtf8.eq_def]
  dsimp only
  rw [if_neg (by omega),if_neg (by omega),if_neg (by omega),if_pos ha,hb,hd,hf]
  iterate 3 rw [Option.bind_eq_bind,Option.bind_some]
  rw [hc,if_neg (by omega),codePoint?_self c rfl]
  rfl

end

/-- The bytes of a code point are read as that code point. -/
theorem decodeUtf8_utf8Bytes (c : CodePoint) (rest : Bytes) :
    decodeUtf8 (utf8Bytes c ++ rest) = (decodeUtf8 rest).map (c :: ·) := by
  have hc := c.isLt
  unfold utf8Bytes
  dsimp only
  split
  · have ha : (byte c.val).toNat = c.val := toNat_byte (by omega)
    exact decodeUtf8_one rest (by omega) ha
  split
  · have ha : (byte (0xC0 + c.val / 64)).toNat = 0xC0 + c.val / 64 := toNat_byte (by omega)
    exact decodeUtf8_two rest (by omega) (tailBits_byte (by omega)) (by omega)
  split
  · have ha : (byte (0xE0 + c.val / 4096)).toNat = 0xE0 + c.val / 4096 := toNat_byte (by omega)
    exact decodeUtf8_three rest (by omega) (tailBits_byte (by omega)) (tailBits_byte (by omega)) (by omega) (by omega)
  · have ha : (byte (0xF0 + c.val / 262144)).toNat = 0xF0 + c.val / 262144 := toNat_byte (by omega)
    exact decodeUtf8_four rest (by omega) (tailBits_byte (by omega)) (tailBits_byte (by omega)) (tailBits_byte (by omega))
      (by omega) (by omega)

theorem decodeUtf8_encodeUtf8 {t : Text} {bytes : Bytes} (h : encodeUtf8 t = some bytes) : decodeUtf8 bytes = some t := by
  obtain ⟨-,rfl⟩ := encodeUtf8_eq_some.mp h
  clear h
  induction t with
  | nil => rfl
  | cons c t ih => rw [List.flatMap_cons,decodeUtf8_utf8Bytes,ih,Option.map_some]

end ShardVPN
