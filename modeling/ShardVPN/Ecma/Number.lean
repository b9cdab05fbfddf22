import Mathlib.Data.Int.Notation
import Mathlib.Data.Nat.Bitwise

/-! # Bitwise operators on numbers

The bitwise operators of ECMAScript convert their operands to 32 bits, modulo `2 ^ 32`,
and give a signed result, or an unsigned one for `>>>`. Numbers here are integers, on
which the arithmetic of the language is exact as long as they stay below `2 ^ 53`.
-/
namespace ShardVPN.Ecma

/-- The 32 bits of a number. -/
def word (x : ℤ) : BitVec 32 := BitVec.ofInt 32 x

def bitAnd (x y : ℤ) : ℤ := (word x &&& word y).toInt
def bitOr (x y : ℤ) : ℤ := (word x ||| word y).toInt
def bitXor (x y : ℤ) : ℤ := (word x ^^^ word y).toInt
def bitNot (x : ℤ) : ℤ := (~~~word x).toInt

/-- `x << n`. -/
def shl (x : ℤ) (n : ℕ) : ℤ := (word x <<< (n % 32)).toInt

/-- `x >> n`. -/
def sar (x : ℤ) (n : ℕ) : ℤ := ((word x).sshiftRight (n % 32)).toInt

/-- `x >>> n`. -/
def ushr (x : ℤ) (n : ℕ) : ℤ := (word x >>> (n % 32)).toNat

variable {x y : ℤ} {m n k : ℕ}

/-! ## Bits of results -/

@[simp] theorem word_toInt (v : BitVec 32) : word v.toInt = v := by
  simp [word]

@[simp] theorem word_toNat (v : BitVec 32) : word v.toNat = v := by
  simp [word]

@[simp] theorem word_add (x y : ℤ) : word (x + y) = word x + word y := BitVec.ofInt_add x y

@[simp] theorem word_zero : word 0 = 0 := rfl

@[simp] theorem word_bitAnd (x y : ℤ) : word (bitAnd x y) = word x &&& word y := word_toInt _
@[simp] theorem word_bitOr (x y : ℤ) : word (bitOr x y) = word x ||| word y := word_toInt _
@[simp] theorem word_bitXor (x y : ℤ) : word (bitXor x y) = word x ^^^ word y := word_toInt _
@[simp] theorem word_bitNot (x : ℤ) : word (bitNot x) = ~~~word x := word_toInt _
@[simp] theorem word_shl (x : ℤ) (n : ℕ) : word (shl x n) = word x <<< (n % 32) := word_toInt _
@[simp] theorem word_ushr (x : ℤ) (n : ℕ) : word (ushr x n) = word x >>> (n % 32) := word_toNat _

/-! ## Operators on small numbers -/

theorem toNat_word (h : n < 2 ^ 31) : (word n).toNat = n := by
  unfold word
  simp
  omega

/-- A result without its highest bit is the number of its bits. -/
theorem toInt_of_toNat {v : BitVec 32} (h : v.toNat = n) (hn : n < 2 ^ 31) : v.toInt = n := by
  rw [← h]
  apply BitVec.toInt_eq_toNat_of_lt
  omega

theorem bitAnd_nat (hm : m < 2 ^ 31) (hn : n < 2 ^ 31) : bitAnd m n = ((m &&& n : ℕ) : ℤ) := by
  apply toInt_of_toNat
  · rw [BitVec.toNat_and,toNat_word hm,toNat_word hn]
  · exact Nat.and_lt_two_pow m hn

theorem bitOr_nat (hm : m < 2 ^ 31) (hn : n < 2 ^ 31) : bitOr m n = ((m ||| n : ℕ) : ℤ) := by
  apply toInt_of_toNat
  · rw [BitVec.toNat_or,toNat_word hm,toNat_word hn]
  · exact Nat.or_lt_two_pow hm hn

theorem bitXor_nat (hm : m < 2 ^ 31) (hn : n < 2 ^ 31) : bitXor m n = ((m ^^^ n : ℕ) : ℤ) := by
  apply toInt_of_toNat
  · rw [BitVec.toNat_xor,toNat_word hm,toNat_word hn]
  · exact Nat.xor_lt_two_pow hm hn

theorem sar_nat (hn : n < 2 ^ 31) (hk : k < 32) : sar n k = ((n / 2 ^ k : ℕ) : ℤ) := by
  have hmsb : (word n).msb = false := by
    rw [BitVec.msb_eq_false_iff_two_mul_lt,toNat_word hn]
    omega
  apply toInt_of_toNat
  · rw [BitVec.sshiftRight_eq_of_msb_false hmsb,BitVec.toNat_ushiftRight,toNat_word hn,Nat.mod_eq_of_lt hk,
      Nat.shiftRight_eq_div_pow]
  · exact Nat.lt_of_le_of_lt (Nat.div_le_self n _) hn

/-- The lowest byte of a number. -/
theorem bitAnd_byte (x : ℤ) : bitAnd x 255 = ((word x).setWidth 8).toNat := by
  apply toInt_of_toNat
  · rw [BitVec.toNat_and,BitVec.toNat_setWidth]
    exact Nat.and_two_pow_sub_one_eq_mod (word x).toNat 8
  · omega

end ShardVPN.Ecma
