import Mathlib.Algebra.GroupWithZero.Nat
import Mathlib.Data.Int.Notation
import Mathlib.Data.List.Basic

/-! # Texts over arbitrary code points

A text is a sequence of code points, lone surrogates included: this is the string
of the interpreter, which JSON escapes can fill with code points that no UTF-8
encoding has. Digits are decimal digits of any script, as `int` and `\d` read them.
-/
namespace ShardVPN

abbrev CodePoint := Fin 0x110000
abbrev Text := List CodePoint
abbrev Bytes := List UInt8

instance codePointNeZero : NeZero 0x110000 := ⟨by decide⟩
instance codePointLawfulBEq : LawfulBEq CodePoint := inferInstance
instance textLawfulBEq : LawfulBEq Text := inferInstance

def codePoint (c : Char) : CodePoint := ⟨c.toNat,by
  rcases c.valid with h | h
  · exact Nat.lt_of_lt_of_le h (by decide)
  · exact h.2⟩

/-- A text written as a literal. -/
def text (s : String) : Text := s.toList.map codePoint

/-- The characters of a literal, without decoding it. -/
theorem text_ofList (cs : List Char) : text (String.ofList cs) = cs.map codePoint := by
  simp [text]

def inRange (lo hi : ℕ) (c : CodePoint) : Bool := lo ≤ c.val && c.val ≤ hi

@[simp] theorem inRange_iff {lo hi : ℕ} {c : CodePoint} : inRange lo hi c = true ↔ lo ≤ c.val ∧ c.val ≤ hi := by
  simp [inRange]

def isSurrogate (c : CodePoint) : Bool := inRange 0xD800 0xDFFF c
def isAscii (c : CodePoint) : Bool := inRange 0 0x7F c
def isAsciiDigit (c : CodePoint) : Bool := inRange 48 57 c

/-- Only Unicode scalar values: the texts that services can hold. -/
def Scalar (t : Text) : Prop := ∀ c ∈ t, isSurrogate c = false

instance (t : Text) : Decidable (Scalar t) :=
  decidable_of_iff (t.all (fun c => !isSurrogate c) = true) (by simp [Scalar])

theorem Scalar.append {s t : Text} (hs : Scalar s) (ht : Scalar t) : Scalar (s ++ t) := by
  intro c hc
  rcases List.mem_append.mp hc with hc | hc
  · exact hs c hc
  · exact ht c hc

theorem isSurrogate_of_isAscii {c : CodePoint} (h : isAscii c = true) : isSurrogate c = false := by
  have hc := (inRange_iff.mp h).2
  rw [← Bool.not_eq_true]
  intro hs
  have := (inRange_iff.mp hs).1
  omega

/-! ## Decimal digits -/

/-- The code points of value zero, one for each run of ten decimal digits. -/
def digitZeros : List ℕ :=
  [0x30,0x660,0x6F0,0x7C0,0x966,0x9E6,0xA66,0xAE6,0xB66,0xBE6,0xC66,0xCE6,0xD66,0xDE6,0xE50,0xED0,
    0xF20,0x1040,0x1090,0x17E0,0x1810,0x1946,0x19D0,0x1A80,0x1A90,0x1B50,0x1BB0,0x1C40,0x1C50,
    0xA620,0xA8D0,0xA900,0xA9D0,0xA9F0,0xAA50,0xABF0,0xFF10,0x104A0,0x10D30,0x11066,0x110F0,
    0x11136,0x111D0,0x112F0,0x11450,0x114D0,0x11650,0x116C0,0x11730,0x118E0,0x11950,0x11C50,
    0x11D50,0x11DA0,0x11F50,0x16A60,0x16AC0,0x16B50,0x1D7CE,0x1D7D8,0x1D7E2,0x1D7EC,0x1D7F6,
    0x1E140,0x1E2F0,0x1E4F0,0x1E950,0x1FBF0]

/-- The value of a decimal digit of any script. -/
def decimalValue (c : CodePoint) : Option ℕ :=
  (digitZeros.find? (fun z => decide (z ≤ c.val) && decide (c.val < z + 10))).map (fun z => c.val - z)

/-- The ASCII digit of value `d % 10`. -/
def digit (d : ℕ) : CodePoint := ⟨48 + d % 10,by omega⟩

theorem decimalValue_digit (d : ℕ) : decimalValue (digit d) = some (d % 10) := by
  have hz : digitZeros.find? (fun z => decide (z ≤ (digit d).val) && decide ((digit d).val < z + 10)) =
      some 0x30 := by
    refine List.find?_cons_of_pos ?_
    simp only [Bool.and_eq_true,decide_eq_true_eq]
    dsimp only [digit]
    omega
  rw [decimalValue,hz]
  simp [digit]

@[simp] theorem isAsciiDigit_digit (d : ℕ) : isAsciiDigit (digit d) = true := by
  refine inRange_iff.mpr ?_
  dsimp only [digit]
  omega

theorem isAscii_of_isAsciiDigit {c : CodePoint} (h : isAsciiDigit c = true) : isAscii c = true := by
  have := (inRange_iff.mp h).2
  exact inRange_iff.mpr (by omega)

/-- The decimal numeral of a natural number. -/
def decimal (n : ℕ) : Text := (Nat.toDigits 10 n).map codePoint

theorem decimal_ne_nil (n : ℕ) : decimal n ≠ [] := by
  unfold decimal
  apply List.ne_nil_of_length_pos
  rw [List.length_map]
  exact Nat.length_toDigits_pos

theorem decimal_digits (n : ℕ) : ∀ c ∈ decimal n, isAsciiDigit c = true := by
  intro c hc
  obtain ⟨d,hd,rfl⟩ := List.mem_map.mp hc
  have hdigit := Char.isDigit_iff_toNat.mp (Nat.isDigit_of_mem_toDigits (by decide) (by decide) hd)
  exact inRange_iff.mpr hdigit

def decimalInt (n : ℤ) : Text := if n < 0 then text "-" ++ decimal n.natAbs else decimal n.natAbs

/-- The value of a sequence of digit values, most significant first. -/
def ofDigitValues (ds : List ℕ) : ℕ := ds.foldl (fun n d => 10 * n + d) 0

/-! ## Reading integers -/

/-- The spaces `int` strips: those of C for ASCII, those of Unicode above. -/
def isIntSpace (c : CodePoint) : Bool :=
  inRange 9 13 c || c == 32 || c == 0x85 || c == 0xA0 || c == 0x1680 || inRange 0x2000 0x200A c ||
    c == 0x2028 || c == 0x2029 || c == 0x202F || c == 0x205F || c == 0x3000

def stripSpaces (t : Text) : Text :=
  ((t.dropWhile isIntSpace).reverse.dropWhile isIntSpace).reverse

/-- The digit values of a numeral whose digits may be separated by single
underscores; the flag says whether the last character was a digit. -/
def numeralDigits : Bool → Text → Option (List ℕ)
  | true,[] => some []
  | false,[] => none
  | afterDigit,c :: rest =>
    if c = 95 then if afterDigit then numeralDigits false rest else none
    else match decimalValue c with
      | some d => (numeralDigits true rest).map (d :: ·)
      | none => none

/-- Numerals of more digits are refused by `int` with a `ValueError`. -/
def maxStrDigits : ℕ := 4300

/-- Whether there is a minus sign, and the text after the sign. -/
def splitSign : Text → Bool × Text
  | 45 :: rest => (true,rest)
  | 43 :: rest => (false,rest)
  | rest => (false,rest)

/-- `int(text)`; `none` stands for its `ValueError`. -/
def int (t : Text) : Option ℤ :=
  let signed := splitSign (stripSpaces t)
  match numeralDigits false signed.2 with
  | some ds =>
    if maxStrDigits < ds.length then none
    else some (if signed.1 then -Int.ofNat (ofDigitValues ds) else Int.ofNat (ofDigitValues ds))
  | none => none

end ShardVPN
