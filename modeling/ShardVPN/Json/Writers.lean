import Mathlib.Data.List.Chain
import ShardVPN.Json.Ascii
import ShardVPN.Json.Style
import ShardVPN.Program.Script

/-! # The two writers

`json.dumps` escapes everything outside printable ASCII, `JSON.stringify` little more
than it must. Both escape a lone surrogate, so each text is read back in which no high
surrogate stands before a low one, and each value with such texts.
-/
namespace ShardVPN

def isHigh (c : CodePoint) : Bool := inRange 0xD800 0xDBFF c
def isLow (c : CodePoint) : Bool := inRange 0xDC00 0xDFFF c

/-- No high surrogate stands before a low one. -/
def Unpaired : Text → Prop := List.IsChain fun c d => ¬(isHigh c = true ∧ isLow d = true)

/-- What may be written for a character of a string. -/
inductive Escape (c : CodePoint) : Text → Prop
  | plain : c ≠ 34 → c ≠ 92 → 32 ≤ c.val → Escape c [c]
  | simple {e : CodePoint} : simpleEscape e = some c → Escape c [92,e]
  | unit : c.val < 0x10000 → Escape c (unicodeEscapeOf c.val)
  | pair : 0x10000 ≤ c.val → Escape c (unicodeEscapeOf (0xD800 + (c.val - 0x10000) / 1024) ++
      unicodeEscapeOf (0xDC00 + (c.val - 0x10000) % 1024))

theorem Ascii.scalar {t : Text} (h : Ascii t) : Scalar t := fun c hc => isSurrogate_of_isAscii (h c hc)

theorem Scalar.cons {c : CodePoint} {t : Text} (hc : isSurrogate c = false) (ht : Scalar t) : Scalar (c :: t) :=
  List.forall_mem_cons.mpr ⟨hc,ht⟩

theorem Scalar.unpaired {s : Text} (h : Scalar s) : Unpaired s := by
  unfold Unpaired
  induction s with
  | nil => exact List.isChain_nil
  | cons c s ih =>
    have hs := ih fun d hd => h d (List.mem_cons_of_mem c hd)
    refine List.isChain_cons.mpr ⟨?_,hs⟩
    rintro d - ⟨hhigh,-⟩
    have hc := h c List.mem_cons_self
    have hrange := inRange_iff.mp hhigh
    rw [isSurrogate,inRange_iff.mpr ⟨hrange.1,by omega⟩] at hc
    cases hc

/-! ## What looks like a low surrogate -/

theorem lowSurrogate?_of_ne {c : CodePoint} (h : c ≠ 92) (rest : Text) : lowSurrogate? (c :: rest) = none := by
  rw [lowSurrogate?,text_uEscape,if_neg]
  intro htake
  exact h (List.cons.inj htake).1

theorem lowSurrogate?_simple {e : CodePoint} (h : e ≠ 117) (rest : Text) : lowSurrogate? ([92,e] ++ rest) = none := by
  rw [lowSurrogate?,text_uEscape,if_neg]
  intro htake
  exact h (List.cons.inj (List.cons.inj htake).2).1

theorem lowSurrogate?_other {n : ℕ} (hn : n < 0x10000) (h : ¬(0xDC00 ≤ n ∧ n ≤ 0xDFFF)) (rest : Text) :
    lowSurrogate? (unicodeEscapeOf n ++ rest) = none := by
  have hhex := hex4_hexDigits n hn rest
  rw [unicodeEscapeOf,text_uEscape]
  simp only [lowSurrogate?,text_uEscape,List.cons_append,List.nil_append,List.take_succ_cons,
    List.take_zero,↓reduceIte,List.drop_succ_cons,List.drop_zero] at hhex ⊢
  rw [hhex]
  exact if_neg h

/-- A code point below 2^16 is read back from its escape, unless it is the first half of a pair. -/
theorem stringBody_unit {c : CodePoint} (hc : c.val < 0x10000) (fuel : ℕ) {rest : Text}
    (hpair : isHigh c = true → lowSurrogate? rest = none) :
    stringBody (fuel + 1) (unicodeEscapeOf c.val ++ rest) = (stringBody fuel rest).map (fun p => (c :: p.1,p.2)) := by
  have hhex := hex4_hexDigits c.val hc rest
  rw [unicodeEscapeOf,text_uEscape]
  refine stringBody_unicode (t := _ :: _) ?_ fuel
  rw [unicodeEscape]
  erw [hhex]
  by_cases hhigh : 0xD800 ≤ c.val ∧ c.val ≤ 0xDBFF
  · simp [hhigh,hpair (inRange_iff.mpr hhigh),codePoint?_val]
  · simp [hhigh,codePoint?_val]

namespace Escape
variable {c : CodePoint} {t : Text}

theorem ne_nil (h : Escape c t) : t ≠ [] := by
  cases h <;> exact List.cons_ne_nil _ _

/-- One step of the scanner reads the escape. -/
theorem reads (h : Escape c t) (fuel : ℕ) {rest : Text} (hpair : isHigh c = true → lowSurrogate? rest = none) :
    stringBody (fuel + 1) (t ++ rest) = (stringBody fuel rest).map (fun p => (c :: p.1,p.2)) := by
  cases h with
  | plain hquote hslash hlow =>
    rw [List.singleton_append]
    simp only [stringBody]
    rw [if_neg hquote,if_neg hslash,if_neg (by omega)]
    cases stringBody fuel rest <;> rfl
  | simple he =>
    refine stringBody_simple he ?_ fuel rest
    rintro rfl
    cases he
  | unit hc => exact stringBody_unit hc fuel hpair
  | pair hc =>
    have hlt := c.isLt
    have hjoin := unicodeEscape_pair (0xD800 + (c.val - 0x10000) / 1024)
      (0xDC00 + (c.val - 0x10000) % 1024) (by omega) (by omega) rest
    have hv : 0x10000 + (0xD800 + (c.val - 0x10000) / 1024 - 0xD800) * 1024 +
        (0xDC00 + (c.val - 0x10000) % 1024 - 0xDC00) = c.val := by omega
    rw [hv,codePoint?_val] at hjoin
    rw [List.append_assoc]
    generalize 0xD800 + (c.val - 0x10000) / 1024 = hi at hjoin ⊢
    rw [unicodeEscapeOf,text_uEscape]
    exact stringBody_unicode hjoin fuel

/-- The escape is not taken for that of a low surrogate. -/
theorem apart (h : Escape c t) (hlow : isLow c = false) (rest : Text) : lowSurrogate? (t ++ rest) = none := by
  cases h with
  | plain _ hslash _ => exact lowSurrogate?_of_ne hslash rest
  | simple he =>
    refine lowSurrogate?_simple ?_ rest
    rintro rfl
    cases he
  | unit hc =>
    refine lowSurrogate?_other hc ?_ rest
    intro hrange
    rw [isLow,inRange_iff.mpr hrange] at hlow
    cases hlow
  | pair hc =>
    have hlt := c.isLt
    rw [List.append_assoc]
    exact lowSurrogate?_other (by omega) (by omega) _

end Escape

namespace Style
variable {y : Style} (hescape : ∀ c, Escape c (y.char c))
include hescape

theorem stringBody_unpaired {s : Text} (hs : Unpaired s) (fuel : ℕ) (hf : s.length < fuel) (rest : Text) :
    stringBody fuel (s.flatMap y.char ++ 34 :: rest) = some (s,rest) := by
  induction s generalizing fuel with
  | nil =>
    obtain ⟨fuel,rfl⟩ := Nat.exists_eq_add_one_of_ne_zero (Nat.ne_of_gt hf)
    simp [stringBody]
  | cons c s ih =>
    obtain ⟨fuel,rfl⟩ := Nat.exists_eq_add_one_of_ne_zero (Nat.ne_of_gt (Nat.zero_lt_of_lt hf))
    obtain ⟨hnext,htail⟩ := List.isChain_cons.mp hs
    have hpair : isHigh c = true → lowSurrogate? (s.flatMap y.char ++ 34 :: rest) = none := by
      intro hhigh
      cases s with
      | nil => exact lowSurrogate?_of_ne (by decide) rest
      | cons d s =>
        rw [List.flatMap_cons,List.append_assoc]
        exact (hescape d).apart (by simpa [hhigh] using hnext d rfl) _
    rw [List.flatMap_cons,List.append_assoc,(hescape c).reads fuel hpair,ih htail fuel (by simpa using hf)]
    rfl

/-- A text without a pair is read back. -/
theorem reads_unpaired (s : Text) (hs : Unpaired s) : y.Reads s := by
  intro rest
  have hlength : s.length ≤ (s.flatMap y.char).length := by
    clear hs
    induction s with
    | nil => exact Nat.le_refl 0
    | cons c s ih =>
      have hc := List.length_pos_iff.mpr (hescape c).ne_nil
      rw [List.flatMap_cons,List.length_append,List.length_cons]
      omega
  rw [scanString,stringBody_unpaired hescape hs]
  rw [List.length_append]
  omega

end Style

/-! ## The writers -/

theorem escapeChar_escape (c : CodePoint) : Escape c (escapeChar c) := by
  unfold escapeChar
  by_cases h34 : c = 34
  · subst h34
    exact .simple (e := 34) (by decide)
  rw [if_neg h34]
  by_cases h92 : c = 92
  · subst h92
    exact .simple (e := 92) (by decide)
  rw [if_neg h92]
  split
  · rename_i h
    exact h ▸ .simple (by decide)
  split
  · rename_i h
    exact h ▸ .simple (by decide)
  split
  · rename_i h
    exact h ▸ .simple (by decide)
  split
  · rename_i h
    exact h ▸ .simple (by decide)
  split
  · rename_i h
    exact h ▸ .simple (by decide)
  split
  · rename_i h
    exact .plain h34 h92 (inRange_iff.mp h).1
  split
  · exact .unit (by assumption)
  · exact .pair (by omega)

/-- What `json.dumps` writes for a value, `json.loads` reads back. -/
theorem loads_dumps {v : Json} (h : Legible Unpaired v) : loads (dumps v) = .ok v := by
  rw [← write_dumps]
  exact Style.loads_write (Style.reads_unpaired escapeChar_escape) h

/-- A flat object of texts is legible when its texts are. -/
theorem legible_strings {G : Text → Prop} {ms : List (Text × Text)} (hms : ∀ p ∈ ms, G p.1 ∧ G p.2)
    (hkeys : (ms.map Prod.fst).Nodup) : Legible G (.obj (stringFields ms)) := by
  refine .obj ?_ ?_ ?_
  · rwa [stringFields,List.map_map]
  · rintro _ hp
    obtain ⟨m,hm,rfl⟩ := List.mem_map.mp hp
    exact (hms m hm).1
  · rintro _ hp
    obtain ⟨m,hm,rfl⟩ := List.mem_map.mp hp
    exact .str (hms m hm).2

/-- Null, texts, and lists and objects of them under names: what all readers of JSON take alike. -/
inductive Worded : Json → Prop
  | null : Worded .null
  | str {s : Text} : Scalar s → Worded (.str s)
  | arr {items : List Json} : (∀ x ∈ items, Worded x) → Worded (.arr items)
  | obj {fields : List (Text × Json)} : (fields.map Prod.fst).Nodup →
      (∀ k ∈ fields.map Prod.fst, Scalar k ∧ k.head?.any isAsciiDigit = false) → (∀ p ∈ fields, Worded p.2) →
      Worded (.obj fields)

theorem Worded.legible {v : Json} (h : Worded v) : Legible Unpaired v := by
  induction h with
  | null => exact .null
  | str hs => exact .str hs.unpaired
  | arr _ ih => exact .arr ih
  | obj hkeys hnames _ ih => exact .obj hkeys (fun p hp => (hnames _ (List.mem_map_of_mem hp)).1.unpaired) ih

namespace Script

/-- The style of `JSON.stringify`. -/
def stringifyStyle : Style := ⟨quoteChar,0,0⟩

theorem quoteChar_escape (c : CodePoint) : Escape c (quoteChar c) := by
  unfold quoteChar
  split
  · rename_i h
    exact h ▸ .simple (by decide)
  split
  · rename_i h
    exact h ▸ .simple (by decide)
  split
  · rename_i h
    exact h ▸ .simple (by decide)
  split
  · rename_i h
    exact h ▸ .simple (by decide)
  split
  · rename_i h
    exact h ▸ .simple (by decide)
  by_cases h34 : c = 34
  · rw [if_pos h34]
    exact h34 ▸ .simple (by decide)
  rw [if_neg h34]
  by_cases h92 : c = 92
  · rw [if_pos h92]
    exact h92 ▸ .simple (by decide)
  rw [if_neg h92]
  split
  · rename_i h
    refine .unit ?_
    rcases h with h | h
    · omega
    · have := (inRange_iff.mp h).2
      omega
  · rename_i h
    exact .plain h34 h92 (by omega)

theorem writeFields_strings (ms : List (Text × Text)) : stringifyStyle.writeFields (stringFields ms) =
    ((ms.map fun p => quote p.1 ++ 58 :: quote p.2).intersperse [44]).flatten := by
  induction ms with
  | nil => rfl
  | cons m ms ih =>
    cases ms with
    | nil =>
      change quote m.1 ++ 58 :: quote m.2 = quote m.1 ++ 58 :: quote m.2 ++ []
      rw [List.append_nil]
    | cons n ms =>
      change quote m.1 ++ 58 :: (quote m.2 ++ 44 :: stringifyStyle.writeFields (stringFields (n :: ms))) = _
      rw [ih]
      simp only [List.map_cons]
      rw [List.intersperse_cons_cons,List.flatten_cons,List.flatten_cons]
      simp only [List.append_assoc,List.cons_append]
      rfl

theorem write_stringify (ms : List (Text × Text)) : stringifyStyle.write (.obj (stringFields ms)) = stringify ms := by
  rw [Style.write,stringify,writeFields_strings]
  rfl

/-- What `JSON.stringify` writes for texts under distinct keys, `json.loads` reads back. -/
theorem loads_stringify {ms : List (Text × Text)} (hms : ∀ p ∈ ms, Unpaired p.1 ∧ Unpaired p.2)
    (hkeys : (ms.map Prod.fst).Nodup) : loads (stringify ms) = .ok (.obj (stringFields ms)) := by
  rw [← write_stringify]
  exact Style.loads_write (Style.reads_unpaired quoteChar_escape) (legible_strings hms hkeys)

end Script

end ShardVPN
