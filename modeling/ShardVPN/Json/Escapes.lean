import ShardVPN.Json.Codec

/-! # Decoding escapes

What the decoder makes of one escape in a string, and of the blanks between tokens. A
lone surrogate is read back as it is, two in a row that form a pair come back joined.
-/
namespace ShardVPN

theorem text_uEscape : text "\\u" = [92,117] := by decide

theorem hexDigit_mod (d : ℕ) : hexDigit (d % 16) = hexDigit d := by
  unfold hexDigit
  simp only [Nat.mod_mod]

theorem hexValue_hexDigit (d : ℕ) : hexValue (hexDigit d) = some (d % 16) := by
  have hall : ∀ e < 16, hexValue (hexDigit e) = some e := by decide
  rw [← hexDigit_mod]
  exact hall _ (Nat.mod_lt _ (by decide))

theorem hex4_hexDigits (n : ℕ) (hn : n < 0x10000) (rest : Text) :
    hex4 ([hexDigit (n / 4096),hexDigit (n / 256),hexDigit (n / 16),hexDigit n] ++ rest) = some (n,rest) := by
  have hv : (((n / 4096 % 16) * 16 + n / 256 % 16) * 16 + n / 16 % 16) * 16 + n % 16 = n := by omega
  simp [hex4,hexValue_hexDigit,hv]

theorem codePoint?_val (c : CodePoint) : codePoint? c.val = some c := by
  rw [codePoint?,dif_pos c.isLt]

theorem lowSurrogate?_escape (n : ℕ) (hlo : 0xDC00 ≤ n) (hhi : n ≤ 0xDFFF) (rest : Text) :
    lowSurrogate? (unicodeEscapeOf n ++ rest) = some (n,rest) := by
  have hx := hex4_hexDigits n (by omega) rest
  rw [unicodeEscapeOf,text_uEscape]
  simp only [lowSurrogate?,text_uEscape,List.cons_append,List.nil_append,List.take_succ_cons,
    List.take_zero,↓reduceIte,List.drop_succ_cons,List.drop_zero] at hx ⊢
  rw [hx]
  simp [hlo,hhi]

/-- Two surrogate escapes in a row are one code point. -/
theorem unicodeEscape_pair (hi lo : ℕ) (hhi : 0xD800 ≤ hi ∧ hi ≤ 0xDBFF) (hlo : 0xDC00 ≤ lo ∧ lo ≤ 0xDFFF)
    (rest : Text) :
    unicodeEscape ([hexDigit (hi / 4096),hexDigit (hi / 256),hexDigit (hi / 16),hexDigit hi] ++
      (unicodeEscapeOf lo ++ rest)) =
        (codePoint? (0x10000 + (hi - 0xD800) * 1024 + (lo - 0xDC00))).map (·,rest) := by
  have hlow := lowSurrogate?_escape lo hlo.1 hlo.2 rest
  rw [unicodeEscape,hex4_hexDigits hi (by omega)]
  simp only [Option.bind_eq_bind,Option.bind_some,if_pos hhi,hlow]

theorem stringBody_simple {e c : CodePoint} (he : simpleEscape e = some c) (hu : e ≠ 117) (fuel : ℕ)
    (rest : Text) :
    stringBody (fuel + 1) ([92,e] ++ rest) = (stringBody fuel rest).map (fun p => (c :: p.1,p.2)) := by
  simp only [List.cons_append,List.nil_append,stringBody,↓reduceIte,if_neg hu,he,
    if_neg (show (92 : CodePoint) ≠ 34 by decide),Option.map_some,Option.bind_eq_bind,Option.bind_some]
  cases stringBody fuel rest <;> rfl

theorem stringBody_unicode {t rest : Text} {c : CodePoint} (ht : unicodeEscape t = some (c,rest)) (fuel : ℕ) :
    stringBody (fuel + 1) (92 :: 117 :: t) = (stringBody fuel rest).map (fun p => (c :: p.1,p.2)) := by
  simp only [stringBody,↓reduceIte,ht,if_neg (show (92 : CodePoint) ≠ 34 by decide),Option.bind_eq_bind,
    Option.bind_some]
  cases stringBody fuel rest <;> rfl

theorem skipJsonSpace_cons {c : CodePoint} (hc : isJsonSpace c = false) (rest : Text) :
    skipJsonSpace (c :: rest) = c :: rest := by
  simp [skipJsonSpace,hc]

theorem skipJsonSpace_space (rest : Text) : skipJsonSpace (32 :: rest) = skipJsonSpace rest := by
  simp [skipJsonSpace,isJsonSpace]

/-- A flat object of strings. -/
def stringFields (kvs : List (Text × Text)) : Dict := kvs.map (fun p => (p.1,.str p.2))

theorem Dict.set_of_fresh {d : Dict} {k : Text} (x : Json) (h : ∀ p ∈ d, p.1 ≠ k) :
    d.set k x = d ++ [(k,x)] := by
  have ha : d.any (fun p => decide (p.1 = k)) = false := by
    rw [List.any_eq_false]
    intro p hp
    simpa using h p hp
  rw [Dict.set,ha]
  rfl

end ShardVPN
