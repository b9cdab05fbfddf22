import ShardVPN.Auth.Verify
import ShardVPN.Json.Escapes

/-! # Writing values in a style

Writers of JSON differ in how they escape the characters of a string and in the blanks
after a comma and a colon. Whatever a writer's style, the decoder reads back every
value it can write: one without fractions, with distinct keys, and with texts whose
escapes are read back.
-/
namespace ShardVPN

structure Style where
  char : CodePoint → Text
  comma : ℕ
  colon : ℕ

def blanks (n : ℕ) : Text := List.replicate n 32

namespace Style
variable (y : Style)

def quoted (s : Text) : Text := 34 :: (s.flatMap y.char ++ [34])

mutual

def write : Json → Text
  | .null => text "null"
  | .bool b => if b then text "true" else text "false"
  | .int n => decimalInt n
  | .float x => dumps (.float x)
  | .str s => y.quoted s
  | .arr items => 91 :: (writeItems items ++ [93])
  | .obj fields => 123 :: (writeFields fields ++ [125])

def writeItems : List Json → Text
  | [] => []
  | [x] => write x
  | x :: z :: rest => write x ++ 44 :: (blanks y.comma ++ writeItems (z :: rest))

def writeFields : List (Text × Json) → Text
  | [] => []
  | [(k,x)] => y.quoted k ++ 58 :: (blanks y.colon ++ write x)
  | (k,x) :: z :: rest => y.quoted k ++ 58 :: (blanks y.colon ++ (write x ++
      44 :: (blanks y.comma ++ writeFields (z :: rest))))

end

/-- The escapes of the text are read back. -/
def Reads (s : Text) : Prop := ∀ rest, scanString (s.flatMap y.char ++ 34 :: rest) = .ok (s,rest)

end Style

/-- The values without fractions, with distinct keys, and with texts of a kind. -/
inductive Legible (G : Text → Prop) : Json → Prop
  | null : Legible G .null
  | bool (b : Bool) : Legible G (.bool b)
  | int {n : ℤ} : (decimal n.natAbs).length ≤ maxStrDigits → Legible G (.int n)
  | str {s : Text} : G s → Legible G (.str s)
  | arr {items : List Json} : (∀ x ∈ items, Legible G x) → Legible G (.arr items)
  | obj {fields : List (Text × Json)} : (fields.map Prod.fst).Nodup → (∀ p ∈ fields, G p.1) →
      (∀ p ∈ fields, Legible G p.2) → Legible G (.obj fields)

/-- What may follow a value. -/
def Stops (rest : Text) : Prop := rest = [] ∨ ∃ c t, rest = c :: t ∧ (c = 44 ∨ c = 93 ∨ c = 125)

/-! ## Numbers -/

theorem decimal_cons (n : ℕ) : ∃ c t, decimal n = c :: t ∧ isAsciiDigit c = true ∧ (n ≠ 0 → c ≠ 48) := by
  induction n using Nat.strongRecOn with
  | ind n ih =>
    by_cases hn : n < 10
    · have hall : ∀ m < 10, decimal m = [digit m] ∧ (m ≠ 0 → digit m ≠ 48) := by decide
      obtain ⟨hdigit,hne⟩ := hall n hn
      exact ⟨digit n,[],hdigit,isAsciiDigit_digit n,hne⟩
    · obtain ⟨c,t,ht,hc,hne⟩ := ih (n / 10) (by omega)
      have hsplit : decimal n = decimal (n / 10) ++ [codePoint (n % 10).digitChar] := by
        unfold decimal
        rw [Nat.toDigits_of_base_le (by decide) (by omega),List.map_append]
        rfl
      exact ⟨c,t ++ [codePoint (n % 10).digitChar],by rw [hsplit,ht]; rfl,hc,fun _ => hne (by omega)⟩

theorem Stops.digit {rest : Text} (h : Stops rest) : rest.takeWhile isAsciiDigit = [] := by
  rcases h with rfl | ⟨c,t,rfl,rfl | rfl | rfl⟩ <;> rfl

theorem Stops.fraction {rest : Text} (h : Stops rest) : scanFraction rest = ([],rest) := by
  rcases h with rfl | ⟨c,t,rfl,rfl | rfl | rfl⟩ <;> rfl

theorem Stops.exponent {rest : Text} (h : Stops rest) : scanExponent rest = (none,rest) := by
  rcases h with rfl | ⟨c,t,rfl,rfl | rfl | rfl⟩ <;> rfl

/-- The digits of a numeral are the whole part that is scanned. -/
theorem whole_decimal (n : ℕ) {rest : Text} (h : Stops rest) :
    (if (decimal n ++ rest).head? = some 48 then (decimal n ++ rest).take 1
      else (decimal n ++ rest).takeWhile isAsciiDigit) = decimal n := by
  obtain ⟨c,t,ht,-,hne⟩ := decimal_cons n
  by_cases hn : n = 0
  · subst hn
    rfl
  · rw [if_neg,List.takeWhile_append_of_pos (decimal_digits n),h.digit,List.append_nil]
    rw [ht]
    simpa using hne hn

theorem scanNumber_decimalInt {n : ℤ} (hn : (decimal n.natAbs).length ≤ maxStrDigits) {rest : Text} (h : Stops rest) :
    scanNumber (decimalInt n ++ rest) = .ok (.int n,rest) := by
  obtain ⟨c,t,ht,hc,-⟩ := decimal_cons n.natAbs
  have hvalue : ofDigitValues (asciiDigitValues (decimal n.natAbs)) = n.natAbs := Auth.value_decimal n.natAbs
  have hnonempty : (decimal n.natAbs).isEmpty = false := by rw [ht]; rfl
  unfold decimalInt
  by_cases hneg : n < 0
  · have hhead : text "-" ++ decimal n.natAbs ++ rest = 45 :: (decimal n.natAbs ++ rest) := rfl
    rw [if_pos hneg,hhead]
    simp only [scanNumber,List.head?_cons,decide_true,if_true,List.drop_succ_cons,List.drop_zero,whole_decimal _ h,
      hnonempty,List.drop_left,h.fraction,h.exponent,List.isEmpty_nil,and_self,if_neg (Nat.not_lt.mpr hn),hvalue,
      Bool.false_eq_true,if_false]
    have hn : -Int.ofNat n.natAbs = n := by
      dsimp only [Int.ofNat_eq_natCast]
      omega
    rw [hn]
  · have hminus : (decimal n.natAbs ++ rest).head? ≠ some 45 := by
      rw [ht]
      rintro ⟨⟩
      cases hc
    rw [if_neg hneg]
    simp only [scanNumber,hminus,decide_false,Bool.false_eq_true,if_false,whole_decimal _ h,
      hnonempty,List.drop_left,h.fraction,h.exponent,List.isEmpty_nil,and_self,if_neg (Nat.not_lt.mpr hn),hvalue,
      if_true]
    have hn : Int.ofNat n.natAbs = n := by
      dsimp only [Int.ofNat_eq_natCast]
      omega
    rw [hn]

/-- No constant has a digit. -/
theorem scanConstant_digit {t : Text} {c : CodePoint} (hc : isAsciiDigit c = true) {i : ℕ} (hi : i < 2)
    (ht : t[i]? = some c) : scanConstant t = none := by
  have hconstants : jsonConstants.all (fun p => decide (2 ≤ p.1.length) && !p.1.any isAsciiDigit) = true := by decide
  rw [scanConstant,Option.map_eq_none_iff,List.find?_eq_none]
  intro p hp htake
  have hp := List.all_eq_true.mp hconstants p hp
  rw [Bool.and_eq_true,decide_eq_true_eq,Bool.not_eq_true',List.any_eq_false] at hp
  obtain ⟨hlength,hdigits⟩ := hp
  have hmem : c ∈ p.1 := by
    rw [← of_decide_eq_true htake]
    refine List.mem_of_getElem? (i := i) ?_
    rw [List.getElem?_take_of_lt (by omega),ht]
  exact hdigits c hmem hc

theorem scanValue_int {n : ℤ} (hn : (decimal n.natAbs).length ≤ maxStrDigits) (fuel : ℕ) {rest : Text}
    (h : Stops rest) : scanValue (fuel + 1) (decimalInt n ++ rest) = .ok (.int n,rest) := by
  obtain ⟨c,t,ht,hc,-⟩ := decimal_cons n.natAbs
  have hother : ∀ d : CodePoint, isAsciiDigit d = false → c ≠ d := by
    rintro d hd rfl
    rw [hd] at hc
    cases hc
  have hscan := scanNumber_decimalInt hn h
  by_cases hneg : n < 0
  · have hcons : decimalInt n ++ rest = 45 :: (c :: (t ++ rest)) := by
      rw [decimalInt,if_pos hneg,ht]
      rfl
    rw [hcons] at hscan ⊢
    rw [scanValue,if_neg (by decide),if_neg (by decide),if_neg (by decide),
      scanConstant_digit hc (i := 1) (by decide) rfl]
    exact hscan
  · have hcons : decimalInt n ++ rest = c :: (t ++ rest) := by
      rw [decimalInt,if_neg hneg,ht]
      rfl
    rw [hcons] at hscan ⊢
    rw [scanValue,if_neg (hother 34 (by decide)),if_neg (hother 123 (by decide)),if_neg (hother 91 (by decide)),
      scanConstant_digit hc (i := 0) (by decide) rfl]
    exact hscan

/-! ## Blanks -/

theorem skipJsonSpace_blanks (n : ℕ) (rest : Text) : skipJsonSpace (blanks n ++ rest) = skipJsonSpace rest := by
  induction n with
  | zero => rfl
  | succ n ih =>
    rw [blanks,List.replicate_succ,List.cons_append,skipJsonSpace_space]
    exact ih

namespace Style
variable {y : Style} {G : Text → Prop}

/-- A value begins with an ASCII character that is no blank and no end of a list. -/
theorem write_head {v : Json} (h : Legible G v) :
    ∃ c t, y.write v = c :: t ∧ isJsonSpace c = false ∧ c ≠ 93 ∧ isAscii c = true := by
  cases h with
  | null => exact ⟨110,_,rfl,by decide,by decide,by decide⟩
  | bool b =>
    cases b with
    | true => exact ⟨116,_,rfl,by decide,by decide,by decide⟩
    | false => exact ⟨102,_,rfl,by decide,by decide,by decide⟩
  | @int n hn =>
    obtain ⟨c,t,ht,hc,-⟩ := decimal_cons n.natAbs
    by_cases hneg : n < 0
    · exact ⟨45,_,by rw [write,decimalInt,if_pos hneg]; rfl,by decide,by decide,by decide⟩
    · refine ⟨c,t,by rw [write,decimalInt,if_neg hneg,ht],?_,?_,isAscii_of_isAsciiDigit hc⟩
      · have hrange := inRange_iff.mp hc
        unfold isJsonSpace
        simp only [Bool.or_eq_false_iff,beq_eq_false_iff_ne]
        refine ⟨⟨⟨?_,?_⟩,?_⟩,?_⟩ <;> rintro rfl <;> exact absurd hrange.1 (by decide)
      · rintro rfl
        cases hc
  | str hs => exact ⟨34,_,rfl,by decide,by decide,by decide⟩
  | arr hitems => exact ⟨91,_,rfl,by decide,by decide,by decide⟩
  | obj hkeys hkeysG hfields => exact ⟨123,_,rfl,by decide,by decide,by decide⟩

theorem skip_write {v : Json} (h : Legible G v) (rest : Text) :
    skipJsonSpace (y.write v ++ rest) = y.write v ++ rest := by
  obtain ⟨c,t,ht,hc,-⟩ := write_head (y := y) h
  rw [ht,List.cons_append,skipJsonSpace_cons hc]

/-- The decoder reads the value back wherever it may stand. -/
def Scans (y : Style) (v : Json) : Prop := ∀ fuel rest, (y.write v).length ≤ fuel → Stops rest →
  scanValue fuel (y.write v ++ rest) = .ok (v,rest)

theorem stops_comma (t : Text) : Stops (44 :: t) := Or.inr ⟨44,t,rfl,Or.inl rfl⟩

theorem stops_bracket (t : Text) : Stops (93 :: t) := Or.inr ⟨93,t,rfl,Or.inr (Or.inl rfl)⟩

theorem stops_brace (t : Text) : Stops (125 :: t) := Or.inr ⟨125,t,rfl,Or.inr (Or.inr rfl)⟩

theorem scanItems_write {items : List Json} (hne : items ≠ []) (hlegible : ∀ x ∈ items, Legible G x)
    (hscans : ∀ x ∈ items, Scans y x) (fuel : ℕ) (hfuel : (y.writeItems items).length < fuel) (rest : Text) :
    scanItems fuel (y.writeItems items ++ 93 :: rest) = .ok (items,rest) := by
  induction items generalizing fuel with
  | nil => exact absurd rfl hne
  | cons x items ih =>
    obtain ⟨fuel,rfl⟩ := Nat.exists_eq_add_one_of_ne_zero (Nat.ne_of_gt (Nat.zero_lt_of_lt hfuel))
    have hx := hscans x List.mem_cons_self
    cases items with
    | nil =>
      rw [writeItems] at hfuel ⊢
      rw [scanItems,hx fuel _ (Nat.le_of_lt_succ hfuel) (stops_bracket rest)]
      rfl
    | cons z items =>
      rw [writeItems] at hfuel ⊢
      simp only [List.length_append,List.length_cons] at hfuel
      have hskip : skipJsonSpace (y.writeItems (z :: items) ++ 93 :: rest) = y.writeItems (z :: items) ++ 93 :: rest := by
        have hz := hlegible z (by simp)
        cases items with
        | nil => exact skip_write hz _
        | cons w items =>
          rw [writeItems,List.append_assoc]
          exact skip_write hz _
      have hrest := ih (by simp) (fun w hw => hlegible w (List.mem_cons_of_mem x hw))
        (fun w hw => hscans w (List.mem_cons_of_mem x hw)) fuel (by omega)
      rw [List.append_assoc,List.cons_append,List.append_assoc,scanItems,hx fuel _ (by omega) (stops_comma _)]
      dsimp only [bind,Except.bind]
      rw [skipJsonSpace_cons (by decide)]
      dsimp only
      rw [if_neg (by decide),if_pos rfl,skipJsonSpace_blanks,hskip,hrest]

/-- The end of an object, or the next field. -/
theorem scanFields_step {k : Text} {x : Json} (hk : y.Reads k) (hx : Legible G x) (hscans : Scans y x) (fuel : ℕ)
    (hfuel : (y.write x).length ≤ fuel) (d : Dict) {c : CodePoint} {rest : Text} (hstops : Stops (c :: rest))
    (hc : isJsonSpace c = false) :
    scanFields (fuel + 1) d (y.quoted k ++ 58 :: (blanks y.colon ++ (y.write x ++ c :: rest))) =
      if c = 125 then .ok (d.set k x,rest)
      else if c = 44 then scanFields fuel (d.set k x) (skipJsonSpace rest)
      else .error .decode := by
  rw [quoted,List.cons_append,List.append_assoc,List.singleton_append,scanFields]
  dsimp only
  rw [if_neg (by decide),hk]
  dsimp only [bind,Except.bind]
  rw [skipJsonSpace_cons (by decide)]
  dsimp only
  rw [if_neg (by decide),skipJsonSpace_blanks,skip_write hx,hscans fuel _ hfuel hstops]
  dsimp only
  rw [skipJsonSpace_cons hc]

theorem scanFields_write {fields : List (Text × Json)} (hne : fields ≠ []) (hkeys : (fields.map Prod.fst).Nodup)
    (hreads : ∀ p ∈ fields, y.Reads p.1) (hlegible : ∀ p ∈ fields, Legible G p.2)
    (hscans : ∀ p ∈ fields, Scans y p.2) (d : Dict) (hd : ∀ p ∈ d, p.1 ∉ fields.map Prod.fst) (fuel : ℕ)
    (hfuel : (y.writeFields fields).length < fuel) (rest : Text) :
    scanFields fuel d (y.writeFields fields ++ 125 :: rest) = .ok (d ++ fields,rest) := by
  induction fields generalizing fuel d with
  | nil => exact absurd rfl hne
  | cons p fields ih =>
    obtain ⟨k,x⟩ := p
    obtain ⟨fuel,rfl⟩ := Nat.exists_eq_add_one_of_ne_zero (Nat.ne_of_gt (Nat.zero_lt_of_lt hfuel))
    have hk : y.Reads k := hreads (k,x) List.mem_cons_self
    have hl : Legible G x := hlegible (k,x) List.mem_cons_self
    have hx : Scans y x := hscans (k,x) List.mem_cons_self
    have hset : d.set k x = d ++ [(k,x)] := Dict.set_of_fresh x fun q hq hqk => hd q hq (by simp [hqk])
    obtain ⟨hfresh,hnodup⟩ := List.nodup_cons.mp hkeys
    cases fields with
    | nil =>
      rw [writeFields] at hfuel ⊢
      simp only [List.length_append,List.length_cons] at hfuel
      rw [List.append_assoc,List.cons_append,List.append_assoc,
        scanFields_step hk hl hx fuel (by omega) d (stops_brace rest) (by decide),if_pos rfl,hset]
    | cons q fields =>
      rw [writeFields] at hfuel ⊢
      simp only [List.length_append,List.length_cons] at hfuel
      have hskip : skipJsonSpace (y.writeFields (q :: fields) ++ 125 :: rest) =
          y.writeFields (q :: fields) ++ 125 :: rest := by
        obtain ⟨l,z⟩ := q
        cases fields with
        | nil =>
          rw [writeFields,quoted]
          exact skipJsonSpace_cons (by decide) _
        | cons r fields =>
          rw [writeFields,quoted]
          exact skipJsonSpace_cons (by decide) _
      have hdnext : ∀ r ∈ d ++ [(k,x)], r.1 ∉ (q :: fields).map Prod.fst := by
        intro r hr
        rcases List.mem_append.mp hr with hr | hr
        · exact fun hmem => hd r hr (List.mem_cons_of_mem _ hmem)
        · rw [List.mem_singleton.mp hr]
          exact hfresh
      have hrest := ih (by simp) hnodup (fun r hr => hreads r (List.mem_cons_of_mem _ hr))
        (fun r hr => hlegible r (List.mem_cons_of_mem _ hr)) (fun r hr => hscans r (List.mem_cons_of_mem _ hr))
        (d ++ [(k,x)]) hdnext fuel (by omega)
      simp only [List.append_assoc,List.cons_append]
      rw [scanFields_step hk hl hx fuel (by omega) d (stops_comma _) (by decide),if_neg (by decide),if_pos rfl,
        skipJsonSpace_blanks,hskip,hset,hrest,List.append_assoc]
      rfl

theorem scans_of_succ {v : Json} (hlegible : Legible G v) (h : ∀ fuel rest, (y.write v).length ≤ fuel + 1 → Stops rest →
    scanValue (fuel + 1) (y.write v ++ rest) = .ok (v,rest)) : Scans y v := by
  intro fuel rest hfuel hstops
  obtain ⟨c,t,hhead,-,-⟩ := write_head (y := y) hlegible
  cases fuel with
  | zero =>
    rw [hhead] at hfuel
    cases hfuel
  | succ fuel => exact h fuel rest hfuel hstops

theorem scanValue_items {items : List Json} (hlegible : ∀ x ∈ items, Legible G x) (hscans : ∀ x ∈ items, Scans y x)
    (fuel : ℕ) (hfuel : (y.write (.arr items)).length ≤ fuel + 1) (rest : Text) :
    scanValue (fuel + 1) (y.write (.arr items) ++ rest) = .ok (.arr items,rest) := by
  rw [write] at hfuel ⊢
  simp only [List.length_cons,List.length_append,List.length_nil] at hfuel
  rw [List.cons_append,List.append_assoc,List.singleton_append,scanValue,if_neg (by decide),if_neg (by decide),
    if_pos rfl]
  cases items with
  | nil => rfl
  | cons x items =>
    obtain ⟨c,t,ht,hc,hne⟩ : ∃ c t, y.writeItems (x :: items) ++ 93 :: rest = c :: t ∧ isJsonSpace c = false ∧ c ≠ 93 := by
      obtain ⟨c,t,ht,hc,hne,-⟩ := write_head (y := y) (hlegible x List.mem_cons_self)
      cases items with
      | nil => exact ⟨c,t ++ 93 :: rest,by rw [writeItems,ht]; rfl,hc,hne⟩
      | cons z items => exact ⟨c,_,by rw [writeItems,ht]; rfl,hc,hne⟩
    have hitems := scanItems_write (by simp) hlegible hscans fuel (by omega) rest
    rw [ht] at hitems ⊢
    rw [skipJsonSpace_cons hc]
    dsimp only
    rw [if_neg (by simpa using hne),hitems]
    rfl

theorem scanValue_fields {fields : List (Text × Json)} (hkeys : (fields.map Prod.fst).Nodup)
    (hreads : ∀ p ∈ fields, y.Reads p.1) (hlegible : ∀ p ∈ fields, Legible G p.2) (hscans : ∀ p ∈ fields, Scans y p.2)
    (fuel : ℕ) (hfuel : (y.write (.obj fields)).length ≤ fuel + 1) (rest : Text) :
    scanValue (fuel + 1) (y.write (.obj fields) ++ rest) = .ok (.obj fields,rest) := by
  rw [write] at hfuel ⊢
  simp only [List.length_cons,List.length_append,List.length_nil] at hfuel
  rw [List.cons_append,List.append_assoc,List.singleton_append,scanValue,if_neg (by decide),if_pos rfl]
  cases fields with
  | nil => rfl
  | cons p fields =>
    obtain ⟨t,ht⟩ : ∃ t, y.writeFields (p :: fields) ++ 125 :: rest = 34 :: t := by
      obtain ⟨k,x⟩ := p
      cases fields with
      | nil => exact ⟨_,by rw [writeFields,quoted]; rfl⟩
      | cons q fields => exact ⟨_,by rw [writeFields,quoted]; rfl⟩
    have hfields := scanFields_write (by simp) hkeys hreads hlegible hscans [] (by simp) fuel (by omega) rest
    rw [ht] at hfields ⊢
    rw [skipJsonSpace_cons (by decide)]
    have hhead : (34 :: t).head? ≠ some 125 := by rintro ⟨⟩
    dsimp only
    rw [if_neg hhead,hfields]
    rfl

/-- Every value is read back wherever it stands. -/
theorem scans_write (hreads : ∀ s, G s → y.Reads s) {v : Json} (h : Legible G v) : Scans y v := by
  induction h with
  | null => exact scans_of_succ (.null : Legible G _) fun _ _ _ _ => rfl
  | bool b => exact scans_of_succ (.bool b : Legible G _) fun _ _ _ _ => by cases b <;> rfl
  | int hn => exact scans_of_succ (.int hn : Legible G _) fun fuel _ _ hstops => scanValue_int hn fuel hstops
  | str hs =>
    refine scans_of_succ (.str hs : Legible G _) fun fuel rest _ _ => ?_
    rw [write,quoted,List.cons_append,List.append_assoc,List.singleton_append,scanValue,if_pos rfl,hreads _ hs]
    rfl
  | arr hitems ih => exact scans_of_succ (.arr hitems) fun fuel rest hfuel _ => scanValue_items hitems ih fuel hfuel rest
  | obj hkeys hkeysG hfields ih =>
    exact scans_of_succ (.obj hkeys hkeysG hfields) fun fuel rest hfuel _ =>
      scanValue_fields hkeys (fun p hp => hreads p.1 (hkeysG p hp)) hfields ih fuel hfuel rest

/-- The decoder reads back what a writer of the style writes. -/
theorem loads_write (hreads : ∀ s, G s → y.Reads s) {v : Json} (h : Legible G v) : loads (y.write v) = .ok v := by
  obtain ⟨c,t,ht,-,-,hascii⟩ := write_head (y := y) h
  have hmark : (y.write v).head? ≠ some 0xFEFF := by
    rw [ht]
    rintro ⟨⟩
    cases hascii
  have hskip := skip_write (y := y) h []
  have hscan := scans_write hreads h ((y.write v).length + 1) [] (Nat.le_succ _) (Or.inl rfl)
  rw [List.append_nil] at hskip hscan
  rw [loads,if_neg hmark,hskip,hscan]
  rfl

end Style

/-! ## The styles of the two sides -/

/-- The style of `json.dumps`. -/
def dumpsStyle : Style := ⟨escapeChar,1,1⟩

mutual

theorem write_dumps : ∀ v : Json, dumpsStyle.write v = dumps v
  | .null | .bool _ | .int _ | .float _ => by rfl
  | .str s => rfl
  | .arr items => by
    rw [Style.write,writeItems_dumps items,dumps]
    rfl
  | .obj fields => by
    rw [Style.write,writeFields_dumps fields,dumps]
    rfl

theorem writeItems_dumps : ∀ items : List Json, dumpsStyle.writeItems items = dumpsItems items
  | [] => rfl
  | [x] => write_dumps x
  | x :: z :: rest => by
    rw [Style.writeItems,write_dumps x,writeItems_dumps (z :: rest),dumpsItems,List.append_assoc]
    rfl

theorem writeFields_dumps : ∀ fields : List (Text × Json), dumpsStyle.writeFields fields = dumpsFields fields
  | [] => rfl
  | [(k,x)] => by
    rw [Style.writeFields,write_dumps x,dumpsFields,List.append_assoc]
    rfl
  | (k,x) :: z :: rest => by
    rw [Style.writeFields,write_dumps x,writeFields_dumps (z :: rest),dumpsFields]
    simp only [List.append_assoc]
    rfl

end

end ShardVPN
