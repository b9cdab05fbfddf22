import ShardVPN.Text.Utf8

/-! # Reading forms

The reader of `application/x-www-form-urlencoded`: fields are separated by ampersands,
each is a name and a value around the first sign of equality, and in both a plus is a
blank and a percent sign starts a byte in hexadecimal.
-/
namespace ShardVPN.Form

def hexValue (b : UInt8) : Option ℕ :=
  let n := b.toNat
  if 48 ≤ n ∧ n ≤ 57 then some (n - 48)
  else if 65 ≤ n ∧ n ≤ 70 then some (n - 55)
  else if 97 ≤ n ∧ n ≤ 102 then some (n - 87)
  else none

/-- The byte that two hexadecimal digits stand for. -/
def escaped (a b : UInt8) : Option UInt8 := do
  let high ← hexValue a
  let low ← hexValue b
  some (byte (16 * high + low))

def unquote : Bytes → Bytes
  | [] => []
  | c :: a :: b :: rest =>
    if c = 37 then match escaped a b with
      | some d => d :: unquote rest
      | none => c :: unquote (a :: b :: rest)
    else (if c = 43 then 32 else c) :: unquote (a :: b :: rest)
  | c :: rest => (if c = 43 then 32 else c) :: unquote rest

/-- One field; `none` when it is no UTF-8. -/
def readField (field : Bytes) : Option (Text × Text) := do
  let name ← decodeUtf8 (unquote (field.takeWhile (· ≠ 61)))
  let value ← decodeUtf8 (unquote ((field.dropWhile (· ≠ 61)).drop 1))
  some (name,value)

def readForm (form : Bytes) : Option (List (Text × Text)) :=
  ((form.splitOn 38).filter (· ≠ [])).mapM readField

/-! ## Writers that the reader understands -/

theorem unquote_cons {c : UInt8} (h : c ≠ 37) (rest : Bytes) :
    unquote (c :: rest) = (if c = 43 then 32 else c) :: unquote rest := by
  match rest with
  | [] => rfl
  | [_] => rfl
  | _ :: _ :: _ => rw [unquote,if_neg h]

theorem unquote_escaped {a b d : UInt8} (h : escaped a b = some d) (rest : Bytes) :
    unquote (37 :: a :: b :: rest) = d :: unquote rest := by
  rw [unquote,if_pos rfl,h]

/-- The bytes that are written for a byte, or for what it stands for, are read as that byte. -/
def Quotes (quote : UInt8 → Bytes) : Prop :=
  ∀ b, (∀ rest, unquote (quote b ++ rest) = b :: unquote rest) ∧ 38 ∉ quote b ∧ 61 ∉ quote b

section
variable {quote : UInt8 → Bytes} {s t : Text} {bs : Bytes}

theorem unquote_flatMap (h : Quotes quote) (bs : Bytes) : unquote (bs.flatMap quote) = bs := by
  have hrest : ∀ rest, unquote (bs.flatMap quote ++ rest) = bs ++ unquote rest := by
    intro rest
    induction bs with
    | nil => rfl
    | cons b bs ih => rw [List.flatMap_cons,List.append_assoc,(h b).1,ih,List.cons_append]
  simpa [unquote] using hrest []

theorem not_mem_flatMap (h : Quotes quote) (bs : Bytes) : 38 ∉ bs.flatMap quote ∧ 61 ∉ bs.flatMap quote := by
  constructor
  · intro hmem
    obtain ⟨b,-,hb⟩ := List.mem_flatMap.mp hmem
    exact (h b).2.1 hb
  · intro hmem
    obtain ⟨b,-,hb⟩ := List.mem_flatMap.mp hmem
    exact (h b).2.2 hb

/-- A written text is read back. -/
theorem decodeUtf8_unquote (h : Quotes quote) (hs : encodeUtf8 s = some bs) :
    decodeUtf8 (unquote (bs.flatMap quote)) = some s := by
  rw [unquote_flatMap h]
  exact decodeUtf8_encodeUtf8 hs

/-- A written field is read back. -/
theorem readField_quoted (h : Quotes quote) {cs : Bytes} (hs : encodeUtf8 s = some bs) (ht : encodeUtf8 t = some cs) :
    readField (bs.flatMap quote ++ 61 :: cs.flatMap quote) = some (s,t) := by
  have hname : ∀ b ∈ bs.flatMap quote, decide (b ≠ 61) = true := fun b hb =>
    decide_eq_true fun heq => (not_mem_flatMap h bs).2 (heq ▸ hb)
  unfold readField
  rw [List.takeWhile_append_of_pos hname,List.dropWhile_append_of_pos hname]
  simp [decodeUtf8_unquote h hs,decodeUtf8_unquote h ht]

theorem mapM_readField (h : Quotes quote) {fields : List ((Text × Text) × (Bytes × Bytes))}
    (hfields : ∀ f ∈ fields, encodeUtf8 f.1.1 = some f.2.1 ∧ encodeUtf8 f.1.2 = some f.2.2) :
    (fields.map fun f => f.2.1.flatMap quote ++ 61 :: f.2.2.flatMap quote).mapM readField = some (fields.map Prod.fst) := by
  induction fields with
  | nil => rfl
  | cons f fields ih =>
    obtain ⟨hname,hvalue⟩ := hfields f List.mem_cons_self
    have hrest := ih fun g hg => hfields g (List.mem_cons_of_mem _ hg)
    simp [readField_quoted h hname hvalue,hrest]

/-- A form of written fields is read back. -/
theorem readForm_quoted (h : Quotes quote) (fields : List ((Text × Text) × (Bytes × Bytes))) (hne : fields ≠ [])
    (hfields : ∀ f ∈ fields, encodeUtf8 f.1.1 = some f.2.1 ∧ encodeUtf8 f.1.2 = some f.2.2) :
    readForm ([38].intercalate (fields.map fun f => f.2.1.flatMap quote ++ 61 :: f.2.2.flatMap quote)) =
      some (fields.map Prod.fst) := by
  have hapart : ∀ field ∈ fields.map (fun f => f.2.1.flatMap quote ++ 61 :: f.2.2.flatMap quote),
      38 ∉ field ∧ field ≠ [] := by
    intro field hfield
    obtain ⟨f,-,rfl⟩ := List.mem_map.mp hfield
    simp [(not_mem_flatMap h f.2.1).1,(not_mem_flatMap h f.2.2).1]
  unfold readForm
  rw [List.splitOn_intercalate 38 (fun field hfield => (hapart field hfield).1) (by simpa using hne),
    List.filter_eq_self.mpr fun field hfield => decide_eq_true (hapart field hfield).2]
  exact mapM_readField h hfields

end

end ShardVPN.Form
