import ShardVPN.Program.Auth
import ShardVPN.Json.Escapes
import Mathlib.Data.List.Induction

/-! # What `verify` accepts

Header lookup, the numeral of the timestamp and the signed message are settled
first; acceptance is then read off. The message determines timestamp and body since
a timestamp holds no point.
-/
namespace ShardVPN.Auth

/-! ## Headers -/

/-- The value of the last entry whose lower-cased name is `name`. -/
def lastValue (lower : Text → Text) (headers : Dict) (name : Text) : Option Json :=
  (headers.reverse.find? (fun p => lower p.1 = name)).map (·.2)

/-- A later entry overrides an earlier one of the same lower-cased name. -/
theorem loweredHeaders_get (lower : Text → Text) (headers : Dict) (name : Text) :
    (loweredHeaders lower headers).get name = lastValue lower headers name := by
  induction headers using List.reverseRecOn with
  | nil => rfl
  | append_singleton headers p ih =>
    rw [loweredHeaders,List.foldl_append,List.foldl_cons,List.foldl_nil,Dict.get_set]
    rw [loweredHeaders] at ih
    rw [ih,lastValue,lastValue,List.reverse_append,List.reverse_singleton,List.singleton_append,List.find?_cons]
    by_cases h : name = lower p.1
    · simp [h]
    · have h' : ¬lower p.1 = name := fun he => h he.symm
      simp [h,h']

/-- The text of a header, empty when there is none. -/
def header (lower : Text → Text) (headers : List (Text × Text)) (name : Text) : Text :=
  ((headers.reverse.find? (fun p => lower p.1 = name)).map (·.2)).getD []

theorem loweredHeaders_strings (lower : Text → Text) (headers : List (Text × Text)) (name : Text) :
    ((loweredHeaders lower (stringFields headers)).get name).getD (.str []) =
      .str (header lower headers name) := by
  rw [loweredHeaders_get,lastValue,stringFields,← List.map_reverse,List.find?_map,header]
  simp only [Function.comp_def]
  cases headers.reverse.find? (fun p => decide (lower p.1 = name)) <;> rfl

/-! ## Timestamps -/

/-- The number a sequence of ASCII digits stands for. -/
def value (ts : Text) : ℕ := ofDigitValues (asciiDigitValues ts)

/-- A numeral stands for the number it was made of. -/
theorem value_decimal (n : ℕ) : value (decimal n) = n := by
  have hdigits : Nat.ofDigitChars 10 (Nat.toDigits 10 n) 0 = n := Nat.ofDigitChars_ten_toDigits
  unfold value ofDigitValues asciiDigitValues decimal
  rw [List.map_map,List.foldl_map]
  exact hdigits

theorem decimalValue_ascii {c : CodePoint} (hc : isAsciiDigit c = true) : decimalValue c = some (c.val - 48) := by
  have h := inRange_iff.mp hc
  have hd : c = digit (c.val - 48) := Fin.ext (by dsimp only [digit]; omega)
  rw [hd,decimalValue_digit,← hd]
  simp only [Option.some.injEq]
  omega

theorem numeralDigits_ascii {ts : Text} (h : ∀ c ∈ ts, isAsciiDigit c = true) (afterDigit : Bool)
    (hne : ts ≠ [] ∨ afterDigit = true) : numeralDigits afterDigit ts = some (asciiDigitValues ts) := by
  induction ts generalizing afterDigit with
  | nil =>
    obtain rfl : afterDigit = true := hne.resolve_left (fun hn => hn rfl)
    rfl
  | cons c ts ih =>
    have hc := h c List.mem_cons_self
    have h95 : c ≠ 95 := by
      rintro rfl
      exact absurd hc (by decide)
    have hrest := ih (fun d hd => h d (List.mem_cons_of_mem c hd)) true (Or.inr rfl)
    rw [numeralDigits,if_neg h95,decimalValue_ascii hc]
    dsimp only
    rw [hrest]
    rfl

theorem isIntSpace_digit {c : CodePoint} (hc : isAsciiDigit c = true) : isIntSpace c = false := by
  have h : ∀ n < 10, isIntSpace (digit n) = false := by decide
  have hv := inRange_iff.mp hc
  have hd : c = digit (c.val - 48) := Fin.ext (by dsimp only [digit]; omega)
  rw [hd]
  exact h _ (by omega)

theorem stripSpaces_digits {ts : Text} (h : ∀ c ∈ ts, isAsciiDigit c = true) : stripSpaces ts = ts := by
  have hdrop : ∀ l : Text, (∀ c ∈ l, isAsciiDigit c = true) → l.dropWhile isIntSpace = l := by
    intro l hl
    cases l with
    | nil => rfl
    | cons c l => rw [List.dropWhile_cons_of_neg (by simp [isIntSpace_digit (hl c List.mem_cons_self)])]
  rw [stripSpaces,hdrop ts h,hdrop ts.reverse (fun c hc => h c (List.mem_reverse.mp hc)),List.reverse_reverse]

theorem splitSign_digits {ts : Text} (h : ∀ c ∈ ts, isAsciiDigit c = true) : splitSign ts = (false,ts) := by
  cases ts with
  | nil => rfl
  | cons c ts =>
    have hc := h c List.mem_cons_self
    have h45 : c ≠ 45 := by
      rintro rfl
      exact absurd hc (by decide)
    have h43 : c ≠ 43 := by
      rintro rfl
      exact absurd hc (by decide)
    rw [splitSign]
    all_goals simp [h45,h43]

/-- Leading zeros do not matter. -/
theorem int_digits {ts : Text} (h : ∀ c ∈ ts, isAsciiDigit c = true) (hne : ts ≠ [])
    (hlen : ts.length ≤ maxStrDigits) : int ts = some (Int.ofNat (value ts)) := by
  simp only [int,stripSpaces_digits h,splitSign_digits h,numeralDigits_ascii h false (Or.inl hne)]
  rw [if_neg (by simpa [asciiDigitValues] using hlen)]
  rfl

theorem int_digits_long {ts : Text} (h : ∀ c ∈ ts, isAsciiDigit c = true) (hne : ts ≠ [])
    (hlen : maxStrDigits < ts.length) : int ts = none := by
  simp only [int,stripSpaces_digits h,splitSign_digits h,numeralDigits_ascii h false (Or.inl hne)]
  rw [if_pos (by simpa [asciiDigitValues] using hlen)]

theorem isTimestamp_iff {ts : Text} :
    isTimestamp ts = true ↔ 1 ≤ ts.length ∧ ts.length ≤ 11 ∧ ∀ c ∈ ts, isAsciiDigit c = true := by
  simp [isTimestamp,and_assoc]

theorem isSignature_iff {sig : Text} :
    isSignature sig = true ↔ sig.length = 64 ∧ ∀ c ∈ sig, isLowerHex c = true := by
  simp [isSignature]

theorem int_timestamp {ts : Text} (h : isTimestamp ts = true) : int ts = some (Int.ofNat (value ts)) := by
  obtain ⟨hlo,hhi,hdig⟩ := isTimestamp_iff.mp h
  refine int_digits hdig ?_ (by rw [maxStrDigits]; omega)
  rintro rfl
  exact absurd hlo (by decide)

/-! ## The signed message -/

def asciiBytes (t : Text) : Bytes := t.map (fun c => byte c.val)

/-- Timestamp, point and body. -/
def message (ts : Text) (body : Bytes) : Bytes := asciiBytes ts ++ 46 :: body

theorem signedMessage_digits {ts : Text} (h : ∀ c ∈ ts, isAsciiDigit c = true) (body : Bytes) :
    signedMessage ts body = some (message ts body) := by
  have hascii : ∀ c ∈ ts ++ [46], isAscii c = true := by
    intro c hc
    rcases List.mem_append.mp hc with hc | hc
    · exact isAscii_of_isAsciiDigit (h c hc)
    · rw [List.mem_singleton.mp hc]
      decide
  rw [signedMessage,encodeUtf8_of_ascii hascii,message,asciiBytes,List.map_append]
  exact congrArg some (List.append_assoc _ _ body)

theorem byte_injective {c d : CodePoint} (hc : isAsciiDigit c = true) (hd : isAsciiDigit d = true)
    (h : byte c.val = byte d.val) : c = d := by
  have hc' := inRange_iff.mp hc
  have hd' := inRange_iff.mp hd
  have hv := congrArg UInt8.toNat h
  simp only [byte,UInt8.toNat_ofNat'] at hv
  exact Fin.ext (by omega)

theorem byte_ne_point {c : CodePoint} (hc : isAsciiDigit c = true) : byte c.val ≠ 46 := by
  intro h
  have hc' := inRange_iff.mp hc
  have hv := congrArg UInt8.toNat h
  simp only [byte,UInt8.toNat_ofNat'] at hv
  have h46 : (46 : UInt8).toNat = 46 := rfl
  omega

/-- No point in a timestamp: the message can be split in one way only. -/
theorem message_injective {ts us : Text} {body body' : Bytes} (ht : ∀ c ∈ ts, isAsciiDigit c = true)
    (hu : ∀ c ∈ us, isAsciiDigit c = true) (h : message ts body = message us body') :
    ts = us ∧ body = body' := by
  induction ts generalizing us with
  | nil =>
    cases us with
    | nil => exact ⟨rfl,(List.cons.inj h).2⟩
    | cons d us => exact absurd (List.cons.inj h).1.symm (byte_ne_point (hu d List.mem_cons_self))
  | cons c ts ih =>
    cases us with
    | nil => exact absurd (List.cons.inj h).1 (byte_ne_point (ht c List.mem_cons_self))
    | cons d us =>
      obtain ⟨hcd,hrest⟩ := List.cons.inj h
      obtain ⟨hts,hbody⟩ := ih (fun x hx => ht x (List.mem_cons_of_mem c hx))
        (fun x hx => hu x (List.mem_cons_of_mem d hx)) hrest
      rw [byte_injective (ht c List.mem_cons_self) (hu d List.mem_cons_self) hcd,hts]
      exact ⟨rfl,hbody⟩

/-! ## Acceptance -/

/-- The two header values, when the headers are a mapping and both are texts. -/
def presented (lower : Text → Text) : Json → Option (Text × Text)
  | .obj headers =>
    match ((loweredHeaders lower headers).get timestampHeader).getD (.str []),
        ((loweredHeaders lower headers).get signatureHeader).getD (.str []) with
    | .str ts,.str sig => some (ts,sig)
    | _,_ => none
  | _ => none

/-- The checks before the signature is computed: both shapes, and the clock skew. -/
def WellFormed (ts sig : Text) (now maxSkew : ℤ) : Prop :=
  isTimestamp ts = true ∧ isSignature sig = true ∧ (now - value ts).natAbs ≤ maxSkew

instance (ts sig : Text) (now maxSkew : ℤ) : Decidable (WellFormed ts sig now maxSkew) := by
  unfold WellFormed
  infer_instance

theorem verify_eq (rt : Runtime) (headers : Json) (body : Bytes) (secret : Text) (now maxSkew : ℤ) :
    verify rt headers body secret now maxSkew = match presented rt.lower headers with
      | some (ts,sig) => if WellFormed ts sig now maxSkew then checkSignature rt ts sig body secret
        else .error .authError
      | none => .error .authError := by
  cases headers with
  | obj headers =>
    simp only [verify,presented]
    cases ((loweredHeaders rt.lower headers).get timestampHeader).getD (.str []) with
    | str ts =>
      cases ((loweredHeaders rt.lower headers).get signatureHeader).getD (.str []) with
      | str sig =>
        dsimp only
        by_cases hshape : isTimestamp ts = true ∧ isSignature sig = true
        · rw [hshape.1,hshape.2,int_timestamp hshape.1]
          simp only [Bool.and_self,↓reduceIte,WellFormed,hshape.1,hshape.2,true_and,Int.ofNat_eq_natCast]
          by_cases hskew : maxSkew < (now - value ts).natAbs
          · rw [if_pos hskew,if_neg (by omega)]
          · rw [if_neg hskew,if_pos (by omega)]
        · rw [if_neg (by simpa using hshape),if_neg (fun h => hshape ⟨h.1,h.2.1⟩)]
      | _ => rfl
    | _ => rfl
  | _ => rfl

theorem presented_strings (lower : Text → Text) (headers : List (Text × Text)) :
    presented lower (.obj (stringFields headers)) =
      some (header lower headers timestampHeader,header lower headers signatureHeader) := by
  simp only [presented,loweredHeaders_strings]

theorem checkSignature_ok_iff (rt : Runtime) {ts sig secret : Text} {body : Bytes}
    (hts : isTimestamp ts = true) : checkSignature rt ts sig body secret = .ok () ↔
      ∃ key, encodeUtf8 secret = some key ∧ sig = hex (rt.hmacSha256 key (message ts body)).1 := by
  rw [checkSignature,signedMessage_digits (isTimestamp_iff.mp hts).2.2]
  cases hs : encodeUtf8 secret with
  | none => simp
  | some key => simp [eq_comm]

/-- One call of `verify`: a mapping of strings, a body, a secret and a server time. -/
structure Submission where
  headers : List (Text × Text)
  body : Bytes
  secret : Text
  now : ℤ
  maxSkew : ℤ

namespace Submission
variable (rt : Runtime) (x : Submission)

def timestamp : Text := header rt.lower x.headers timestampHeader
def signature : Text := header rt.lower x.headers signatureHeader

def Accepted : Prop := verify rt (.obj (stringFields x.headers)) x.body x.secret x.now x.maxSkew = .ok ()

/-- The signed message and the key, when the secret has an encoding. -/
def signed : Bytes := message (x.timestamp rt) x.body
def key : Option Bytes := encodeUtf8 x.secret

variable {rt x}

theorem accepted_iff : x.Accepted rt ↔ WellFormed (x.timestamp rt) (x.signature rt) x.now x.maxSkew ∧
    ∃ key, x.key = some key ∧ x.signature rt = hex (rt.hmacSha256 key (x.signed rt)).1 := by
  rw [Accepted,verify_eq,presented_strings]
  dsimp only
  split
  · rename_i h
    rw [checkSignature_ok_iff rt h.1]
    exact ⟨fun hk => ⟨h,hk⟩,fun hk => hk.2⟩
  · rename_i h
    simp only [reduceCtorEq,false_iff]
    exact fun hk => h hk.1

theorem Accepted.digits (h : x.Accepted rt) : ∀ c ∈ x.timestamp rt, isAsciiDigit c = true :=
  (isTimestamp_iff.mp (accepted_iff.mp h).1.1).2.2

theorem Accepted.signed_injective {y : Submission} (hx : x.Accepted rt) (hy : y.Accepted rt)
    (h : x.signed rt = y.signed rt) : x.timestamp rt = y.timestamp rt ∧ x.body = y.body :=
  message_injective hx.digits hy.digits h

/-- Two requests with one signature under one secret are the same request, or HMAC
collides on their messages. -/
theorem Accepted.same_signature {y : Submission} (hx : x.Accepted rt) (hy : y.Accepted rt)
    (hsecret : x.secret = y.secret) (hsig : x.signature rt = y.signature rt) :
    (x.timestamp rt = y.timestamp rt ∧ x.body = y.body) ∨
      ∃ key, x.key = some key ∧ x.signed rt ≠ y.signed rt ∧
        rt.hmacSha256 key (x.signed rt) = rt.hmacSha256 key (y.signed rt) := by
  obtain ⟨key,hkey,hx'⟩ := (accepted_iff.mp hx).2
  obtain ⟨key',hkey',hy'⟩ := (accepted_iff.mp hy).2
  have hkeys : key' = key := by
    rw [Submission.key,← hsecret] at hkey'
    exact Option.some.inj (hkey'.symm.trans hkey)
  subst hkeys
  by_cases hm : x.signed rt = y.signed rt
  · exact Or.inl (hx.signed_injective hy hm)
  · exact Or.inr ⟨key',hkey,hm,Subtype.ext (hex_injective (hx'.symm.trans (hsig.trans hy')))⟩

end Submission

/-- `verify` accepts exactly the fresh requests that are signed correctly, and the
signature binds timestamp and body. -/
theorem verify_exact (rt : Runtime) :
    (∀ x : Submission, x.Accepted rt ↔
      (1 ≤ (x.timestamp rt).length ∧ (x.timestamp rt).length ≤ 11 ∧
        ∀ c ∈ x.timestamp rt, isAsciiDigit c = true) ∧
      ((x.signature rt).length = 64 ∧ ∀ c ∈ x.signature rt, isLowerHex c = true) ∧
      (x.now - value (x.timestamp rt)).natAbs ≤ x.maxSkew ∧
      ∃ key, encodeUtf8 x.secret = some key ∧
        x.signature rt = hex (rt.hmacSha256 key (message (x.timestamp rt) x.body)).1) ∧
    (∀ x y : Submission, x.Accepted rt → y.Accepted rt →
      message (x.timestamp rt) x.body = message (y.timestamp rt) y.body →
      x.timestamp rt = y.timestamp rt ∧ x.body = y.body) ∧
    (∀ x y : Submission, x.Accepted rt → y.Accepted rt → x.secret = y.secret →
      x.signature rt = y.signature rt →
      (x.timestamp rt = y.timestamp rt ∧ x.body = y.body) ∨
      ∃ key m n, encodeUtf8 x.secret = some key ∧ m ≠ n ∧ rt.hmacSha256 key m = rt.hmacSha256 key n) := by
  refine ⟨?_,?_,?_⟩
  · intro x
    rw [Submission.accepted_iff,WellFormed,isTimestamp_iff,isSignature_iff]
    constructor
    · rintro ⟨⟨hts,hsig,hskew⟩,hmac⟩
      exact ⟨hts,hsig,hskew,hmac⟩
    · rintro ⟨hts,hsig,hskew,hmac⟩
      exact ⟨⟨hts,hsig,hskew⟩,hmac⟩
  · intro x y hx hy h
    exact hx.signed_injective hy h
  · intro x y hx hy hsecret hsig
    rcases hx.same_signature hy hsecret hsig with h | ⟨key,hkey,hne,hcollision⟩
    · exact Or.inl h
    · exact Or.inr ⟨key,_,_,hkey,hne,hcollision⟩

/-- Every message has the same digest, and only ASCII letters are lowered. -/
def flat : Runtime where
  controlRegion := []
  awsRegion := []
  clientError _ := none
  tsTag := []
  topicArn := []
  lower t := t.map fun c => if isAscii c then lowerAscii c else c
  str _ := []
  hmacSha256 _ _ := ⟨List.replicate 32 0,List.length_replicate⟩
  lower_ascii _ h := List.map_congr_left fun c hc => if_pos (h c hc)

def zeros : Text := List.replicate 64 48

/-- A timestamp at the edge of the window, written with a leading zero. -/
def quiet (body : Bytes) : Submission :=
  ⟨[(timestampHeader,text "0120"),(signatureHeader,zeros)],body,text "secret",0,120⟩

/-- The same headers in other letters, after an entry that they override. -/
def shouted (body : Bytes) : Submission :=
  ⟨[(timestampHeader,text "7"),(text "X-SHARDVPN-TIMESTAMP",text "0120"),(text "X-ShardVPN-Signature",zeros)],body,
    text "secret",0,120⟩

/-- Two spellings of one request are accepted as one, and two requests under one signature are a collision. -/
theorem verify_exact_flat : (quiet [46]).Accepted flat ∧ (shouted [46]).Accepted flat ∧ (quiet []).Accepted flat ∧
    ((quiet [46]).timestamp flat = (shouted [46]).timestamp flat ∧ (quiet [46]).body = (shouted [46]).body) ∧
    ((quiet [46]).timestamp flat = (quiet []).timestamp flat ∧ (quiet [46]).body = (quiet []).body ∨
      ∃ key m n, encodeUtf8 (quiet [46]).secret = some key ∧ m ≠ n ∧
        flat.hmacSha256 key m = flat.hmacSha256 key n) := by
  obtain ⟨haccepts,hbinds,hcollides⟩ := verify_exact flat
  have haccepted : ∀ x ∈ [quiet [46],shouted [46],quiet []], x.Accepted flat := by
    intro x hx
    have hheaders : x.timestamp flat = text "0120" ∧ x.signature flat = zeros := by
      revert x
      decide +kernel
    have hrest : (x.now - value (text "0120")).natAbs ≤ x.maxSkew ∧ x.secret = text "secret" := by
      revert x
      decide +kernel
    apply (haccepts x).mpr
    rw [hheaders.1,hheaders.2,hrest.2]
    exact ⟨isTimestamp_iff.mp (by decide),isSignature_iff.mp (by decide),hrest.1,_,rfl,
      (by decide : zeros = hex (List.replicate 32 0))⟩
  simp only [List.forall_mem_cons] at haccepted
  obtain ⟨hquiet,hshouted,hempty,-⟩ := haccepted
  refine ⟨hquiet,hshouted,hempty,?_,?_⟩
  · exact hbinds _ _ hquiet hshouted (by decide +kernel)
  · exact hcollides _ _ hquiet hempty rfl (by decide +kernel)

end ShardVPN.Auth
