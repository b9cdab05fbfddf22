import ShardVPN.Auth.Verify
import ShardVPN.Phone.Digest
import ShardVPN.System.Plain
import ShardVPN.Text.Base64

/-! # The server accepts the phone

A request that the script signs passes the checks of the server with the same secret,
as long as the clocks agree to the allowed skew. The body may be delivered as text or in
base64, and header names may change their case.
-/
namespace ShardVPN.Script
open Auth

/-- The body arrives as it is, or as the base64 of its encoding. -/
inductive BodyArrives (body : Text) (event : Dict) : Prop
  | plain : event.get (text "body") = some (.str body) → flag event (text "isBase64Encoded") = false →
      BodyArrives body event
  | encoded {bytes : Bytes} : encodeUtf8 body = some bytes →
      event.get (text "body") = some (.str (encodeBase64 bytes)) → flag event (text "isBase64Encoded") = true →
      BodyArrives body event

/-- The event of a request: its body and its headers, perhaps among others and under names in another case. -/
structure Delivered (lower : Text → Text) (r : Request) (event : Dict) : Prop where
  body : BodyArrives r.body event
  headers : ∃ headers : List (Text × Text), event.get (text "headers") = some (.obj (stringFields headers)) ∧
    (headers.map fun h => lower h.1).Nodup ∧ ∀ h ∈ r.headers, ∃ name, (name,h.2) ∈ headers ∧ lower name = lower h.1

/-! ## The body -/

theorem scalar_of_ascii {t : Text} (h : ∀ c ∈ t, isAscii c = true) : Scalar t :=
  fun c hc => isSurrogate_of_isAscii (h c hc)

theorem hexDigit_scalar (n : ℕ) : isSurrogate (hexDigit n) = false := by
  unfold hexDigit isSurrogate inRange
  split <;> simp <;> omega

theorem quoteChar_scalar {c : CodePoint} (h : isSurrogate c = false) : Scalar (quoteChar c) := by
  unfold quoteChar
  iterate 7 (split; exact (by decide))
  split
  · apply Scalar.append (by decide)
    intro d hd
    simp only [List.mem_cons,List.not_mem_nil,or_false] at hd
    rcases hd with rfl | rfl | rfl | rfl <;> exact hexDigit_scalar _
  · intro d hd
    rw [List.mem_singleton.mp hd]
    exact h

theorem quote_scalar {t : Text} (h : Scalar t) : Scalar (quote t) := by
  have hmark : Scalar [34] := by decide
  apply Scalar.append hmark
  apply Scalar.append _ hmark
  intro c hc
  obtain ⟨d,hd,hc⟩ := List.mem_flatMap.mp hc
  exact quoteChar_scalar (h d hd) c hc

theorem flatten_intersperse_scalar {separator : Text} {ts : List Text} (hs : Scalar separator)
    (h : ∀ t ∈ ts, Scalar t) : Scalar (ts.intersperse separator).flatten := by
  induction ts with
  | nil => simp [Scalar]
  | cons t rest ih =>
    have hrest := ih fun u hu => h u (List.mem_cons_of_mem t hu)
    have ht := h t List.mem_cons_self
    cases rest with
    | nil => simpa using ht
    | cons u rest =>
      simp only [List.intersperse_cons_cons,List.flatten_cons]
      apply ht.append
      apply hs.append
      exact hrest

theorem stringify_scalar {ms : List (Text × Text)} (h : ∀ p ∈ ms, Scalar p.1 ∧ Scalar p.2) : Scalar (stringify ms) := by
  have hopen : Scalar [123] := by decide
  have hcolon : Scalar [58] := by decide
  apply hopen.append
  apply Scalar.append _ (by decide)
  apply flatten_intersperse_scalar (by decide)
  intro t ht
  obtain ⟨p,hp,rfl⟩ := List.mem_map.mp ht
  exact (quote_scalar (h p hp).1).append (hcolon.append (quote_scalar (h p hp).2))

theorem members_scalar {action : Text} {region : Option Text} (haction : Scalar action)
    (hregion : ∀ r ∈ region, Scalar r) : ∀ p ∈ members action region, Scalar p.1 ∧ Scalar p.2 := by
  have hmember : Scalar (text "action") ∧ Scalar action := ⟨by decide,haction⟩
  unfold members
  intro p hp
  split at hp
  · rename_i r
    split at hp
    · rw [List.mem_singleton.mp hp]
      exact hmember
    · simp only [List.mem_cons,List.not_mem_nil,or_false] at hp
      rcases hp with rfl | rfl
      · exact hmember
      · exact ⟨(by decide : Scalar (text "region")),hregion r rfl⟩
  · rw [List.mem_singleton.mp hp]
    exact hmember

theorem encodeUtf8_scalar {t : Text} (h : Scalar t) : encodeUtf8 t = some (t.flatMap ShardVPN.utf8Bytes) := by
  refine encodeUtf8_eq_some.mpr ⟨?_,rfl⟩
  rw [List.any_eq_false]
  intro c hc
  simp [h c hc]

/-- The bytes that are signed are those that are extracted. -/
theorem extractBody_arrived {body : Text} {bytes : Bytes} {event : Dict} (hbytes : encodeUtf8 body = some bytes)
    (hne : bytes ≠ []) (h : BodyArrives body event) : extractBody event = .ok bytes := by
  have hraw : ∀ t : Text, t ≠ [] → event.get (text "body") = some (.str t) → rawBody event = .str t := by
    intro t ht hget
    have htruthy : (Json.str t).truthy = true := by simp [Json.truthy,ht]
    unfold rawBody Dict.getOr
    rw [hget]
    exact if_pos htruthy
  unfold extractBody
  cases h with
  | plain hget hflag =>
    have hbody : body ≠ [] := by
      rintro rfl
      exact hne (Option.some.inj hbytes).symm
    rw [hraw body hbody hget]
    dsimp only
    rw [hflag,if_neg Bool.false_ne_true,hbytes]
  | @encoded bytes' hbytes' hget hflag =>
    obtain rfl := Option.some.inj (hbytes.symm.trans hbytes')
    have hencoded : encodeBase64 bytes ≠ [] := by
      intro hnil
      have hdecoded := decodeBase64_encode bytes
      rw [hnil] at hdecoded
      exact hne (Option.some.inj hdecoded).symm
    rw [hraw _ hencoded hget]
    dsimp only
    rw [hflag,if_pos rfl,encodeBase64_ascii,if_pos rfl,decodeBase64_encode]

/-! ## The headers -/

/-- A header that arrives under one name only is the one that is read. -/
theorem header_delivered {lower : Text → Text} {headers : List (Text × Text)} {name key value : Text}
    (hnodup : (headers.map fun h => lower h.1).Nodup) (hmem : (name,value) ∈ headers) (hname : lower name = key) :
    header lower headers key = value := by
  unfold header
  cases hfind : headers.reverse.find? (fun p => decide (lower p.1 = key)) with
  | none =>
    have hnone := List.find?_eq_none.mp hfind (name,value) (List.mem_reverse.mpr hmem)
    simp [hname] at hnone
  | some p =>
    have hp := List.mem_reverse.mp (List.mem_of_find?_eq_some hfind)
    have hkey : lower p.1 = key := by simpa using List.find?_some hfind
    have hsame : p = (name,value) := List.inj_on_of_nodup_map hnodup hp hmem (hkey.trans hname.symm)
    rw [hsame]
    rfl

/-! ## The timestamp -/

theorem toString_decimal (n : ℕ) : toString n 10 = decimal n := rfl

theorem isTimestamp_decimal {n : ℕ} (h : n < 10 ^ 11) : isTimestamp (decimal n) = true := by
  have hlength : (Nat.toDigits 10 n).length ≤ 11 := (Nat.length_toDigits_le_iff (by decide) (by decide)).mpr h
  apply isTimestamp_iff.mpr
  refine ⟨List.length_pos_iff.mpr (decimal_ne_nil n),?_,decimal_digits n⟩
  unfold decimal
  rw [List.length_map]
  exact hlength

/-! ## The signature -/

theorem isLowerHex_hexDigit (n : ℕ) : isLowerHex (hexDigit n) = true := by
  unfold isLowerHex hexDigit inRange
  split <;> simp <;> omega

theorem isSignature_hex {bytes : Bytes} (h : bytes.length = 32) : isSignature (hex bytes) = true := by
  apply isSignature_iff.mpr
  refine ⟨by rw [hex_length,h],?_⟩
  intro c hc
  obtain ⟨b,-,hc⟩ := List.mem_flatMap.mp hc
  unfold hexByte at hc
  simp only [List.mem_cons,List.not_mem_nil,or_false] at hc
  rcases hc with rfl | rfl <;> exact isLowerHex_hexDigit _

theorem encodeUtf8_append {s t : Text} {a b : Bytes} (hs : encodeUtf8 s = some a) (ht : encodeUtf8 t = some b) :
    encodeUtf8 (s ++ t) = some (a ++ b) := by
  obtain ⟨hs',rfl⟩ := encodeUtf8_eq_some.mp hs
  obtain ⟨ht',rfl⟩ := encodeUtf8_eq_some.mp ht
  refine encodeUtf8_eq_some.mpr ⟨?_,List.flatMap_append.symm⟩
  rw [List.any_append,hs',ht']
  rfl

/-- What the script signs is what the server signs. -/
theorem message_encoded {ts body : Text} {bytes : Bytes} (hts : ∀ c ∈ ts, isAsciiDigit c = true)
    (hbytes : encodeUtf8 body = some bytes) : encodeUtf8 (ts ++ text "." ++ body) = some (message ts bytes) := by
  have hsigned := signedMessage_digits hts bytes
  obtain ⟨stamp,hstamp,hmessage⟩ := Option.map_eq_some_iff.mp hsigned
  rw [← hmessage]
  exact encodeUtf8_append hstamp hbytes

/-! ## Acceptance -/

section
variable {rt : Runtime} {secret action : Text} {region : Option Text} {dateNow : ℕ} {now : ℤ} {event : Dict}

theorem lower_headers (rt : Runtime) : rt.lower (text "X-ShardVPN-Timestamp") = timestampHeader ∧
    rt.lower (text "X-ShardVPN-Signature") = signatureHeader := by
  have hts : (text "X-ShardVPN-Timestamp").all isAscii = true := by decide +kernel
  have hsig : (text "X-ShardVPN-Signature").all isAscii = true := by decide +kernel
  rw [rt.lower_ascii _ (List.all_eq_true.mp hts),rt.lower_ascii _ (List.all_eq_true.mp hsig)]
  decide +kernel

/-- The signature of the script is the digest the server expects. -/
theorem signature_eq (hhmac : ∀ key message, (rt.hmacSha256 key message).1 = Sha256.hmacSha256 key message)
    {ts body : Text} {bytes : Bytes} (hsecret : Scalar secret) (hbody : Scalar body)
    (hts : ∀ c ∈ ts, isAsciiDigit c = true) (hbytes : encodeUtf8 body = some bytes) :
    ∃ key, encodeUtf8 secret = some key ∧
      hmacSha256Hex secret (ts ++ text "." ++ body) = hex (rt.hmacSha256 key (message ts bytes)).1 := by
  have hmessage := message_encoded hts hbytes
  have hscalar : Scalar (ts ++ text "." ++ body) := by
    apply Scalar.append _ hbody
    apply Scalar.append _ (by decide)
    exact scalar_of_ascii fun c hc => isAscii_of_isAsciiDigit (hts c hc)
  obtain ⟨key,hkey,hkeyNumbers⟩ := utf8Bytes_encodes hsecret
  obtain ⟨signed,hsigned,hsignedNumbers⟩ := utf8Bytes_encodes hscalar
  obtain rfl := Option.some.inj (hsigned.symm.trans hmessage)
  refine ⟨key,hkey,?_⟩
  rw [hmacSha256Hex_eq hkeyNumbers hsignedNumbers,hhmac]

/-- The server extracts the bytes of the body and accepts the signature over them. -/
theorem request_accepted (hhmac : ∀ key message, (rt.hmacSha256 key message).1 = Sha256.hmacSha256 key message)
    (hsecret : Scalar secret) (haction : Scalar action) (hregion : ∀ r ∈ region, Scalar r)
    (hclock : dateNow / 1000 < 10 ^ 11) (hskew : (now - (dateNow / 1000 : ℕ)).natAbs ≤ maxSkewSeconds)
    (h : Delivered rt.lower (request secret action region dateNow) event) : ∃ body, extractBody event = .ok body ∧
      verify rt (event.getOr (text "headers") (.obj [])) body secret now maxSkewSeconds = .ok () := by
  obtain ⟨hbody,headers,hget,hnodup,hheaders⟩ := h
  have hscalar : Scalar (stringify (members action region)) := stringify_scalar (members_scalar haction hregion)
  have hts : ∀ c ∈ toString (dateNow / 1000 : ℕ) 10, isAsciiDigit c = true := decimal_digits (dateNow / 1000)
  obtain ⟨key,hkey,hsignature⟩ := signature_eq hhmac hsecret hscalar hts (encodeUtf8_scalar hscalar)
  obtain ⟨stampName,hstampMem,hstampName⟩ :=
    hheaders (text "X-ShardVPN-Timestamp",toString (dateNow / 1000 : ℕ) 10) (by simp [request])
  obtain ⟨sigName,hsigMem,hsigName⟩ := hheaders (text "X-ShardVPN-Signature",
    hmacSha256Hex secret (toString (dateNow / 1000 : ℕ) 10 ++ text "." ++ stringify (members action region)))
    (by simp [request])
  have hstamp := header_delivered hnodup hstampMem (hstampName.trans (lower_headers rt).1)
  have hsig := header_delivered hnodup hsigMem (hsigName.trans (lower_headers rt).2)
  rw [hsignature] at hsig
  have hne : (stringify (members action region)).flatMap ShardVPN.utf8Bytes ≠ [] := by
    unfold stringify
    simp [ShardVPN.utf8Bytes]
  have hread : event.getOr (text "headers") (.obj []) = .obj (stringFields headers) := by
    have htruthy : (Json.obj (stringFields headers)).truthy = true := by
      cases headers with
      | nil => cases hstampMem
      | cons p rest => rfl
    unfold Dict.getOr
    rw [hget]
    exact if_pos htruthy
  refine ⟨_,extractBody_arrived (encodeUtf8_scalar hscalar) hne hbody,?_⟩
  have hshape : isTimestamp (toString (dateNow / 1000 : ℕ) 10) = true := isTimestamp_decimal hclock
  rw [hread,verify_eq,presented_strings,hstamp,hsig]
  dsimp only
  rw [if_pos,checkSignature_ok_iff rt hshape]
  · exact ⟨key,hkey,rfl⟩
  · refine ⟨hshape,isSignature_hex (rt.hmacSha256 _ _).2,?_⟩
    rw [toString_decimal,value_decimal]
    exact_mod_cast hskew

end

/-- The script encodes, hashes and signs as the standards say, and what it signs is accepted by a server with
the same secret and a clock within the skew. -/
theorem phone_agrees :
    (∀ t : Text, Scalar t → ∃ bytes, encodeUtf8 t = some bytes ∧ utf8Bytes t = numbers bytes) ∧
    (∀ bytes : Bytes, bytes.length < 2 ^ 50 → sha256 (numbers bytes) = numbers (Sha256.digest bytes)) ∧
    (∀ key message : Text, Scalar key → Scalar message → ∃ keyBytes bytes, encodeUtf8 key = some keyBytes ∧
      encodeUtf8 message = some bytes ∧ hmacSha256Hex key message = hex (Sha256.hmacSha256 keyBytes bytes)) ∧
    ∀ rt : Runtime, (∀ key message, (rt.hmacSha256 key message).1 = Sha256.hmacSha256 key message) →
      ∀ (secret action : Text) (region : Option Text) (dateNow : ℕ) (now : ℤ) (event : Dict), Scalar secret →
      Scalar action → (∀ r ∈ region, Scalar r) → dateNow / 1000 < 10 ^ 11 →
      (now - (dateNow / 1000 : ℕ)).natAbs ≤ maxSkewSeconds →
      Delivered rt.lower (request secret action region dateNow) event → ∃ body, extractBody event = .ok body ∧
        verify rt (event.getOr (text "headers") (.obj [])) body secret now maxSkewSeconds = .ok () := by
  refine ⟨fun t h => utf8Bytes_encodes h,fun bytes _ => sha256_numbers bytes,?_,?_⟩
  · intro key message hkey hmessage
    obtain ⟨keyBytes,hkeyBytes,hkeyNumbers⟩ := utf8Bytes_encodes hkey
    obtain ⟨bytes,hbytes,hnumbers⟩ := utf8Bytes_encodes hmessage
    exact ⟨keyBytes,bytes,hkeyBytes,hbytes,hmacSha256Hex_eq hkeyNumbers hnumbers⟩
  · intro rt hhmac secret action region dateNow now event hsecret haction hregion hclock hskew h
    exact request_accepted hhmac hsecret haction hregion hclock hskew h

/-- A runtime whose library signs as the standard says. -/
def standard : Runtime := { Plain.runtime with
  hmacSha256 := fun key message => ⟨Sha256.hmacSha256 key message,Sha256.hmacSha256_length key message⟩ }

/-- The event of a request whose headers and body are left as they are. -/
def eventOf (r : Request) : Dict :=
  [(text "headers",.obj (stringFields r.headers)),(text "body",.str r.body)]

/-- A request at the first midnight of 2026 is accepted two minutes later. -/
theorem phone_agrees_newYear :
    (∃ bytes, encodeUtf8 Plain.secret = some bytes ∧ utf8Bytes Plain.secret = numbers bytes) ∧
    sha256 (numbers [0x61,0x62,0x63]) = numbers (Sha256.digest [0x61,0x62,0x63]) ∧
    (∃ keyBytes bytes, encodeUtf8 Plain.secret = some keyBytes ∧ encodeUtf8 (text "up") = some bytes ∧
      hmacSha256Hex Plain.secret (text "up") = hex (Sha256.hmacSha256 keyBytes bytes)) ∧
    ∃ body, extractBody (eventOf (request Plain.secret (text "up") (some Plain.region0) 1767225600999)) = .ok body ∧
      verify standard ((eventOf (request Plain.secret (text "up") (some Plain.region0) 1767225600999)).getOr
        (text "headers") (.obj [])) body Plain.secret 1767225720 maxSkewSeconds = .ok () := by
  have hsecret : Scalar Plain.secret := by decide
  have hup : Scalar (text "up") := by decide
  have hregion : ∀ r ∈ some Plain.region0, Scalar r := by decide
  have hclock : 1767225600999 / 1000 < 10 ^ 11 := by decide
  have hskew : ((1767225720 : ℤ) - (1767225600999 / 1000 : ℕ)).natAbs ≤ maxSkewSeconds := by decide
  obtain ⟨hencoded,hhashed,hsigned,haccepted⟩ := phone_agrees
  refine ⟨hencoded _ hsecret,hhashed _ (by decide),hsigned _ _ hsecret hup,?_⟩
  apply haccepted standard (fun _ _ => rfl) _ _ _ _ _ _ hsecret hup hregion hclock hskew
  refine ⟨.plain rfl rfl,_,rfl,?_,fun h hh => ⟨h.1,hh,rfl⟩⟩
  decide +kernel

end ShardVPN.Script
