import ShardVPN.Request.Tailnet
import ShardVPN.Text.Form

/-! # The credentials in the token request

The form that is sent for a token is read back as the two credentials, whatever
characters they have; credentials that cannot be encoded are not sent at all.
-/
namespace ShardVPN.Tailscale
open Effect

theorem upperHexDigit_escaped : ∀ n < 256, 38 ∉ [byte (upperHexDigit (n / 16)).val,byte (upperHexDigit n).val] ∧
    61 ∉ [byte (upperHexDigit (n / 16)).val,byte (upperHexDigit n).val] ∧
    Form.escaped (byte (upperHexDigit (n / 16)).val) (byte (upperHexDigit n).val) = some (byte n) := by
  decide +kernel

theorem isUnreserved_facts : ∀ n < 256, isUnreserved n = true → n ≠ 37 ∧ n ≠ 43 ∧ n ≠ 38 ∧ n ≠ 61 := by
  decide +kernel

/-- Every byte that is written is read back. -/
theorem quoteByte_quotes : Form.Quotes quoteByte := by
  intro b
  have hb : b.toNat < 256 := b.toNat_lt
  unfold quoteByte
  split_ifs with hplain hblank
  · obtain ⟨hpercent,hplus,hamp,heq⟩ := isUnreserved_facts b.toNat hb hplain
    have hne : ∀ {c : UInt8}, b.toNat ≠ c.toNat → b ≠ c := fun h heq => h (congrArg UInt8.toNat heq)
    have hplus' : b ≠ 43 := hne hplus
    refine ⟨fun rest => ?_,?_,?_⟩
    · rw [List.singleton_append,Form.unquote_cons (hne hpercent),if_neg hplus']
    · exact fun h => (hne hamp : b ≠ 38) (List.mem_singleton.mp h).symm
    · exact fun h => (hne heq : b ≠ 61) (List.mem_singleton.mp h).symm
  · refine ⟨fun rest => ?_,by decide,by decide⟩
    rw [List.singleton_append,Form.unquote_cons (by decide),hblank]
    rfl
  · obtain ⟨hamp,heq,hescaped⟩ := upperHexDigit_escaped b.toNat hb
    have hself : byte b.toNat = b := UInt8.ofNat_toNat
    rw [hself] at hescaped
    refine ⟨fun rest => Form.unquote_escaped hescaped rest,?_,?_⟩
    · exact fun h => (List.mem_cons.mp h).elim (by decide) hamp
    · exact fun h => (List.mem_cons.mp h).elim (by decide) heq

/-- The fields of the form. -/
def credentials (clientId clientSecret : Text) : List (Text × Text) :=
  [(text "client_id",clientId),(text "client_secret",clientSecret)]

theorem readForm_credentialsForm {clientId clientSecret : Text} {form : Bytes}
    (h : credentialsForm clientId clientSecret = some form) :
    Form.readForm form = some (credentials clientId clientSecret) := by
  unfold credentialsForm quotePlus at h
  obtain ⟨_,hk,h⟩ := Option.bind_eq_some_iff.mp h
  obtain ⟨idKey,hidKey,rfl⟩ := Option.map_eq_some_iff.mp hk
  obtain ⟨_,hk,h⟩ := Option.bind_eq_some_iff.mp h
  obtain ⟨idValue,hidValue,rfl⟩ := Option.map_eq_some_iff.mp hk
  obtain ⟨_,hk,h⟩ := Option.bind_eq_some_iff.mp h
  obtain ⟨secretKey,hsecretKey,rfl⟩ := Option.map_eq_some_iff.mp hk
  obtain ⟨_,hk,h⟩ := Option.bind_eq_some_iff.mp h
  obtain ⟨secretValue,hsecretValue,rfl⟩ := Option.map_eq_some_iff.mp hk
  have hread := Form.readForm_quoted quoteByte_quotes
    [((text "client_id",clientId),(idKey,idValue)),((text "client_secret",clientSecret),(secretKey,secretValue))]
    (by simp) (by simp [hidKey,hidValue,hsecretKey,hsecretValue])
  rw [← Option.some.inj h]
  simpa [List.intercalate,credentials] using hread

/-- Exactly the texts that UTF-8 can encode are written. -/
theorem quotePlus_isSome (t : Text) : (quotePlus t).isSome = true ↔ Scalar t := by
  have hany : t.any isSurrogate = false ↔ Scalar t := by simp [Scalar]
  rw [quotePlus,Option.isSome_map,← hany,Option.isSome_iff_ne_none,ne_eq,encodeUtf8_eq_none]
  simp

theorem credentialsForm_isSome (clientId clientSecret : Text) :
    (credentialsForm clientId clientSecret).isSome = true ↔ Scalar clientId ∧ Scalar clientSecret := by
  have hkeys : (quotePlus (text "client_id")).isSome = true ∧ (quotePlus (text "client_secret")).isSome = true := by
    decide +kernel
  obtain ⟨idKey,hidKey⟩ := Option.isSome_iff_exists.mp hkeys.1
  obtain ⟨secretKey,hsecretKey⟩ := Option.isSome_iff_exists.mp hkeys.2
  rw [← quotePlus_isSome,← quotePlus_isSome]
  unfold credentialsForm
  rw [hidKey,hsecretKey]
  cases quotePlus clientId <;> cases quotePlus clientSecret <;> simp

/-- Credentials that can be encoded are sent in one request, whose form is read back as exactly these; others make no
request. -/
theorem getToken_sends (env : Env) (s : State) (clientId clientSecret : Text) :
    (Scalar clientId ∧ Scalar clientSecret → ∃ form e, (getToken clientId clientSecret).events env.service s = [e] ∧
      e.call = .urlopen (Handler.tokenRequest form) timeout ∧
      Form.readForm form = some (credentials clientId clientSecret)) ∧
    (¬(Scalar clientId ∧ Scalar clientSecret) → (getToken clientId clientSecret).events env.service s = [] ∧
      ((getToken clientId clientSecret).exec env.service s).1 = .error .unicodeEncodeError) := by
  have h := (getToken clientId clientSecret).steps_exec env.service s
  rw [← credentialsForm_isSome]
  generalize (getToken clientId clientSecret).events env.service s = es at h ⊢
  generalize ((getToken clientId clientSecret).exec env.service s).1 = r at h ⊢
  generalize ((getToken clientId clientSecret).exec env.service s).2 = t at h
  unfold getToken at h
  cases hform : credentialsForm clientId clientSecret with
  | none =>
    rw [hform] at h
    refine ⟨fun hsome => by simp at hsome,fun _ => ?_⟩
    rcases h.bind_cases with ⟨data,u,xs,ys,h1,-,-⟩ | ⟨x,h1,rfl⟩
    · cases (Steps.throw_iff.mp h1).1
    · obtain ⟨hx,rfl,-⟩ := Steps.throw_iff.mp h1
      exact ⟨rfl,congrArg Except.error (Except.error.inj hx)⟩
  | some form =>
    rw [hform] at h
    refine ⟨fun _ => ?_,fun hnone => by simp at hnone⟩
    rcases h.bind_cases with ⟨data,u,xs,ys,h1,h2,rfl⟩ | ⟨x,h1,-⟩
    · obtain ⟨hdata,rfl,rfl⟩ := Steps.pure_iff.mp h1
      obtain rfl := Except.ok.inj hdata
      rcases h2.bind_cases with ⟨response,v,zs,ws,h3,h4,rfl⟩ | ⟨x,h3,-⟩
      · obtain ⟨-,-,error,effective,rfl⟩ := Handler.callApi_outcome h3
        obtain ⟨-,rfl,-⟩ := ofExcept_cases h4
        exact ⟨data,_,rfl,rfl,readForm_credentialsForm hform⟩
      · obtain ⟨-,-,error,effective,rfl⟩ := Handler.callApi_outcome h3
        exact ⟨data,_,rfl,rfl,readForm_credentialsForm hform⟩
    · cases (Steps.pure_iff.mp h1).1

end ShardVPN.Tailscale
