import ShardVPN.Program.Specs
import ShardVPN.System.Plain

/-! # The authentication gate

An HTTP event meets the gate before anything else: the secret is read, the body is
extracted, the signature is checked. The gate is uniform when every event that does
not pass it gets the same refusal; it fails to be so exactly where a text that has
no UTF-8 encoding is encoded outside of every `except` clause.
-/
namespace ShardVPN.Handler
open Effect Settings

/-- The read of the signing secret. -/
def secretRead (rt : Runtime) : Call := .getParameter rt.controlRegion ParamName.signingSecret.path true

theorem signingSecret_only (rt : Runtime) : Only (· = secretRead rt) (signingSecret rt) :=
  .bind now_only fun _ => cachedSecret_only _ _ _ rfl

/-! ## Executions -/

section
variable (rt : Runtime) (requestId : Text) (event : Dict) {σ : Service Call Resp World ServiceError} {s t : State}

theorem ofExcept_exec {X α : Type} (r : Except X α) : (Program.ofExcept r).exec σ s = (r,s) := by
  cases r <;> rfl

/-- The server time a check made in this state compares with. -/
def checkTime (s : State) : ℤ := (s.proc.clock s.proc.ticks).time / Time.microsPerSecond

/-- What `authenticate` computes: a body that fails wins over the signature. -/
def authResult (secret : Text) (now : ℤ) : Except Exn Unit :=
  match Auth.extractBody event with
  | .error e => .error e
  | .ok body => Auth.verify rt (event.getOr (text "headers") (.obj [])) body secret now Auth.maxSkewSeconds

/-- Checking a request makes no call. -/
theorem authenticate_exec (secret : Text) : ∃ t, (authenticate rt event secret).exec σ s =
    (authResult rt event secret (checkTime s),t) ∧ t.world = s.world ∧ t.trace = s.trace := by
  rw [authResult,authenticate]
  cases hb : Auth.extractBody event with
  | error e => exact ⟨s,exec_bind_error (ofExcept_exec _),rfl,rfl⟩
  | ok body =>
    refine ⟨{ s with proc := { s.proc with ticks := s.proc.ticks + 1 } },?_,rfl,rfl⟩
    rw [exec_bind_ok (ofExcept_exec _),exec_bind_ok rfl]
    exact ofExcept_exec _

theorem lambdaHandler_http {context : Json} (h : event.get (text "requestContext") = some context)
    {r : Except Exn Response} (hr : (handleHttp rt requestId event).exec σ s = (r,t)) :
    (lambdaHandler rt requestId event).exec σ s = (r.map Reply.http,t) := by
  rw [lambdaHandler,h]
  dsimp only
  cases r with
  | ok response => rw [exec_bind_ok hr]; rfl
  | error e => rw [exec_bind_error hr]; rfl

theorem handleHttp_unreadable {e : Exn} (h : (signingSecret rt).exec σ s = (.error e,t)) :
    (handleHttp rt requestId event).exec σ s = (.ok (failure 503 (text "cannot verify request")),t) := by
  rw [handleHttp,exec_bind_ok (exec_attempt _ _ _),h]
  rfl

theorem handleHttp_placeholder (h : (signingSecret rt).exec σ s = (.ok placeholderSigningSecret,t)) :
    (handleHttp rt requestId event).exec σ s =
      (.ok (failure 503 (text "signing secret not configured")),t) := by
  rw [handleHttp,exec_bind_ok (exec_attempt _ _ _),h]
  simp only [↓reduceIte]
  rfl

theorem handleHttp_secret {secret : Text} (h : (signingSecret rt).exec σ s = (.ok secret,t))
    (hs : secret ≠ placeholderSigningSecret) : (handleHttp rt requestId event).exec σ s =
      (handleRequest rt requestId event secret).exec σ t := by
  rw [handleHttp,exec_bind_ok (exec_attempt _ _ _),h]
  simp only [if_neg hs]

/-- A request that is not accepted: refused, or raised when the exception is no `AuthError`. -/
theorem handleRequest_error {secret : Text} {e : Exn} (h : authResult rt event secret (checkTime s) = .error e) :
    ∃ t, (handleRequest rt requestId event secret).exec σ s =
      (if e = .authError then .ok forbidden else .error e,t) ∧ t.world = s.world ∧ t.trace = s.trace := by
  obtain ⟨t,ht,hw,htr⟩ := authenticate_exec rt event secret (σ := σ) (s := s)
  rw [h] at ht
  refine ⟨t,?_,hw,htr⟩
  rw [handleRequest,exec_bind_ok (exec_attempt _ _ _),ht]
  cases e with
  | authError => rfl
  | _ => rfl

/-! ## Which exceptions the check raises -/

/-- A body that is no base64 text can be encoded. -/
def BodyEncodes (event : Dict) : Prop := ∀ raw, Auth.rawBody event = .str raw →
  Auth.flag event (text "isBase64Encoded") = false → raw.any isSurrogate = false

/-- The secret can be encoded, unless the request is refused before it is needed. -/
def SecretEncodes (secret : Text) (now : ℤ) : Prop :=
  secret.any isSurrogate = false ∨ Auth.extractBody event = .error .authError ∨
    ∀ ts sig, Auth.presented rt.lower (event.getOr (text "headers") (.obj [])) = some (ts,sig) →
      ¬Auth.WellFormed ts sig now Auth.maxSkewSeconds

theorem extractBody_error {e : Exn} (h : Auth.extractBody event = .error e) :
    e = .authError ∨ e = .unicodeEncodeError ∧ ¬BodyEncodes event := by
  rw [Auth.extractBody] at h
  cases hraw : Auth.rawBody event with
  | str raw =>
    rw [hraw] at h
    dsimp only at h
    cases hflag : Auth.flag event (text "isBase64Encoded") with
    | true =>
      left
      rw [hflag,if_pos rfl] at h
      split at h
      · split at h
        · cases h
        · exact (Except.error.inj h).symm
      · exact (Except.error.inj h).symm
    | false =>
      right
      rw [hflag,if_neg (by decide)] at h
      split at h
      · cases h
      · rename_i hnone
        refine ⟨(Except.error.inj h).symm,fun hb => ?_⟩
        have hfalse := hb raw hraw hflag
        rw [encodeUtf8_eq_none.mp hnone] at hfalse
        cases hfalse
  | _ =>
    rw [hraw] at h
    exact Or.inl (Except.error.inj h).symm

theorem extractBody_unencodable (h : ¬BodyEncodes event) : Auth.extractBody event = .error .unicodeEncodeError := by
  simp only [BodyEncodes,not_forall] at h
  obtain ⟨raw,hraw,hflag,hs⟩ := h
  rw [Auth.extractBody,hraw]
  dsimp only
  rw [hflag,if_neg (by decide),encodeUtf8_eq_none.mpr (by simpa using hs)]

theorem checkSignature_unencodable (ts sig : Text) (body : Bytes) {secret : Text}
    (h : secret.any isSurrogate = true) : Auth.checkSignature rt ts sig body secret = .error .unicodeEncodeError := by
  rw [Auth.checkSignature,encodeUtf8_eq_none.mpr h]

theorem checkSignature_encodable {ts : Text} (hts : Auth.isTimestamp ts = true) (sig : Text) (body : Bytes)
    {secret : Text} (h : secret.any isSurrogate = false) :
    Auth.checkSignature rt ts sig body secret = .ok () ∨
      Auth.checkSignature rt ts sig body secret = .error .authError := by
  rw [Auth.checkSignature,encodeUtf8_eq_some.mpr ⟨h,rfl⟩,
    Auth.signedMessage_digits (Auth.isTimestamp_iff.mp hts).2.2]
  dsimp only
  split
  · exact Or.inl rfl
  · exact Or.inr rfl

/-- Where everything can be encoded, the only refusal is the uniform one. -/
theorem authResult_uniform {secret : Text} {now : ℤ} (hb : BodyEncodes event)
    (hs : SecretEncodes rt event secret now) :
    authResult rt event secret now = .ok () ∨ authResult rt event secret now = .error .authError := by
  rw [authResult]
  cases hx : Auth.extractBody event with
  | error e =>
    rcases extractBody_error event hx with rfl | ⟨-,hn⟩
    · exact Or.inr rfl
    · exact absurd hb hn
  | ok body =>
    dsimp only
    rw [Auth.verify_eq]
    split
    · rename_i ts sig hp
      by_cases hw : Auth.WellFormed ts sig now Auth.maxSkewSeconds
      · rw [if_pos hw]
        rcases hs with hs | hs | hs
        · exact checkSignature_encodable rt hw.1 sig body hs
        · rw [hx] at hs
          cases hs
        · exact absurd hw (hs ts sig hp)
      · rw [if_neg hw]
        exact Or.inr rfl
    · exact Or.inr rfl

/-- Elsewhere the check raises what no clause catches. -/
theorem authResult_raises {secret : Text} {now : ℤ} (h : ¬(BodyEncodes event ∧ SecretEncodes rt event secret now)) :
    authResult rt event secret now = .error .unicodeEncodeError := by
  rw [authResult]
  by_cases hb : BodyEncodes event
  · have hs : ¬SecretEncodes rt event secret now := fun hs => h ⟨hb,hs⟩
    simp only [SecretEncodes,not_or,not_forall,not_not] at hs
    obtain ⟨hsur,hbody,ts,sig,hp,hw⟩ := hs
    cases hx : Auth.extractBody event with
    | error e =>
      rcases extractBody_error event hx with rfl | ⟨-,hn⟩
      · exact absurd hx hbody
      · exact absurd hb hn
    | ok body =>
      dsimp only
      rw [Auth.verify_eq,hp]
      dsimp only
      rw [if_pos hw,checkSignature_unencodable rt ts sig body (by simpa using hsur)]
  · rw [extractBody_unencodable event hb]

end

/-! ## Uniformity -/

/-- What the gate owes for one event: a fixed answer when the secret cannot be used,
and for every request that fails the check the same refusal without another call. -/
structure GateUniform (rt : Runtime) (env : Env) (requestId : Text) (event : Dict) (s : State) : Prop where
  unreadable : ∀ e t, (signingSecret rt).exec env.service s = (.error e,t) →
    (lambdaHandler rt requestId event).exec env.service s =
      (.ok (.http (failure 503 (text "cannot verify request"))),t)
  placeholder : ∀ t, (signingSecret rt).exec env.service s = (.ok placeholderSigningSecret,t) →
    (lambdaHandler rt requestId event).exec env.service s =
      (.ok (.http (failure 503 (text "signing secret not configured"))),t)
  refused : ∀ secret t, (signingSecret rt).exec env.service s = (.ok secret,t) →
    secret ≠ placeholderSigningSecret → authResult rt event secret (checkTime t) ≠ .ok () →
    ((lambdaHandler rt requestId event).exec env.service s).1 = .ok (.http forbidden) ∧
      ∀ e ∈ (lambdaHandler rt requestId event).events env.service s, e.call = secretRead rt

/-- The gate is uniform for an event iff every text it encodes has an encoding. -/
theorem gate_uniform_iff (rt : Runtime) (env : Env) (requestId : Text) (event : Dict) (s : State) {context : Json}
    (hcontext : event.get (text "requestContext") = some context) :
    GateUniform rt env requestId event s ↔
      ∀ secret t, (signingSecret rt).exec env.service s = (.ok secret,t) → secret ≠ placeholderSigningSecret →
        BodyEncodes event ∧ SecretEncodes rt event secret (checkTime t) := by
  constructor
  · intro h secret t ht hne
    by_contra hn
    have hraise := authResult_raises rt event hn
    obtain ⟨u,hu,-,-⟩ := handleRequest_error rt requestId event hraise (σ := env.service)
    rw [← handleHttp_secret rt requestId event ht hne] at hu
    have hrun := (h.refused secret t ht hne (by rw [hraise]; simp)).1
    rw [lambdaHandler_http rt requestId event hcontext hu] at hrun
    cases hrun
  · intro h
    refine ⟨?_,?_,?_⟩
    · intro e t ht
      exact lambdaHandler_http rt requestId event hcontext (handleHttp_unreadable rt requestId event ht)
    · intro t ht
      exact lambdaHandler_http rt requestId event hcontext (handleHttp_placeholder rt requestId event ht)
    · intro secret t ht hne hrej
      obtain ⟨hb,hs⟩ := h secret t ht hne
      have hauth := (authResult_uniform rt event hb hs).resolve_left hrej
      obtain ⟨u,hu,-,htrace⟩ := handleRequest_error rt requestId event hauth (σ := env.service)
      rw [← handleHttp_secret rt requestId event ht hne] at hu
      have hrun := lambdaHandler_http rt requestId event hcontext hu
      refine ⟨by rw [hrun]; rfl,?_⟩
      have hread := (signingSecret rt).steps_exec env.service s
      rw [ht] at hread
      rw [Action.events,hrun]
      dsimp only
      rw [htrace,hread.2,List.drop_left]
      exact signingSecret_only rt hread

theorem signingSecret_plain : ((signingSecret Plain.runtime).exec Plain.clean.service (Plain.state Plain.empty)).1 =
    .ok Plain.secret := by decide +kernel

/-- The same request without headers. -/
def unsignedEvent : Dict := [(text "requestContext",.obj []),(text "body",.str Plain.upText)]

/-- The gate is uniform for a signed request, and for the same one unsigned, which it refuses. -/
theorem gate_uniform_up :
    GateUniform Plain.runtime Plain.clean [] (Plain.request Plain.upText) (Plain.state Plain.empty) ∧
    GateUniform Plain.runtime Plain.clean [] unsignedEvent (Plain.state Plain.empty) ∧
    ((lambdaHandler Plain.runtime [] unsignedEvent).exec Plain.clean.service (Plain.state Plain.empty)).1 =
      .ok (.http forbidden) := by
  have hencodes : ∀ event, Auth.rawBody event = .str Plain.upText → ∀ secret t,
      (signingSecret Plain.runtime).exec Plain.clean.service (Plain.state Plain.empty) = (.ok secret,t) →
      BodyEncodes event ∧ SecretEncodes Plain.runtime event secret (checkTime t) := by
    intro event hbody secret t ht
    have hsecret := signingSecret_plain
    rw [ht] at hsecret
    cases hsecret
    refine ⟨?_,Or.inl (by decide)⟩
    intro raw hraw _
    rw [hbody] at hraw
    cases hraw
    decide
  have hunsigned : GateUniform Plain.runtime Plain.clean [] unsignedEvent (Plain.state Plain.empty) := by
    apply (gate_uniform_iff Plain.runtime Plain.clean [] unsignedEvent (Plain.state Plain.empty)
      (by decide +kernel : _ = some (Json.obj []))).mpr
    intro secret t ht _
    exact hencodes _ (by decide +kernel) secret t ht
  have hrejected : authResult Plain.runtime unsignedEvent Plain.secret (checkTime ((signingSecret
      Plain.runtime).exec Plain.clean.service (Plain.state Plain.empty)).2) ≠ .ok () := by decide +kernel
  refine ⟨?_,hunsigned,(hunsigned.refused Plain.secret _ (Prod.ext signingSecret_plain rfl) (by decide) hrejected).1⟩
  apply (gate_uniform_iff Plain.runtime Plain.clean [] (Plain.request Plain.upText) (Plain.state Plain.empty)
    (by decide +kernel : _ = some (Json.obj []))).mpr
  intro secret t ht _
  exact hencodes _ (by decide +kernel) secret t ht

/-- A request whose body is a lone surrogate. -/
def surrogateEvent : Dict := [(text "requestContext",.obj []),(text "body",.str [0xD800])]

theorem gate_not_uniform : ¬GateUniform Plain.runtime Plain.clean [] surrogateEvent (Plain.state Plain.empty) := by
  intro h
  have hrejected : authResult Plain.runtime surrogateEvent Plain.secret (checkTime ((signingSecret
      Plain.runtime).exec Plain.clean.service (Plain.state Plain.empty)).2) ≠ .ok () := by decide +kernel
  have hraised : ((lambdaHandler Plain.runtime [] surrogateEvent).exec Plain.clean.service
      (Plain.state Plain.empty)).1 = .error .unicodeEncodeError := by decide +kernel
  have hrefused := (h.refused Plain.secret _ (Prod.ext signingSecret_plain rfl) (by decide) hrejected).1
  rw [hraised] at hrefused
  cases hrefused

end ShardVPN.Handler
