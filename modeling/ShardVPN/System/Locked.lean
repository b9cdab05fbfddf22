import ShardVPN.Cache.Secrets
import ShardVPN.System.Lifetime

/-! # Before the secret is set

As long as the published placeholder is the signing secret, the function answers no
request: every HTTP event gets the answer of a server that is not ready, and whatever
fails it changes nothing. Only a process that remembers an older secret would go on.
-/
namespace ShardVPN.System
open Effect Settings Handler

variable {rt : Runtime} {w : World} {i : Invocation}

/-- The parameter still holds the published text. -/
def Unset (rt : Runtime) (w : World) : Prop :=
  w.parameters rt.controlRegion ParamName.signingSecret.path = some placeholderSigningSecret

/-- The process remembers no other secret. -/
def Invocation.Unset (i : Invocation) : Prop :=
  ∀ c, i.proc.secretCache ParamName.signingSecret.path = some c → c.2 = placeholderSigningSecret

/-- The answer of a server that is not ready. -/
def Unready (response : Response) : Prop :=
  response = failure 503 (text "cannot verify request") ∨ response = failure 503 (text "signing secret not configured")

/-- No step sets the secret. -/
theorem unset_lasting (rt : Runtime) (ls : List Label) (hw : Unset rt w) : Unset rt (run (after rt) w ls) := by
  induction ls generalizing w with
  | nil => exact hw
  | cons l ls ih => exact ih ((after_parameter l w (by decide) fun d => by cases d <;> decide).trans hw)

/-- The gate reads the placeholder, or fails to read. -/
theorem signingSecret_unset (hw : Unset rt w) (hi : i.Unset) {r : Except Exn Text} {es : List Event} {t : State}
    (h : Steps i.env.service (signingSecret rt) (i.start w) r es t) : ∀ v, r = .ok v → v = placeholderSigningSecret := by
  rcases h.bind_cases with ⟨clock,u,xs,ys,hnow,hread,-⟩ | ⟨x,hnow,-⟩
  · obtain ⟨-,-,rfl⟩ := now_reply hnow
    rw [cachedSecret_eq] at hread
    rcases cachedSecretOf_cases hread with ⟨c,hcached,rfl,-,-⟩ | ⟨-,rfl,-⟩
    · rintro _ ⟨⟩
      exact hi c (Option.filter_eq_some_iff.mp hcached).1
    · intro v hv
      change (i.env.service.reply [] w (secretRead rt)).mapError Exn.service = .ok v at hv
      cases hreply : i.env.service.reply [] w (secretRead rt) with
      | ok raw =>
        rw [hreply] at hv
        have hstored := parameter_of_reply hreply
        rw [hw] at hstored
        exact (Except.ok.inj hv).symm.trans (Option.some.inj hstored).symm
      | error e =>
        rw [hreply] at hv
        cases hv
  · cases (now_reply hnow).1

/-- A request changes nothing, and is told that the server is not ready. -/
def Locks (rt : Runtime) (w : World) : Label → Prop
  | .invoke i => i.Unset → ¬i.Sweeps →
      i.after rt w = w ∧ ∃ response, i.reply rt w = .ok (.http response) ∧ Unready response
  | _ => True

theorem locks_invoke (hw : Unset rt w) (i : Invocation) : Locks rt w (.invoke i) := by
  intro hi hhttp
  obtain ⟨context,hcontext⟩ := Option.ne_none_iff_exists'.mp hhttp
  have hsteps := (signingSecret rt).steps_exec i.env.service (i.start w)
  have hsecret := signingSecret_unset hw hi hsteps
  have hworld := world_of_inert ((signingSecret_only rt).mono fun c hc _ => by rw [hc]; rfl) hsteps
  obtain ⟨response,hexec,hresponse⟩ : ∃ response, (handleHttp rt i.requestId i.event).exec i.env.service (i.start w) =
      (.ok response,((signingSecret rt).exec i.env.service (i.start w)).2) ∧ Unready response := by
    cases hread : (signingSecret rt).exec i.env.service (i.start w) with
    | mk r t =>
      rw [hread] at hsecret
      cases r with
      | ok v =>
        rw [hsecret v rfl] at hread
        exact ⟨_,handleHttp_placeholder rt i.requestId i.event hread,Or.inr rfl⟩
      | error e => exact ⟨_,handleHttp_unreadable rt i.requestId i.event hread,Or.inl rfl⟩
  have hreply := lambdaHandler_http rt i.requestId i.event hcontext hexec
  unfold Invocation.after Invocation.reply
  rw [hreply]
  exact ⟨hworld,response,rfl,hresponse⟩

/-- Until somebody sets the secret, in every run and whatever fails, no request changes anything or is performed. -/
theorem unconfigured_locked (rt : Runtime) (w : World) (ls : List Label) (hw : Unset rt w) :
    Along (after rt) (Locks rt) w ls := by
  refine along_iff.mpr fun pre l post _ => ?_
  cases l with
  | invoke i => exact locks_invoke (unset_lasting rt pre hw) i
  | _ => trivial

/-- An account right after the deployment. -/
def published : World :=
  Plain.empty.setParameter Plain.control ParamName.signingSecret.path placeholderSigningSecret

theorem unset_published : Unset Plain.runtime published := by
  unfold Unset
  decide

theorem unconfigured_locked_published : Unset Plain.runtime published ∧ Along (after Plain.runtime) (Locks Plain.runtime)
    published [Plain.invoke Plain.clean Plain.upText,Plain.invoke Plain.unwritable Plain.downText] :=
  ⟨unset_published,unconfigured_locked Plain.runtime published _ unset_published⟩

end ShardVPN.System
