import ShardVPN.Request.Entry

/-! # Admission

An HTTP event is admitted when the secret the gate gets is configured and the event is
signed under it at that time. An event that is not admitted makes no call but the read
of the secret, and no answer to it is a success.
-/
namespace ShardVPN.Handler
open Effect Settings

/-- The gate gets this secret for the event, and the event is signed under it. -/
def AdmittedUnder (rt : Runtime) (env : Env) (event : Dict) (s : State) (secret : Text) : Prop :=
  ∃ t, (signingSecret rt).exec env.service s = (.ok secret,t) ∧ secret ≠ placeholderSigningSecret ∧
    authResult rt event secret (checkTime t) = .ok ()

def Admitted (rt : Runtime) (env : Env) (event : Dict) (s : State) : Prop :=
  ∃ secret, AdmittedUnder rt env event s secret

section
variable {rt : Runtime} {env : Env} {requestId : Text} {event : Dict} {s t : State} {es : List Event}

theorem authenticate_result {secret : Text} {v : Except Exn Unit}
    (h : Steps env.service (authenticate rt event secret) s v es t) :
    v = authResult rt event secret (checkTime s) ∧ es = [] := by
  obtain ⟨u,hu,-,-⟩ := authenticate_exec rt event secret (σ := env.service) (s := s)
  refine ⟨(Prod.mk.inj (h.1.symm.trans hu)).1,List.eq_nil_iff_forall_not_mem.mpr ?_⟩
  exact authenticate_only (Q := fun _ => False) secret h

/-- A request is signed, or it makes no call and is no success. -/
theorem handleRequest_admitted {secret : Text} {r : Except Exn Response}
    (h : Steps env.service (handleRequest rt requestId event secret) s r es t) :
    authResult rt event secret (checkTime s) = .ok () ∨
      es = [] ∧ ∀ response, r = .ok response → response.statusCode ≠ 200 := by
  obtain ⟨v,u,xs,ys,h1,h2,rfl⟩ := h.bind_attempt
  obtain ⟨hv,rfl⟩ := authenticate_result h1
  cases v with
  | ok _ => exact Or.inl hv.symm
  | error x =>
    cases x with
    | authError =>
      obtain ⟨rfl,rfl,-⟩ := Steps.pure_iff.mp h2
      refine Or.inr ⟨rfl,?_⟩
      rintro _ ⟨⟩
      decide
    | _ =>
      obtain ⟨rfl,rfl,-⟩ := Steps.throw_iff.mp h2
      exact Or.inr ⟨rfl,by rintro _ ⟨⟩⟩

/-- A request is admitted, or it only reads the secret and is no success. -/
theorem handleHttp_admitted {r : Except Exn Response}
    (h : Steps env.service (handleHttp rt requestId event) s r es t) :
    Admitted rt env event s ∨
      (∀ e ∈ es, e.call = secretRead rt) ∧ ∀ response, r = .ok response → response.statusCode ≠ 200 := by
  obtain ⟨v,u,xs,ys,h1,h2,rfl⟩ := h.bind_attempt
  have hxs : ∀ e ∈ xs, e.call = secretRead rt := signingSecret_only rt h1
  have hfailure : ∀ message, Steps env.service (pure (failure 503 message) : Program Exn Response) u r ys t →
      (∀ e ∈ xs ++ ys, e.call = secretRead rt) ∧ ∀ response, r = .ok response → response.statusCode ≠ 200 := by
    intro message hp
    obtain ⟨rfl,rfl,-⟩ := Steps.pure_iff.mp hp
    rw [List.append_nil]
    refine ⟨hxs,?_⟩
    rintro _ ⟨⟩
    exact (by decide : (503 : ℕ) ≠ 200)
  cases v with
  | error x => exact Or.inr (hfailure _ h2)
  | ok secret =>
    dsimp only at h2
    split at h2
    · exact Or.inr (hfailure _ h2)
    · rename_i hconfigured
      rcases handleRequest_admitted h2 with hauth | ⟨rfl,hr⟩
      · exact Or.inl ⟨secret,u,h1.1,hconfigured,hauth⟩
      · rw [List.append_nil]
        exact Or.inr ⟨hxs,hr⟩

/-- What an HTTP event does is done for an admitted request. -/
theorem lambdaHandler_admitted {r : Except Exn Reply} (hhttp : event.get (text "requestContext") ≠ none)
    (h : Steps env.service (lambdaHandler rt requestId event) s r es t) :
    Admitted rt env event s ∨ (∀ e ∈ es, e.call = secretRead rt) ∧
      ∀ response, r = .ok (.http response) → response.statusCode ≠ 200 := by
  rw [lambdaHandler] at h
  split at h
  · exact absurd (by assumption) hhttp
  · rcases h.bind_cases with ⟨response,u,xs,ys,h1,h2,rfl⟩ | ⟨x,h1,rfl⟩
    · obtain ⟨rfl,rfl,-⟩ := Steps.pure_iff.mp h2
      rw [List.append_nil]
      rcases handleHttp_admitted h1 with h | ⟨hes,hr⟩
      · exact Or.inl h
      · refine Or.inr ⟨hes,?_⟩
        rintro _ ⟨⟩
        exact hr response rfl
    · rcases handleHttp_admitted h1 with h | ⟨hes,-⟩
      · exact Or.inl h
      · exact Or.inr ⟨hes,by rintro _ ⟨⟩⟩

end

end ShardVPN.Handler
