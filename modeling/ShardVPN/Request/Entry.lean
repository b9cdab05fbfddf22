import ShardVPN.Auth.Gate
import ShardVPN.Request.Down
import ShardVPN.Request.Up

/-! # One invocation

An invocation is a sweep, a request that is turned away after at most a read of the
secret, or an authenticated request, whose outcome is answered by one response.
-/
namespace ShardVPN.Handler
open Effect Settings

def asksUp (body : Dict) : Prop := body.get (text "action") = some (.str (text "up"))
def asksDown (body : Dict) : Prop := body.get (text "action") = some (.str (text "down"))
def asksStatus (body : Dict) : Prop := body.get (text "action") = some (.str (text "status"))

instance : DecidablePred asksUp := fun body =>
  inferInstanceAs (Decidable (body.get (text "action") = some (.str (text "up"))))
instance : DecidablePred asksDown := fun body =>
  inferInstanceAs (Decidable (body.get (text "action") = some (.str (text "down"))))

/-- The response to the outcome of an action. -/
def answerOf (requestId : Text) : Except Exn Response → Response
  | .ok response => response
  | .error (.pointerUnavailable _) => failure 503 (text "cannot determine current state")
  | .error _ => respond 500 [(text "error",.str (text "internal")),(text "request_id",.str requestId)]

theorem answerOf_success {requestId : Text} {r : Except Exn Response} (h : (answerOf requestId r).statusCode = 200) :
    r = .ok (answerOf requestId r) := by
  cases r with
  | ok response => rfl
  | error x => cases x <;> cases h

/-- How an invocation runs from a world. -/
inductive Handled (rt : Runtime) (env : Env) (requestId : Text) (event : Dict) (w : World) :
    Except Exn Reply → List Event → Prop
  | swept {now : Time.WallClock} {summary : Watchdog.Summary} {u t : State} {es : List Event} :
      event.get (text "requestContext") = none → u.world = w →
      Steps env.service (Watchdog.sweep rt now.toDateTime) u (.ok summary) es t →
      Handled rt env requestId event w (.ok (.swept summary)) es
  | refused {r : Except Exn Reply} {es : List Event} : (∀ e ∈ es, e.call.reads = true) →
      (∀ response, r = .ok (.http response) → response.statusCode ≠ 200) →
      Handled rt env requestId event w r es
  | performed {body : Dict} {r : Except Exn Response} {u t : State} {xs ys : List Event} :
      requestBody event = some body → (∀ e ∈ xs, e.call.reads = true) → u.world = w →
      Steps env.service (perform rt body) u r ys t →
      Handled rt env requestId event w (.ok (.http (answerOf requestId r))) (xs ++ ys)

section
variable {rt : Runtime} {env : Env} {requestId : Text} {event : Dict} {s t : State} {es : List Event}

theorem status_quiet : Quiet (status rt) :=
  .bind (readPointer_frugal _ _).quiet fun _ => .bind (describe_frugal _).quiet fun _ => .pure _

theorem perform_up {body : Dict} (h : asksUp body) : perform rt body = up rt body := by
  unfold asksUp at h
  unfold perform
  rw [if_pos h]

theorem perform_down {body : Dict} (h : asksDown body) : perform rt body = down rt := by
  unfold asksDown at h
  unfold perform
  rw [h,if_neg (by decide),if_pos rfl]

theorem perform_cases {body : Dict} {r : Except Exn Response} (h : Steps env.service (perform rt body) s r es t) :
    asksUp body ∧ UpRun rt env body s.world r es ∨ asksDown body ∧ DownRun rt s.world r es ∨
      ¬asksUp body ∧ ¬asksDown body ∧ ∀ e ∈ es, e.call.quiet = true := by
  rw [perform] at h
  split at h
  · exact Or.inl ⟨by assumption,up_cases h⟩
  · split at h
    · exact Or.inr (Or.inl ⟨by assumption,down_cases h⟩)
    · refine Or.inr (Or.inr ⟨by assumption,by assumption,?_⟩)
      split at h
      · exact status_quiet h
      · obtain ⟨-,rfl,-⟩ := Steps.pure_iff.mp h
        simp

theorem dispatch_cases {body : Dict} {r : Except Empty Response}
    (h : Steps env.service (dispatch rt requestId body) s r es t) :
    ∃ v, r = .ok (answerOf requestId v) ∧ Steps env.service (perform rt body) s v es t := by
  obtain ⟨v,u,xs,ys,h1,h2,rfl⟩ := h.bind_attempt
  have hpure : r = .ok (answerOf requestId v) ∧ ys = [] ∧ t = u := by
    cases v with
    | ok response => exact Steps.pure_iff.mp h2
    | error x => cases x <;> exact Steps.pure_iff.mp h2
  obtain ⟨hr,rfl,rfl⟩ := hpure
  exact ⟨v,hr,by rwa [List.append_nil]⟩

theorem authenticate_only {Q : Call → Prop} (secret : Text) : Only Q (authenticate rt event secret) :=
  .bind (ofExcept_only _) fun _ => .bind now_only fun _ => ofExcept_only _

theorem Handled.of_request {secret : Text} {r : Except Exn Response}
    (h : Steps env.service (handleRequest rt requestId event secret) s r es t) :
    Handled rt env requestId event s.world (r.map Reply.http) es := by
  obtain ⟨v,u,xs,ys,h1,h2,rfl⟩ := h.bind_attempt
  obtain rfl : xs = [] := List.eq_nil_iff_forall_not_mem.mpr (authenticate_only (Q := fun _ => False) secret h1)
  have hw : u.world = s.world := h1.world
  cases v with
  | error x =>
    cases x with
    | authError =>
      obtain ⟨rfl,rfl,-⟩ := Steps.pure_iff.mp h2
      refine .refused (by simp) ?_
      rintro _ ⟨⟩
      decide
    | _ =>
      obtain ⟨rfl,rfl,-⟩ := Steps.throw_iff.mp h2
      exact .refused (by simp) (by rintro _ ⟨⟩)
  | ok _ =>
    cases hb : requestBody event with
    | none =>
      dsimp only at h2
      rw [hb] at h2
      obtain ⟨rfl,rfl,-⟩ := Steps.pure_iff.mp h2
      refine .refused (by simp) ?_
      rintro _ ⟨⟩
      decide
    | some body =>
      dsimp only at h2
      rw [hb] at h2
      obtain ⟨response,rfl,h3⟩ := Steps.total_iff.mp h2
      obtain ⟨v,hv,h4⟩ := dispatch_cases h3
      obtain rfl := Except.ok.inj hv
      exact (.performed hb (by simp) hw h4 : Handled _ _ _ _ _ _ ([] ++ _))

theorem Handled.prepend {w : World} {r : Except Exn Reply} {xs : List Event}
    (hxs : ∀ e ∈ xs, e.call.reads = true) (h : Handled rt env requestId event w r es) :
    Handled rt env requestId event w r (xs ++ es) ∨ ∃ summary, r = .ok (.swept summary) := by
  cases h with
  | swept _ _ _ => exact Or.inr ⟨_,rfl⟩
  | refused hes hr => exact Or.inl (.refused (fun e he => (List.mem_append.mp he).elim (hxs e) (hes e)) hr)
  | performed hb hys hw hp =>
    rw [← List.append_assoc]
    exact Or.inl (.performed hb (fun e he => (List.mem_append.mp he).elim (hxs e) (hys e)) hw hp)

theorem Handled.of_http {r : Except Exn Response}
    (h : Steps env.service (handleHttp rt requestId event) s r es t) :
    Handled rt env requestId event s.world (r.map Reply.http) es := by
  obtain ⟨v,u,xs,ys,h1,h2,rfl⟩ := h.bind_attempt
  have hxs : ∀ e ∈ xs, e.call.reads = true := by
    intro e he
    rw [signingSecret_only rt h1 e he]
    rfl
  have hw : u.world = s.world := by rw [h1.world,replay_reads env hxs]
  have hfailure : ∀ message, Steps env.service (pure (failure 503 message) : Program Exn Response) u r ys t →
      Handled rt env requestId event s.world (r.map Reply.http) (xs ++ ys) := by
    intro message hp
    obtain ⟨rfl,rfl,-⟩ := Steps.pure_iff.mp hp
    rw [List.append_nil]
    refine .refused hxs ?_
    rintro _ ⟨⟩
    exact (by decide : (503 : ℕ) ≠ 200)
  cases v with
  | error x => exact hfailure _ h2
  | ok secret =>
    dsimp only at h2
    split at h2
    · exact hfailure _ h2
    · have hrequest := Handled.of_request h2
      rw [hw] at hrequest
      rcases hrequest.prepend hxs with h | ⟨summary,hs⟩
      · exact h
      · cases r <;> cases hs

/-- Every invocation runs in one of the three ways. -/
theorem lambdaHandler_cases {r : Except Exn Reply}
    (h : Steps env.service (lambdaHandler rt requestId event) s r es t) :
    Handled rt env requestId event s.world r es := by
  rw [lambdaHandler] at h
  split at h
  · rename_i hcontext
    rcases h.bind_cases with ⟨now,u,xs,ys,h1,h2,rfl⟩ | ⟨x,h1,-⟩
    · obtain ⟨-,rfl,hu⟩ := now_reply h1
      have hw : u.world = s.world := by rw [hu]
      obtain ⟨summary,v,xs,zs,h3,h4,rfl⟩ := h2.bind_lifted
      obtain ⟨rfl,rfl,-⟩ := Steps.pure_iff.mp h4
      rw [List.nil_append,List.append_nil]
      exact .swept hcontext hw h3
    · cases (now_reply h1).1
  · rcases h.bind_cases with ⟨response,u,xs,ys,h1,h2,rfl⟩ | ⟨x,h1,rfl⟩
    · obtain ⟨rfl,rfl,-⟩ := Steps.pure_iff.mp h2
      rw [List.append_nil]
      exact Handled.of_http h1
    · exact Handled.of_http h1

end

end ShardVPN.Handler
