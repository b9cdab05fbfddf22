import ShardVPN.Effect.Action

/-! # Executions of an action and the events they add

`Steps σ m s r es t` says that `m`, started in `s`, ends with `r` in `t` after
exactly the events `es`. The rules invert an execution along the program, and
the frame rules carry a relation on worlds across all events of a kind.
-/
namespace ShardVPN.Effect
open Effect.Action
variable {Call : Type} {Resp : Call → Type} {W P P' ε X Y α β : Type}
variable {σ : Service Call Resp W ε}

def Steps (σ : Service Call Resp W ε) (m : Action Call Resp W P ε X α) (s : State Call W P ε)
    (r : Except X α) (es : List (Event Call ε)) (t : State Call W P ε) : Prop :=
  m.exec σ s = (r,t) ∧ t.trace = s.trace ++ es

/-- The events an execution adds to the trace it starts from. -/
def Action.events (m : Action Call Resp W P ε X α) (σ : Service Call Resp W ε)
    (s : State Call W P ε) : List (Event Call ε) := (m.exec σ s).2.trace.drop s.trace.length

/-- Every action has exactly one execution from every state. -/
theorem Action.steps_exec (m : Action Call Resp W P ε X α) (σ : Service Call Resp W ε)
    (s : State Call W P ε) : Steps σ m s (m.exec σ s).1 (m.events σ s) (m.exec σ s).2 := by
  obtain ⟨es,he,-⟩ := m.exec_extends σ s
  exact ⟨rfl,by simp [Action.events,he]⟩

theorem Steps.world {m : Action Call Resp W P ε X α} {s t : State Call W P ε} {r : Except X α}
    {es : List (Event Call ε)} (h : Steps σ m s r es t) : t.world = σ.replay s.world es := by
  obtain ⟨xs,hx,hw⟩ := m.exec_extends σ s
  rw [h.1] at hx hw
  rw [hw,List.append_cancel_left (hx.symm.trans h.2)]

theorem Steps.pure_iff {a : α} {s t : State Call W P ε} {r : Except X α} {es : List (Event Call ε)} :
    Steps σ (Pure.pure a : Action Call Resp W P ε X α) s r es t ↔ r = .ok a ∧ es = [] ∧ t = s := by
  constructor
  · rintro ⟨h,ht⟩
    cases h
    exact ⟨rfl,by simpa using ht,rfl⟩
  · rintro ⟨rfl,rfl,rfl⟩
    exact ⟨rfl,by simp⟩

theorem Steps.throw_iff {x : X} {s t : State Call W P ε} {r : Except X α} {es : List (Event Call ε)} :
    Steps σ (Action.throw x : Action Call Resp W P ε X α) s r es t ↔ r = .error x ∧ es = [] ∧ t = s := by
  constructor
  · rintro ⟨h,ht⟩
    cases h
    exact ⟨rfl,by simpa using ht,rfl⟩
  · rintro ⟨rfl,rfl,rfl⟩
    exact ⟨rfl,by simp⟩

/-- An execution of a sequence stops at an exception of its first part or runs
both parts, one after the other. -/
theorem Steps.bind_cases {m : Action Call Resp W P ε X α} {f : α → Action Call Resp W P ε X β}
    {s t : State Call W P ε} {r : Except X β} {es : List (Event Call ε)} (h : Steps σ (m >>= f) s r es t) :
    (∃ a u xs ys, Steps σ m s (.ok a) xs u ∧ Steps σ (f a) u r ys t ∧ es = xs ++ ys) ∨
      ∃ x, Steps σ m s (.error x) es t ∧ r = .error x := by
  obtain ⟨he,ht⟩ := h
  have hm := m.steps_exec σ s
  rcases hx : m.exec σ s with ⟨x | a,u⟩
  · rw [exec_bind_error hx] at he
    cases he
    exact Or.inr ⟨x,⟨hx,ht⟩,rfl⟩
  · rw [exec_bind_ok hx] at he
    rw [hx] at hm
    have hf := (f a).steps_exec σ u
    rw [he] at hf
    refine Or.inl ⟨a,u,_,_,hm,hf,List.append_cancel_left (ht.symm.trans ?_)⟩
    rw [hf.2,hm.2,List.append_assoc]

theorem Steps.attempt_iff {m : Action Call Resp W P ε X α} {s t : State Call W P ε}
    {r : Except Y (Except X α)} {es : List (Event Call ε)} :
    Steps σ m.attempt s r es t ↔ ∃ v, r = .ok v ∧ Steps σ m s v es t := by
  constructor
  · rintro ⟨h,ht⟩
    cases h
    exact ⟨_,rfl,rfl,ht⟩
  · rintro ⟨v,rfl,h,ht⟩
    refine ⟨?_,ht⟩
    change (Except.ok (m.exec σ s).1,(m.exec σ s).2) = _
    rw [h]

theorem Steps.total_iff {m : Action Call Resp W P ε Empty α} {s t : State Call W P ε}
    {r : Except X α} {es : List (Event Call ε)} :
    Steps σ m.total s r es t ↔ ∃ a, r = .ok a ∧ Steps σ m s (.ok a) es t := by
  rcases hm : m.exec σ s with ⟨x | a,u⟩
  · exact x.elim
  have hexec : (m.total : Action Call Resp W P ε X α).exec σ s = (.ok a,u) := exec_total hm
  constructor
  · rintro ⟨h,ht⟩
    cases hexec.symm.trans h
    exact ⟨a,rfl,hm,ht⟩
  · rintro ⟨b,rfl,h,ht⟩
    cases hm.symm.trans h
    exact ⟨hexec,ht⟩

/-- After an attempt the sequence always goes on. -/
theorem Steps.bind_attempt {m : Action Call Resp W P ε X α}
    {f : Except X α → Action Call Resp W P ε Y β} {s t : State Call W P ε} {r : Except Y β}
    {es : List (Event Call ε)} (h : Steps σ (m.attempt >>= f) s r es t) :
    ∃ v u xs ys, Steps σ m s v xs u ∧ Steps σ (f v) u r ys t ∧ es = xs ++ ys := by
  rcases h.bind_cases with ⟨v,u,xs,ys,h1,h2,he⟩ | ⟨x,h1,-⟩
  · obtain ⟨w,hw,hm⟩ := Steps.attempt_iff.mp h1
    cases hw
    exact ⟨v,u,xs,ys,hm,h2,he⟩
  · obtain ⟨w,hw,-⟩ := Steps.attempt_iff.mp h1
    cases hw

/-- After an action that cannot raise the sequence always goes on. -/
theorem Steps.bind_lifted {m : Action Call Resp W P ε Empty α} {f : α → Action Call Resp W P ε X β}
    {s t : State Call W P ε} {r : Except X β} {es : List (Event Call ε)}
    (h : Steps σ (m.total >>= f) s r es t) :
    ∃ a u xs ys, Steps σ m s (.ok a) xs u ∧ Steps σ (f a) u r ys t ∧ es = xs ++ ys := by
  rcases h.bind_cases with ⟨a,u,xs,ys,h1,h2,he⟩ | ⟨x,h1,-⟩
  · obtain ⟨b,hb,hm⟩ := Steps.total_iff.mp h1
    cases hb
    exact ⟨a,u,xs,ys,hm,h2,he⟩
  · obtain ⟨b,hb,-⟩ := Steps.total_iff.mp h1
    cases hb

/-- Where nothing can raise, a sequence runs both its parts. -/
theorem Steps.bind_total {m : Action Call Resp W P ε Empty α} {f : α → Action Call Resp W P ε Empty β}
    {s t : State Call W P ε} {r : Except Empty β} {es : List (Event Call ε)}
    (h : Steps σ (m >>= f) s r es t) :
    ∃ a u xs ys, Steps σ m s (.ok a) xs u ∧ Steps σ (f a) u r ys t ∧ es = xs ++ ys := by
  rcases h.bind_cases with h | ⟨x,-⟩
  · exact h
  · cases x

/-- A sequence that returns runs both its parts. -/
theorem Steps.bind_ok {m : Action Call Resp W P ε X α} {f : α → Action Call Resp W P ε X β}
    {s t : State Call W P ε} {b : β} {es : List (Event Call ε)} (h : Steps σ (m >>= f) s (.ok b) es t) :
    ∃ a u xs ys, Steps σ m s (.ok a) xs u ∧ Steps σ (f a) u (.ok b) ys t ∧ es = xs ++ ys := by
  rcases h.bind_cases with h | ⟨x,-,hx⟩
  · exact h
  · cases hx

theorem Steps.getProc_iff {s t : State Call W P ε} {r : Except X P} {es : List (Event Call ε)} :
    Steps σ (getProc : Action Call Resp W P ε X P) s r es t ↔ r = .ok s.proc ∧ es = [] ∧ t = s := by
  constructor
  · rintro ⟨h,ht⟩
    cases h
    exact ⟨rfl,by simpa using ht,rfl⟩
  · rintro ⟨rfl,rfl,rfl⟩
    exact ⟨rfl,by simp⟩

theorem Steps.setProc_iff {p : P} {s t : State Call W P ε} {r : Except X Unit}
    {es : List (Event Call ε)} :
    Steps σ (setProc p : Action Call Resp W P ε X Unit) s r es t ↔
      r = .ok () ∧ es = [] ∧ t = { s with proc := p } := by
  constructor
  · rintro ⟨h,ht⟩
    cases h
    exact ⟨rfl,by simpa using ht,rfl⟩
  · rintro ⟨rfl,rfl,rfl⟩
    exact ⟨rfl,by simp⟩

section Calls
variable [DecidableEq Call]

/-- The ways an occurrence of a call can end in an error; the flag tells whether
the call took effect nevertheless. -/
inductive Failure (σ : Service Call Resp W ε) (c : Call) (n : ℕ) (w : W) : ε → Bool → Prop
  | rejected {e : ε} : σ.fault c n = .none → σ.answer c n w = .error e → Failure σ c n w e false
  | refused {e : ε} : σ.fault c n = .refused e → Failure σ c n w e false
  | lost {e : ε} : σ.fault c n = .lost e → Failure σ c n w e true

theorem Steps.call_cases {raise : ε → X} {c : Call} {s t : State Call W P ε} {r : Except X (Resp c)}
    {es : List (Event Call ε)} (h : Steps σ (call raise c) s r es t) : t.proc = s.proc ∧
    ((∃ a, r = .ok a ∧ es = [⟨c,none,true⟩] ∧ σ.fault c (occurrences c s.trace) = .none ∧
        σ.answer c (occurrences c s.trace) s.world = .ok a) ∨
      ∃ e b, r = .error (raise e) ∧ es = [⟨c,some e,b⟩] ∧
        Failure σ c (occurrences c s.trace) s.world e b) := by
  obtain ⟨he,ht⟩ := h
  simp only [call] at he
  cases hf : σ.fault c (occurrences c s.trace) with
  | none =>
    cases ha : σ.answer c (occurrences c s.trace) s.world with
    | ok a =>
      simp only [hf,ha] at he
      cases he
      exact ⟨rfl,Or.inl ⟨a,rfl,(List.append_cancel_left ht).symm,rfl,rfl⟩⟩
    | error e =>
      simp only [hf,ha] at he
      cases he
      exact ⟨rfl,Or.inr ⟨e,false,rfl,(List.append_cancel_left ht).symm,.rejected hf ha⟩⟩
  | refused e =>
    simp only [hf] at he
    cases he
    exact ⟨rfl,Or.inr ⟨e,false,rfl,(List.append_cancel_left ht).symm,.refused hf⟩⟩
  | lost e =>
    simp only [hf] at he
    cases he
    exact ⟨rfl,Or.inr ⟨e,true,rfl,(List.append_cancel_left ht).symm,.lost hf⟩⟩

/-- What the next occurrence of a call gets back after the calls of a trace. -/
def Service.reply (σ : Service Call Resp W ε) (before : List (Event Call ε)) (w : W) (c : Call) :
    Except ε (Resp c) :=
  match σ.fault c (occurrences c before) with
  | .none => σ.answer c (occurrences c before) w
  | .refused e => .error e
  | .lost e => .error e

theorem Steps.call_reply {raise : ε → X} {c : Call} {s t : State Call W P ε} {r : Except X (Resp c)}
    {es : List (Event Call ε)} (h : Steps σ (call raise c) s r es t) :
    t.proc = s.proc ∧ r = (σ.reply s.trace s.world c).mapError raise ∧
      ∃ error effective, es = [⟨c,error,effective⟩] := by
  obtain ⟨hp,⟨a,rfl,he,hf,ha⟩ | ⟨e,b,rfl,he,hf⟩⟩ := h.call_cases
  · refine ⟨hp,?_,none,true,he⟩
    rw [Service.reply,hf,ha]
    rfl
  · refine ⟨hp,?_,some e,b,he⟩
    cases hf with
    | rejected hf ha =>
      rw [Service.reply,hf,ha]
      rfl
    | refused hf =>
      rw [Service.reply,hf]
      rfl
    | lost hf =>
      rw [Service.reply,hf]
      rfl

theorem occurrences_append {c : Call} {xs ys : List (Event Call ε)} (h : ∀ e ∈ ys, e.call ≠ c) :
    occurrences c (xs ++ ys) = occurrences c xs := by
  have hys : ys.countP (fun e => e.call = c) = 0 := List.countP_eq_zero.mpr fun e he => by simpa using h e he
  unfold occurrences
  rw [List.countP_append,hys,Nat.add_zero]

/-- The next occurrence of a call after the calls of a trace. -/
def Service.event (σ : Service Call Resp W ε) (before : List (Event Call ε)) (w : W) (c : Call) : Event Call ε :=
  match σ.fault c (occurrences c before) with
  | .none => match σ.answer c (occurrences c before) w with
    | .ok _ => ⟨c,none,true⟩
    | .error e => ⟨c,some e,false⟩
  | .refused e => ⟨c,some e,false⟩
  | .lost e => ⟨c,some e,true⟩

@[simp] theorem Service.event_call (before : List (Event Call ε)) (w : W) (c : Call) :
    (σ.event before w c).call = c := by
  unfold Service.event
  cases σ.fault c (occurrences c before) with
  | none => cases σ.answer c (occurrences c before) w <;> rfl
  | refused => rfl
  | lost => rfl

/-- A reply without an error is the answer to a call that succeeded. -/
theorem Service.reply_ok {before : List (Event Call ε)} {w : W} {c : Call} {a : Resp c}
    (h : σ.reply before w c = .ok a) :
    σ.answer c (occurrences c before) w = .ok a ∧ σ.event before w c = ⟨c,none,true⟩ := by
  unfold Service.reply at h
  unfold Service.event
  cases hf : σ.fault c (occurrences c before) with
  | none =>
    simp only [hf] at h
    simp only [h,and_self]
  | refused e =>
    simp only [hf] at h
    cases h
  | lost e =>
    simp only [hf] at h
    cases h

/-- A reply with an error is a failure of the call. -/
theorem Service.reply_error {before : List (Event Call ε)} {w : W} {c : Call} {e : ε}
    (h : σ.reply before w c = .error e) :
    ∃ b, Failure σ c (occurrences c before) w e b ∧ σ.event before w c = ⟨c,some e,b⟩ := by
  unfold Service.reply at h
  unfold Service.event
  cases hf : σ.fault c (occurrences c before) with
  | none =>
    simp only [hf] at h
    simp only [h]
    exact ⟨false,.rejected hf h,rfl⟩
  | refused x =>
    simp only [hf] at h
    cases h
    exact ⟨false,.refused hf,rfl⟩
  | lost x =>
    simp only [hf] at h
    cases h
    exact ⟨true,.lost hf,rfl⟩

theorem Service.event_reply (σ : Service Call Resp W ε) (before : List (Event Call ε)) (w : W) (c : Call) :
    ∃ error effective, σ.event before w c = ⟨c,error,effective⟩ ∧
      (error = none → ∃ a, σ.reply before w c = .ok a) := by
  cases hreply : σ.reply before w c with
  | ok a => exact ⟨none,true,(Service.reply_ok hreply).2,fun _ => ⟨a,rfl⟩⟩
  | error e =>
    obtain ⟨b,-,hevent⟩ := Service.reply_error hreply
    exact ⟨some e,b,hevent,nofun⟩

theorem Service.event_succeeded (before : List (Event Call ε)) (w : W) (c : Call) :
    (σ.event before w c).succeeded = (σ.reply before w c).toBool := by
  cases hreply : σ.reply before w c with
  | ok a =>
    rw [(Service.reply_ok hreply).2]
    rfl
  | error e =>
    obtain ⟨b,-,hevent⟩ := Service.reply_error hreply
    rw [hevent]
    rfl

theorem Service.event_effective {before : List (Event Call ε)} {w : W} {c : Call}
    (h : (σ.event before w c).succeeded = true) : (σ.event before w c).effective = true := by
  rw [Service.event_succeeded] at h
  cases hreply : σ.reply before w c with
  | ok a => rw [(Service.reply_ok hreply).2]
  | error e =>
    rw [hreply] at h
    cases h

theorem Steps.call_event {raise : ε → X} {c : Call} {s t : State Call W P ε} {r : Except X (Resp c)}
    {es : List (Event Call ε)} (h : Steps σ (call raise c) s r es t) : es = [σ.event s.trace s.world c] := by
  obtain ⟨-,⟨a,-,rfl,hf,ha⟩ | ⟨e,b,-,rfl,hf⟩⟩ := h.call_cases
  · unfold Service.event
    rw [hf,ha]
  · unfold Service.event
    cases hf with
    | rejected hf ha => rw [hf,ha]
    | refused hf => rw [hf]
    | lost hf => rw [hf]

/-- A reply depends on the fault of the call and its answer. -/
theorem Service.reply_congr {τ : Service Call Resp W ε} {before : List (Event Call ε)} {v w : W} {c : Call}
    (hfault : τ.fault c = σ.fault c) (hanswer : ∀ n, τ.answer c n w = σ.answer c n v) :
    τ.reply before w c = σ.reply before v c := by
  unfold Service.reply
  rw [hfault,hanswer]

theorem Service.event_congr {τ : Service Call Resp W ε} {before : List (Event Call ε)} {v w : W} {c : Call}
    (hfault : τ.fault c = σ.fault c) (hanswer : ∀ n, τ.answer c n w = σ.answer c n v) :
    τ.event before w c = σ.event before v c := by
  unfold Service.event
  rw [hfault,hanswer]

/-- Only earlier occurrences of the same call matter for a reply. -/
theorem Service.reply_append (σ : Service Call Resp W ε) {c : Call} {xs ys : List (Event Call ε)} (w : W)
    (h : ∀ e ∈ ys, e.call ≠ c) : σ.reply (xs ++ ys) w c = σ.reply xs w c := by
  unfold Service.reply
  rw [occurrences_append h]

theorem Service.event_append (σ : Service Call Resp W ε) {c : Call} {xs ys : List (Event Call ε)} (w : W)
    (h : ∀ e ∈ ys, e.call ≠ c) : σ.event (xs ++ ys) w c = σ.event xs w c := by
  unfold Service.event
  rw [occurrences_append h]

end Calls

/-- Every call the action can make satisfies `Q`. -/
def Only (Q : Call → Prop) (m : Action Call Resp W P ε X α) : Prop :=
  ∀ ⦃σ s r es t⦄, Steps σ m s r es t → ∀ e ∈ es, Q e.call

section Only
variable {Q : Call → Prop}

theorem Only.pure (a : α) : Only Q (Pure.pure a : Action Call Resp W P ε X α) := by
  intro σ s r es t h
  obtain ⟨-,rfl,-⟩ := Steps.pure_iff.mp h
  simp

theorem Only.throw (x : X) : Only Q (Action.throw x : Action Call Resp W P ε X α) := by
  intro σ s r es t h
  obtain ⟨-,rfl,-⟩ := Steps.throw_iff.mp h
  simp

theorem Only.bind {m : Action Call Resp W P ε X α} {f : α → Action Call Resp W P ε X β}
    (hm : Only Q m) (hf : ∀ a, Only Q (f a)) : Only Q (m >>= f) := by
  intro σ s r es t h
  rcases h.bind_cases with ⟨a,u,xs,ys,hx,hy,rfl⟩ | ⟨x,hx,-⟩
  · intro e he
    rcases List.mem_append.mp he with he | he
    · exact hm hx e he
    · exact hf a hy e he
  · exact hm hx

theorem Only.attempt {m : Action Call Resp W P ε X α} (hm : Only Q m) :
    Only Q (m.attempt : Action Call Resp W P ε Y (Except X α)) := by
  intro σ s r es t h
  obtain ⟨v,-,hv⟩ := Steps.attempt_iff.mp h
  exact hm hv

theorem Only.total {m : Action Call Resp W P ε Empty α} (hm : Only Q m) :
    Only Q (m.total : Action Call Resp W P ε X α) := by
  intro σ s r es t h
  obtain ⟨a,-,ha⟩ := Steps.total_iff.mp h
  exact hm ha

theorem Only.getProc : Only Q (Action.getProc : Action Call Resp W P ε X P) := by
  intro σ s r es t h
  obtain ⟨-,rfl,-⟩ := Steps.getProc_iff.mp h
  simp

theorem Only.setProc (p : P) : Only Q (Action.setProc p : Action Call Resp W P ε X Unit) := by
  intro σ s r es t h
  obtain ⟨-,rfl,-⟩ := Steps.setProc_iff.mp h
  simp

theorem Only.call [DecidableEq Call] {raise : ε → X} {c : Call} (hc : Q c) :
    Only Q (Action.call raise c : Action Call Resp W P ε X (Resp c)) := by
  intro σ s r es t h
  rcases h.call_cases.2 with ⟨a,-,rfl,-⟩ | ⟨e,b,-,rfl,-⟩ <;> simpa using hc

theorem Only.mono {Q' : Call → Prop} {m : Action Call Resp W P ε X α} (hm : Only Q m)
    (h : ∀ c, Q c → Q' c) : Only Q' m := fun _ _ _ _ _ hs e he => h _ (hm hs e he)

end Only

/-- Every event the action adds under the service satisfies `Q`. -/
def Emits (σ : Service Call Resp W ε) (Q : Event Call ε → Prop) (m : Action Call Resp W P ε X α) : Prop :=
  ∀ ⦃s r es t⦄, Steps σ m s r es t → ∀ e ∈ es, Q e

section Emits
variable {Q : Event Call ε → Prop}

theorem Only.emits {C : Call → Prop} {m : Action Call Resp W P ε X α} (hm : Only C m)
    (h : ∀ e : Event Call ε, C e.call → Q e) : Emits σ Q m :=
  fun _ _ _ _ hs e he => h e (hm hs e he)

theorem Emits.pure (a : α) : Emits σ Q (Pure.pure a : Action Call Resp W P ε X α) := by
  intro s r es t h
  obtain ⟨-,rfl,-⟩ := Steps.pure_iff.mp h
  simp

theorem Emits.bind {m : Action Call Resp W P ε X α} {f : α → Action Call Resp W P ε X β}
    (hm : Emits σ Q m) (hf : ∀ a, Emits σ Q (f a)) : Emits σ Q (m >>= f) := by
  intro s r es t h
  rcases h.bind_cases with ⟨a,u,xs,ys,hx,hy,rfl⟩ | ⟨x,hx,-⟩
  · intro e he
    rcases List.mem_append.mp he with he | he
    · exact hm hx e he
    · exact hf a hy e he
  · exact hm hx

theorem Emits.attempt {m : Action Call Resp W P ε X α} (hm : Emits σ Q m) :
    Emits σ Q (m.attempt : Action Call Resp W P ε Y (Except X α)) := by
  intro s r es t h
  obtain ⟨v,-,hv⟩ := Steps.attempt_iff.mp h
  exact hm hv

theorem Emits.call [DecidableEq Call] {raise : ε → X} {c : Call} (hc : ∀ before w, Q (σ.event before w c)) :
    Emits σ Q (Action.call raise c : Action Call Resp W P ε X (Resp c)) := by
  intro s r es t h e he
  rw [h.call_event,List.mem_singleton] at he
  rw [he]
  exact hc _ _

end Emits

/-- Every value the action returns satisfies `P`. -/
def Yields (P : α → Prop) (m : Action Call Resp W P' ε X α) : Prop :=
  ∀ ⦃σ s a es t⦄, Steps σ m s (.ok a) es t → P a

theorem Yields.pure {P : α → Prop} {a : α} (h : P a) :
    Yields P (Pure.pure a : Action Call Resp W P' ε X α) := by
  intro σ s b es t hs
  rwa [Except.ok.inj (Steps.pure_iff.mp hs).1]

theorem Yields.bind {P : β → Prop} {m : Action Call Resp W P' ε X α} {f : α → Action Call Resp W P' ε X β}
    (hf : ∀ a, Yields P (f a)) : Yields P (m >>= f) := by
  intro σ s b es t h
  rcases h.bind_cases with ⟨a,u,xs,ys,-,h2,-⟩ | ⟨x,-,hx⟩
  · exact hf a h2
  · cases hx

/-- An action that raises only after a call of its own has failed. -/
def Settles (m : Action Call Resp W P ε X α) : Prop :=
  ∀ ⦃σ s r es t⦄, Steps σ m s r es t → (∀ e ∈ es, e.succeeded = true) → ∃ a, r = .ok a

theorem Settles.pure (a : α) : Settles (Pure.pure a : Action Call Resp W P ε X α) :=
  fun _ _ _ _ _ h _ => ⟨a,(Steps.pure_iff.mp h).1⟩

theorem Settles.call [DecidableEq Call] (raise : ε → X) (c : Call) :
    Settles (Action.call raise c : Action Call Resp W P ε X (Resp c)) := by
  intro σ s r es t h hes
  rcases h.call_cases.2 with ⟨a,hr,-⟩ | ⟨e,b,-,rfl,-⟩
  · exact ⟨a,hr⟩
  · cases hes _ List.mem_cons_self

theorem Settles.total (m : Action Call Resp W P ε Empty α) :
    Settles (m.total : Action Call Resp W P ε X α) := by
  intro σ s r es t h _
  obtain ⟨a,hr,-⟩ := Steps.total_iff.mp h
  exact ⟨a,hr⟩

/-- Where all calls succeed, a sequence goes on after a part that settles. -/
theorem Steps.bind_settles {m : Action Call Resp W P ε X α} {f : α → Action Call Resp W P ε X β}
    (hm : Settles m) {s t : State Call W P ε} {r : Except X β} {es : List (Event Call ε)}
    (h : Steps σ (m >>= f) s r es t) (hes : ∀ e ∈ es, e.succeeded = true) :
    ∃ a u xs ys, Steps σ m s (.ok a) xs u ∧ Steps σ (f a) u r ys t ∧ es = xs ++ ys := by
  rcases h.bind_cases with h | ⟨x,hx,-⟩
  · exact h
  · obtain ⟨a,ha⟩ := hm hx hes
    cases ha

/-- A reflexive and transitive relation on worlds that holds across every call of
a kind holds across every run of such calls. -/
theorem Service.replay_rel {R : W → W → Prop} (hrefl : ∀ w, R w w)
    (htrans : ∀ u v w, R u v → R v w → R u w) {Q : Call → Prop}
    (hcall : ∀ c w, Q c → R w (σ.effect c w)) {es : List (Event Call ε)}
    (hes : ∀ e ∈ es, Q e.call) (w : W) : R w (σ.replay w es) := by
  induction es generalizing w with
  | nil => exact hrefl w
  | cons e es ih =>
    have hrest := ih (fun e he => hes e (List.mem_cons_of_mem _ he))
    rw [Service.replay_cons]
    split
    · exact htrans _ _ _ (hcall _ _ (hes e List.mem_cons_self)) (hrest _)
    · exact hrest w

/-- The frame rule: an action that makes only calls of a kind relates its worlds. -/
theorem Only.world_rel {R : W → W → Prop} (hrefl : ∀ w, R w w)
    (htrans : ∀ u v w, R u v → R v w → R u w) {Q : Call → Prop}
    (hcall : ∀ c w, Q c → R w (σ.effect c w)) {m : Action Call Resp W P ε X α} (hm : Only Q m)
    {s t : State Call W P ε} {r : Except X α} {es : List (Event Call ε)} (h : Steps σ m s r es t) :
    R s.world t.world := by
  rw [h.world]
  exact Service.replay_rel hrefl htrans hcall (hm h) s.world

end ShardVPN.Effect
