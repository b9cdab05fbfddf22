import ShardVPN.Effect.Runs
import ShardVPN.Effect.Steps

/-! # Calls permitted where they are made

A trace is permitted when each of its calls meets a condition in the world that the
calls before it left. What every permitted call preserves holds after the trace, and
calls that only depend on a lasting fact are permitted from one look at it.
-/
namespace ShardVPN.Effect
open Effect.Action

variable {Call : Type} {Resp : Call → Type} {W P ε X α β : Type}

/-- The world after an event. -/
def Service.apply (σ : Service Call Resp W ε) (w : W) (e : Event Call ε) : W :=
  if e.effective then σ.effect e.call w else w

/-- Every call of the trace meets the condition in its world. -/
def Service.Permits (σ : Service Call Resp W ε) (G : W → Call → Prop) (w : W) (es : List (Event Call ε)) : Prop :=
  Along σ.apply (fun v e => G v e.call) w es

variable {σ : Service Call Resp W ε} {G : W → Call → Prop}

theorem Service.replay_eq_run (w : W) (es : List (Event Call ε)) : σ.replay w es = run σ.apply w es := rfl

theorem Service.permits_singleton {w : W} {e : Event Call ε} (h : G w e.call) : σ.Permits G w [e] := ⟨h,trivial⟩

theorem Service.permits_append {w : W} {xs ys : List (Event Call ε)} :
    σ.Permits G w (xs ++ ys) ↔ σ.Permits G w xs ∧ σ.Permits G (σ.replay w xs) ys := along_append

/-- Each event of a permitted trace, in the world before it. -/
theorem Service.permits_iff {w : W} {es : List (Event Call ε)} : σ.Permits G w es ↔
    ∀ pre e post, es = pre ++ e :: post → G (σ.replay w pre) e.call := along_iff

/-- What permitted calls preserve holds after the trace. -/
theorem Service.Permits.invariant {I : W → Prop} (hstep : ∀ v c, I v → G v c → I (σ.effect c v)) {w : W}
    {es : List (Event Call ε)} (h : σ.Permits G w es) (hw : I w) : I (σ.replay w es) := by
  rw [Service.replay_eq_run]
  refine Along.invariant ?_ h hw
  intro v e hv hG
  unfold Service.apply
  split
  · exact hstep v e.call hv hG
  · exact hv

/-- A lasting fact that permits every call of a kind permits a trace of such calls. -/
theorem Service.permits_of_stable {I : W → Prop} {Q : Call → Prop} (hstep : ∀ v c, I v → Q c → I (σ.effect c v))
    (hG : ∀ v c, I v → Q c → G v c) {w : W} (hw : I w) {es : List (Event Call ε)} (hes : ∀ e ∈ es, Q e.call) :
    σ.Permits G w es := by
  induction es generalizing w with
  | nil => trivial
  | cons e es ih =>
    have he := hes e List.mem_cons_self
    refine ⟨hG w e.call hw he,ih ?_ fun f hf => hes f (List.mem_cons_of_mem _ hf)⟩
    unfold Service.apply
    split
    · exact hstep w e.call hw he
    · exact hw

/-- Calls that are permitted in every world. -/
theorem Service.permits_of_forall {Q : Call → Prop} (hG : ∀ v c, Q c → G v c) (w : W) {es : List (Event Call ε)}
    (hes : ∀ e ∈ es, Q e.call) : σ.Permits G w es :=
  permits_of_stable (I := fun _ => True) (fun _ _ _ _ => trivial) (fun v c _ => hG v c) trivial hes

/-! ## Permitted actions -/

theorem Only.permits {Q : Call → Prop} {m : Action Call Resp W P ε X α} (hm : Only Q m) (hG : ∀ v c, Q c → G v c)
    {s t : State Call W P ε} {r : Except X α} {es : List (Event Call ε)} (h : Steps σ m s r es t) :
    σ.Permits G s.world es :=
  Service.permits_of_forall hG _ (hm h)

theorem Steps.permits_call [DecidableEq Call] {raise : ε → X} {c : Call} {s t : State Call W P ε}
    {r : Except X (Resp c)} {es : List (Event Call ε)} (h : Steps σ (call raise c) s r es t) (hc : G s.world c) :
    σ.Permits G s.world es := by
  rw [h.call_event]
  apply Service.permits_singleton
  rw [Service.event_call]
  exact hc

/-- A sequence is permitted when its first part is, and what follows is wherever that returns. -/
theorem Steps.permits_bind {m : Action Call Resp W P ε X α} {f : α → Action Call Resp W P ε X β}
    {s t : State Call W P ε} {r : Except X β} {es : List (Event Call ε)} (h : Steps σ (m >>= f) s r es t)
    (hm : ∀ r xs u, Steps σ m s r xs u → σ.Permits G s.world xs)
    (hf : ∀ a xs u ys, Steps σ m s (.ok a) xs u → Steps σ (f a) u r ys t → σ.Permits G u.world ys) :
    σ.Permits G s.world es := by
  rcases h.bind_cases with ⟨a,u,xs,ys,h1,h2,rfl⟩ | ⟨x,h1,-⟩
  · rw [Service.permits_append,← h1.world]
    exact ⟨hm _ _ _ h1,hf a xs u ys h1 h2⟩
  · exact hm _ _ _ h1

theorem Steps.permits_total {m : Action Call Resp W P ε Empty α} {s t : State Call W P ε} {r : Except X α}
    {es : List (Event Call ε)} (h : Steps σ m.total s r es t)
    (hm : ∀ r xs u, Steps σ m s r xs u → σ.Permits G s.world xs) : σ.Permits G s.world es := by
  obtain ⟨a,-,h⟩ := Steps.total_iff.mp h
  exact hm _ es t h

end ShardVPN.Effect
