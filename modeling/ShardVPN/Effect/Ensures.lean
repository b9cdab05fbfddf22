import ShardVPN.Effect.Steps

/-! # Invariants and results

A property of world and memory that every step of an action keeps holds where it ends,
and what it returns there meets a condition. There is one rule for each way an action
is put together; the calls of an action need only keep the property where they can.
-/
namespace ShardVPN.Effect
open Effect.Action

variable {Call : Type} {Resp : Call → Type} {W P ε X Y α β : Type}

theorem Yields.throw {post : α → Prop} (x : X) : Yields post (Action.throw x : Action Call Resp W P ε X α) := by
  intro σ s a es t h
  cases (Steps.throw_iff.mp h).1

/-- From a state with the property the action ends in one, and returns what meets the condition. -/
def Ensures (σ : Service Call Resp W ε) (I : W → P → Prop) (m : Action Call Resp W P ε X α) (post : α → Prop) : Prop :=
  ∀ ⦃s r es t⦄, Steps σ m s r es t → I s.world s.proc → I t.world t.proc ∧ ∀ a, r = .ok a → post a

namespace Ensures
variable {σ : Service Call Resp W ε} {I : W → P → Prop} {post : α → Prop} {next : β → Prop}

theorem pure {a : α} (h : post a) : Ensures σ I (Pure.pure a : Action Call Resp W P ε X α) post := by
  intro s r es t hsteps hs
  obtain ⟨rfl,-,rfl⟩ := Steps.pure_iff.mp hsteps
  exact ⟨hs,by rintro _ ⟨⟩; exact h⟩

theorem throw (x : X) : Ensures σ I (Action.throw x : Action Call Resp W P ε X α) post := by
  intro s r es t hsteps hs
  obtain ⟨rfl,-,rfl⟩ := Steps.throw_iff.mp hsteps
  exact ⟨hs,by rintro _ ⟨⟩⟩

theorem bind {m : Action Call Resp W P ε X α} {f : α → Action Call Resp W P ε X β} (hm : Ensures σ I m post)
    (hf : ∀ a, post a → Ensures σ I (f a) next) : Ensures σ I (m >>= f) next := by
  intro s r es t hsteps hs
  rcases hsteps.bind_cases with ⟨a,u,xs,ys,h1,h2,-⟩ | ⟨x,h1,rfl⟩
  · obtain ⟨hu,ha⟩ := hm h1 hs
    exact hf a (ha a rfl) h2 hu
  · exact ⟨(hm h1 hs).1,by rintro _ ⟨⟩⟩

theorem attempt {m : Action Call Resp W P ε X α} (hm : Ensures σ I m post) :
    Ensures σ I (m.attempt : Action Call Resp W P ε Y (Except X α)) (fun r => ∀ a, r = .ok a → post a) := by
  intro s r es t hsteps hs
  obtain ⟨v,rfl,h⟩ := Steps.attempt_iff.mp hsteps
  obtain ⟨ht,hv⟩ := hm h hs
  exact ⟨ht,by rintro _ ⟨⟩; exact hv⟩

theorem total {m : Action Call Resp W P ε Empty α} (hm : Ensures σ I m post) :
    Ensures σ I (m.total : Action Call Resp W P ε X α) post := by
  intro s r es t hsteps hs
  obtain ⟨a,rfl,h⟩ := Steps.total_iff.mp hsteps
  obtain ⟨ht,ha⟩ := hm h hs
  exact ⟨ht,by rintro _ ⟨⟩; exact ha a rfl⟩

/-- A call keeps what its effect keeps, and returns what the service may reply. -/
theorem call [DecidableEq Call] {raise : ε → X} {c : Call} {post : Resp c → Prop}
    (heffect : ∀ w p, I w p → I (σ.effect c w) p)
    (hreply : ∀ before w p a, I w p → σ.reply before w c = .ok a → post a) :
    Ensures σ I (Action.call raise c : Action Call Resp W P ε X (Resp c)) post := by
  intro s r es t hsteps hs
  obtain ⟨hproc,hr,error,effective,rfl⟩ := hsteps.call_reply
  refine ⟨?_,?_⟩
  · rw [hsteps.world,hproc,Service.replay_cons,Service.replay_nil]
    split
    · exact heffect _ _ hs
    · exact hs
  · intro a ha
    refine hreply s.trace s.world s.proc a hs ?_
    rw [hr] at ha
    cases hreply : σ.reply s.trace s.world c with
    | error e =>
      rw [hreply] at ha
      cases ha
    | ok b =>
      rw [hreply] at ha
      have hok : (Except.ok b : Except X (Resp c)) = .ok a := ha
      rw [Except.ok.inj hok]

/-- Calls that keep a property of the world keep it, whatever they are made for. -/
theorem of_only {J : W → Prop} {Q : Call → Prop} {m : Action Call Resp W P ε X α} (hm : Only Q m)
    (hstep : ∀ w c, J w → Q c → J (σ.effect c w)) : Ensures σ (fun w _ => J w) m (fun _ => True) := by
  intro s r es t hsteps hs
  refine ⟨?_,fun _ _ => trivial⟩
  have hes := hm hsteps
  rw [hsteps.world]
  generalize s.world = w at hs
  clear hsteps
  induction es generalizing w with
  | nil => exact hs
  | cons e es ih =>
    rw [Service.replay_cons]
    refine ih (fun f hf => hes f (List.mem_cons_of_mem _ hf)) _ ?_
    split
    · exact hstep w e.call hs (hes e List.mem_cons_self)
    · exact hs

end Ensures

end ShardVPN.Effect
