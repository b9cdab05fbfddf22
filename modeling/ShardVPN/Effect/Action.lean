import Mathlib.Data.List.Basic

/-! # Actions against a faulty service

An action is a deterministic program whose only contact with the outside is a
call. A service decides, for every occurrence of every call, whether it answers,
is refused without effect, or takes effect and still reports an error. Every
action carries the proof that it only extends the trace and that the world it
leaves is the replay of the events it added.
-/
namespace ShardVPN.Effect

/-- What one occurrence of a call does besides being served. -/
inductive Fault (ε : Type)
  | none
  | refused (e : ε)
  | lost (e : ε)
deriving DecidableEq

/-- One call as the caller saw it, and whether the service applied it. -/
structure Event (Call ε : Type) where
  call : Call
  error : Option ε
  effective : Bool
deriving DecidableEq

/-- The outside: faults, answers and effects of calls on a world `W`. -/
structure Service (Call : Type) (Resp : Call → Type) (W ε : Type) where
  fault : Call → ℕ → Fault ε
  answer : (c : Call) → ℕ → W → Except ε (Resp c)
  effect : Call → W → W

/-- The world, the private memory of the program and the calls made so far. -/
structure State (Call W P ε : Type) where
  world : W
  proc : P
  trace : List (Event Call ε)

variable {Call : Type} {Resp : Call → Type} {W P ε X Y α β : Type}

def Event.succeeded (e : Event Call ε) : Bool := e.error.isNone

/-- The world after the effective calls among `es`, in order. -/
def Service.replay (σ : Service Call Resp W ε) (w : W) (es : List (Event Call ε)) : W :=
  es.foldl (fun w e => if e.effective then σ.effect e.call w else w) w

@[simp] theorem Service.replay_nil (σ : Service Call Resp W ε) (w : W) : σ.replay w [] = w := rfl
@[simp] theorem Service.replay_cons (σ : Service Call Resp W ε) (w : W) (e : Event Call ε)
    (es : List (Event Call ε)) :
    σ.replay w (e :: es) = σ.replay (if e.effective then σ.effect e.call w else w) es := rfl
@[simp] theorem Service.replay_append (σ : Service Call Resp W ε) (w : W) (xs ys : List (Event Call ε)) :
    σ.replay w (xs ++ ys) = σ.replay (σ.replay w xs) ys := List.foldl_append

/-- The later state is the earlier one plus the replay of some new events. -/
def Extends (σ : Service Call Resp W ε) (s t : State Call W P ε) : Prop :=
  ∃ es, t.trace = s.trace ++ es ∧ t.world = σ.replay s.world es

theorem Extends.refl (σ : Service Call Resp W ε) (s : State Call W P ε) : Extends σ s s :=
  ⟨[],by simp,rfl⟩

theorem Extends.trans {σ : Service Call Resp W ε} {s t u : State Call W P ε}
    (hst : Extends σ s t) (htu : Extends σ t u) : Extends σ s u := by
  obtain ⟨xs,hx,hwx⟩ := hst
  obtain ⟨ys,hy,hwy⟩ := htu
  exact ⟨xs ++ ys,by rw [hy,hx,List.append_assoc],by rw [hwy,hwx,Service.replay_append]⟩

/-- A program that ends in a value or an exception of type `X`. -/
structure Action (Call : Type) (Resp : Call → Type) (W P ε X α : Type) where
  exec : Service Call Resp W ε → State Call W P ε → Except X α × State Call W P ε
  exec_extends : ∀ σ s, Extends σ s (exec σ s).2

namespace Action

def pure (a : α) : Action Call Resp W P ε X α where
  exec _ s := (.ok a,s)
  exec_extends := Extends.refl

def throw (x : X) : Action Call Resp W P ε X α where
  exec _ s := (.error x,s)
  exec_extends := Extends.refl

def bind (m : Action Call Resp W P ε X α) (f : α → Action Call Resp W P ε X β) :
    Action Call Resp W P ε X β where
  exec σ s := match m.exec σ s with
    | (.ok a,t) => (f a).exec σ t
    | (.error x,t) => (.error x,t)
  exec_extends σ s := by
    have hm := m.exec_extends σ s
    rcases h : m.exec σ s with ⟨_ | a,t⟩
    · simpa [h] using hm
    · simpa [h] using (show Extends σ s t by simpa [h] using hm).trans ((f a).exec_extends σ t)

instance : Monad (Action Call Resp W P ε X) where
  pure := pure
  bind := bind

/-- Run an action and hand its exception over as a value. What is left cannot raise
unless something else does, so the exceptions outside may be of any type. -/
def attempt (m : Action Call Resp W P ε X α) : Action Call Resp W P ε Y (Except X α) where
  exec σ s := (.ok (m.exec σ s).1,(m.exec σ s).2)
  exec_extends := m.exec_extends

/-- An action that cannot raise, used where exceptions are possible. -/
def total (m : Action Call Resp W P ε Empty α) : Action Call Resp W P ε X α where
  exec σ s := match m.exec σ s with
    | (.ok a,t) => (.ok a,t)
  exec_extends σ s := by
    have hm := m.exec_extends σ s
    rcases h : m.exec σ s with ⟨x | a,t⟩
    · exact x.elim
    · simpa [h] using hm

/-- Read the private memory. -/
def getProc : Action Call Resp W P ε X P where
  exec _ s := (.ok s.proc,s)
  exec_extends := Extends.refl

/-- Replace the private memory. -/
def setProc (p : P) : Action Call Resp W P ε X Unit where
  exec _ s := (.ok (),{ s with proc := p })
  exec_extends _ _ := ⟨[],by simp,rfl⟩

section Calls
variable [DecidableEq Call]

/-- How often a call occurs in a trace. -/
def occurrences (c : Call) (es : List (Event Call ε)) : ℕ := es.countP (fun e => e.call = c)

/-- Make one call; its error is lifted into the exceptions of the program. -/
def call (raise : ε → X) (c : Call) : Action Call Resp W P ε X (Resp c) where
  exec σ s :=
    let n := occurrences c s.trace
    match σ.fault c n with
    | .none =>
      match σ.answer c n s.world with
      | .ok r => (.ok r,{ s with world := σ.effect c s.world, trace := s.trace ++ [⟨c,none,true⟩] })
      | .error e => (.error (raise e),{ s with trace := s.trace ++ [⟨c,some e,false⟩] })
    | .refused e => (.error (raise e),{ s with trace := s.trace ++ [⟨c,some e,false⟩] })
    | .lost e => (.error (raise e),
        { s with world := σ.effect c s.world, trace := s.trace ++ [⟨c,some e,true⟩] })
  exec_extends σ s := by
    dsimp only
    cases σ.fault c (occurrences c s.trace) with
    | none =>
      cases σ.answer c (occurrences c s.trace) s.world with
      | ok r => exact ⟨_,rfl,rfl⟩
      | error e => exact ⟨_,rfl,rfl⟩
    | refused e => exact ⟨_,rfl,rfl⟩
    | lost e => exact ⟨_,rfl,rfl⟩

end Calls

end Action

section Exec
variable (σ : Service Call Resp W ε) (s t : State Call W P ε)

@[simp] theorem exec_pure (a : α) : (Pure.pure a : Action Call Resp W P ε X α).exec σ s = (.ok a,s) := rfl
@[simp] theorem exec_throw (x : X) : (Action.throw x : Action Call Resp W P ε X α).exec σ s = (.error x,s) := rfl
@[simp] theorem exec_getProc : (Action.getProc : Action Call Resp W P ε X P).exec σ s = (.ok s.proc,s) := rfl
@[simp] theorem exec_setProc (p : P) :
    (Action.setProc p : Action Call Resp W P ε X Unit).exec σ s = (.ok (),{ s with proc := p }) := rfl
@[simp] theorem exec_attempt (m : Action Call Resp W P ε X α) :
    (m.attempt : Action Call Resp W P ε Y (Except X α)).exec σ s = (.ok (m.exec σ s).1,(m.exec σ s).2) := rfl

variable {σ s t} {m : Action Call Resp W P ε X α} {f : α → Action Call Resp W P ε X β}

theorem exec_bind_ok {a : α} (h : m.exec σ s = (.ok a,t)) : (m >>= f).exec σ s = (f a).exec σ t := by
  change (match m.exec σ s with
    | (.ok a,t) => (f a).exec σ t
    | (.error x,t) => (.error x,t)) = _
  rw [h]

theorem exec_bind_error {x : X} (h : m.exec σ s = (.error x,t)) : (m >>= f).exec σ s = (.error x,t) := by
  change (match m.exec σ s with
    | (.ok a,t) => (f a).exec σ t
    | (.error x,t) => (.error x,t)) = _
  rw [h]

theorem exec_total {m : Action Call Resp W P ε Empty α} {a : α} (h : m.exec σ s = (.ok a,t)) :
    (m.total : Action Call Resp W P ε X α).exec σ s = (.ok a,t) := by
  change (match m.exec σ s with
    | (.ok a,t) => ((.ok a,t) : Except X α × State Call W P ε)) = _
  rw [h]

end Exec

end ShardVPN.Effect
