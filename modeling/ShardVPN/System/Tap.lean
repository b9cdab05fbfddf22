import ShardVPN.Phone.Delivery
import ShardVPN.Phone.Lines
import ShardVPN.Request.Documents
import ShardVPN.System.Answers
import ShardVPN.System.Lifetime
import ShardVPN.System.Retries
import ShardVPN.System.Tailnet

/-! # One tap on the phone

The script sends a request up to four times. Each attempt may get lost, be turned away
before it reaches the function, or be served and answered, and the answer may get lost
again; the account goes its own way before, between and after the attempts.
-/
namespace ShardVPN.Phone
open Effect Settings Handler Script ShardVPN.System

/-- What the script knows when it starts to send. -/
structure Tap where
  engine : Engine
  secret : Text
  action : Text
  region : Option Text
  secret_scalar : Scalar secret
  action_scalar : Scalar action
  region_scalar : ∀ r ∈ region, Scalar r

theorem plain_secret_scalar : Scalar Plain.secret := by decide

theorem none_scalar : ∀ r ∈ (none : Option Text), Scalar r := fun _ h => by cases h

/-- Where `send` stands: before an attempt, or at its end. -/
inductive Phase
  | trying (attempt : ℕ) (lastError : Option Text)
  | returned (result : Json)

structure Session where
  world : World
  phase : Phase

/-- The account takes a step, an attempt does not reach the function, or it does. -/
inductive Move
  | account (l : Label)
  | missed (outcome : Outcome)
  | served (dateNow : ℕ) (i : Invocation) (outcome : Outcome)

def Move.outcome : Move → Option Outcome
  | .account _ => none
  | .missed outcome => some outcome
  | .served _ _ outcome => some outcome

/-- What the attempts of a list of moves come to. -/
def outcomes (ms : List Move) : List Outcome := ms.filterMap Move.outcome

namespace Phase

/-- One pass of the loop. -/
def next (engine : Engine) (outcome : Outcome) : Phase → Phase
  | .returned result => .returned result
  | .trying attempt _ => match settle engine outcome with
    | .ok result => .returned result
    | .error e => if attempt + 1 < maxAttempts then .trying (attempt + 1) (some e) else .returned (unreachable (some e))

/-- How many attempts are left. -/
def left : Phase → ℕ
  | .trying attempt _ => maxAttempts - attempt
  | .returned _ => 0

/-- What `send` comes to from here when the attempts from here on come to these. -/
def result (engine : Engine) (outcome : ℕ → Outcome) : Phase → Json
  | .trying attempt lastError => send engine outcome attempt lastError
  | .returned result => result

def Waiting (p : Phase) : Prop := ∃ attempt lastError, p = .trying attempt lastError ∧ attempt < maxAttempts

end Phase

section
variable (rt : Runtime) (tap : Tap)

def moved (s : Session) : Move → Session
  | .account l => ⟨after rt s.world l,s.phase⟩
  | .missed outcome => ⟨s.world,s.phase.next tap.engine outcome⟩
  | .served _ i outcome => ⟨i.after rt s.world,s.phase.next tap.engine outcome⟩

/-- The calls of a move. -/
def callsOf (s : Session) : Move → List Event
  | .account l => calls rt s.world l
  | .missed _ => []
  | .served _ i _ => i.events rt s.world

/-- What an attempt comes to that the function does not see: it raises, or it is turned away. -/
def Missed : Outcome → Prop
  | .raised _ => True
  | .loaded code _ => 400 ≤ code

/-- What an attempt comes to that the function serves: its answer gets lost or is read, and a crash is a
failure of the server. -/
inductive Arrives (i : Invocation) (w : World) : Outcome → Prop
  | lost (error : Text) : Arrives i w (.raised error)
  | heard {response : Response} {value : Json} : i.reply rt w = .ok (.http response) →
      tap.engine.parse response.body = .ok value → Arrives i w (.loaded response.statusCode value)
  | crashed {e : Exn} {code : ℕ} (value : Json) : i.reply rt w = .error e → 500 ≤ code → Arrives i w (.loaded code value)

/-- A move that can happen. -/
def Genuine (s : Session) : Move → Prop
  | .account l => Spoken l
  | .missed outcome => s.phase.Waiting ∧ Missed outcome
  | .served dateNow i outcome => s.phase.Waiting ∧ Scalar i.requestId ∧ i.event.get (text "requestContext") ≠ none ∧
      Delivered rt.lower (request tap.secret tap.action tap.region dateNow) i.event ∧ Arrives rt tap i s.world outcome

end

/-! ## What an attempt comes to -/

/-- A result that the script shows as an error. -/
def Fails (result : Json) : Prop := ∃ value, truthy value = true ∧ result = .obj [(text "error",value)]

section
variable {engine : Engine}

theorem unreachable_fails (lastError : Option Text) : Fails (unreachable lastError) := by
  refine ⟨_,?_,rfl⟩
  cases h : lastError.filter (· ≠ []) with
  | none => decide
  | some e => exact (Option.mem_filter_iff.mp h).2

/-- An attempt gives an error to show, or the value of a success. -/
theorem settle_ok {outcome : Outcome} {result : Json} (h : settle engine outcome = .ok result) :
    Fails result ∨ ∃ code, outcome = .loaded code result ∧ code < 400 := by
  cases outcome with
  | raised error => cases h
  | loaded code value =>
    unfold settle at h
    dsimp only at h
    split at h
    · cases h
    split at h
    · split at h
      · cases h
      · rename_i error _
        refine Or.inl ⟨_,?_,(Except.ok.inj h).symm⟩
        cases hfilter : error.filter truthy with
        | none => rfl
        | some value => exact (Option.mem_filter_iff.mp hfilter).2
    · rename_i hcode
      exact Or.inr ⟨code,by rw [Except.ok.inj h],Nat.lt_of_not_le hcode⟩

theorem next_returned {p : Phase} (hp : p.Waiting) {outcome : Outcome} {result : Json}
    (h : p.next engine outcome = .returned result) : Fails result ∨ ∃ code, outcome = .loaded code result ∧ code < 400 := by
  obtain ⟨attempt,lastError,rfl,-⟩ := hp
  unfold Phase.next at h
  cases hsettle : settle engine outcome with
  | ok value =>
    rw [hsettle] at h
    cases h
    exact settle_ok hsettle
  | error e =>
    rw [hsettle] at h
    dsimp only at h
    split at h
    · cases h
    · cases h
      exact Or.inl (unreachable_fails _)

theorem next_waiting (engine : Engine) {p : Phase} (hp : p.Waiting) (outcome : Outcome) :
    (p.next engine outcome).Waiting ∨ ∃ result, p.next engine outcome = .returned result := by
  obtain ⟨attempt,lastError,rfl,-⟩ := hp
  unfold Phase.next
  cases settle engine outcome with
  | ok value => exact Or.inr ⟨_,rfl⟩
  | error e =>
    dsimp only
    split
    · rename_i hlt
      exact Or.inl ⟨_,_,rfl,hlt⟩
    · exact Or.inr ⟨_,rfl⟩

end

/-! ## The loop -/

section
variable {engine : Engine} {rt : Runtime} {tap : Tap} {s : Session} {ms : List Move}

/-- A pass of the loop is one of `send`. -/
theorem Phase.result_next {p : Phase} (hp : p.Waiting) (outcome : ℕ → Outcome) :
    (p.next engine (outcome (maxAttempts - p.left))).result engine outcome = p.result engine outcome := by
  obtain ⟨attempt,lastError,rfl,hlt⟩ := hp
  have hattempt : maxAttempts - (Phase.trying attempt lastError).left = attempt := Nat.sub_sub_self hlt.le
  rw [hattempt,Phase.result,send,if_pos hlt]
  unfold Phase.next
  cases settle engine (outcome attempt) with
  | ok value => rfl
  | error e =>
    dsimp only
    split
    · rfl
    · rename_i hlast
      rw [send,if_neg hlast]
      rfl

theorem Phase.left_next (engine : Engine) {p : Phase} (hp : p.Waiting) (outcome : Outcome) :
    (p.next engine outcome).left < p.left := by
  obtain ⟨attempt,lastError,rfl,hlt⟩ := hp
  unfold Phase.next
  cases settle engine outcome with
  | ok value => exact Nat.sub_pos_of_lt hlt
  | error e =>
    dsimp only
    split
    · exact Nat.sub_lt_sub_left hlt (Nat.lt_succ_self _)
    · exact Nat.sub_pos_of_lt hlt

theorem Genuine.waiting {m : Move} (h : Genuine rt tap s m) (hm : m.outcome ≠ none) : s.phase.Waiting := by
  cases m with
  | account l => exact absurd rfl hm
  | missed outcome => exact h.1
  | served dateNow i outcome => exact h.1

theorem phase_kept {m : Move} (h : m.outcome = none) : (moved rt tap s m).phase = s.phase := by
  cases m <;> first | rfl | cases h

theorem phase_next {m : Move} {outcome : Outcome} (h : m.outcome = some outcome) :
    (moved rt tap s m).phase = s.phase.next tap.engine outcome := by
  cases m <;> cases h <;> rfl

/-- There are no more attempts than are left. -/
theorem outcomes_length (h : Along (moved rt tap) (Genuine rt tap) s ms) :
    (outcomes ms).length + (run (moved rt tap) s ms).phase.left ≤ s.phase.left := by
  induction ms generalizing s with
  | nil => exact (Nat.zero_add _).le
  | cons m ms ih =>
    have hrest := ih h.2
    rw [run_cons]
    cases hm : m.outcome with
    | none =>
      rw [phase_kept hm] at hrest
      rwa [outcomes,List.filterMap_cons_none hm]
    | some outcome =>
      have hleft := Phase.left_next tap.engine (h.1.waiting (by rw [hm]; rintro ⟨⟩)) outcome
      rw [phase_next hm] at hrest
      rw [outcomes,List.filterMap_cons_some hm,List.length_cons]
      unfold outcomes at hrest
      omega

/-- The loop of `send` goes the way of the moves, whatever the account does meanwhile. -/
theorem run_result (outcome : ℕ → Outcome) (h : Along (moved rt tap) (Genuine rt tap) s ms)
    (houtcome : ∀ k o, (outcomes ms)[k]? = some o → outcome (maxAttempts - s.phase.left + k) = o) :
    (run (moved rt tap) s ms).phase.result tap.engine outcome = s.phase.result tap.engine outcome := by
  induction ms generalizing s with
  | nil => rfl
  | cons m ms ih =>
    have hlength := outcomes_length h.2
    rw [run_cons]
    cases hm : m.outcome with
    | none =>
      have hphase : (moved rt tap s m).phase = s.phase := phase_kept hm
      rw [outcomes,List.filterMap_cons_none hm] at houtcome
      rw [← hphase] at houtcome ⊢
      exact ih h.2 houtcome
    | some o =>
      have hwaiting := h.1.waiting (by rw [hm]; rintro ⟨⟩)
      have hphase : (moved rt tap s m).phase = s.phase.next tap.engine o := phase_next hm
      rw [outcomes,List.filterMap_cons_some hm] at houtcome
      have ho : outcome (maxAttempts - s.phase.left) = o := houtcome 0 o rfl
      rw [← Phase.result_next hwaiting outcome,ho,← hphase]
      refine ih h.2 fun k o' hk => ?_
      rw [← houtcome (k + 1) o' hk]
      obtain ⟨attempt,lastError,hs,hlt⟩ := hwaiting
      have hk' : k < (outcomes ms).length := (List.getElem?_eq_some_iff.mp hk).1
      have hleft : (moved rt tap s m).phase.left = 0 ∨ (moved rt tap s m).phase.left = maxAttempts - (attempt + 1) := by
        rw [hphase,hs]
        unfold Phase.next
        cases settle tap.engine o with
        | ok value => exact Or.inl rfl
        | error e =>
          dsimp only
          split
          · exact Or.inr rfl
          · exact Or.inl rfl
      rcases hleft with hleft | hleft
      · rw [hleft] at hlength
        omega
      · rw [hleft,hs,Phase.left]
        congr 1
        omega

/-- What a tap comes to is what `send` returns for its attempts. -/
theorem returned_send {w : World} {result : Json} (h : Along (moved rt tap) (Genuine rt tap) ⟨w,.trying 0 none⟩ ms)
    (hreturned : (run (moved rt tap) ⟨w,.trying 0 none⟩ ms).phase = .returned result) :
    result = send tap.engine (fun k => (outcomes ms).getD k (.raised [])) 0 none := by
  have hrun := run_result (fun k => (outcomes ms).getD k (.raised [])) h fun k o hk => by
    dsimp only [Phase.left]
    rw [Nat.sub_zero,Nat.sub_self,Nat.zero_add,List.getD_eq_getElem?_getD,hk]
    rfl
  rw [hreturned] at hrun
  exact hrun

/-- Nothing follows the end of a tap but steps of the account. -/
theorem returned_kept {result : Json} (hs : s.phase = .returned result)
    (h : Along (moved rt tap) (Genuine rt tap) s ms) : (run (moved rt tap) s ms).phase = .returned result := by
  induction ms generalizing s with
  | nil => exact hs
  | cons m ms ih =>
    cases hm : m.outcome with
    | none => exact ih ((phase_kept hm).trans hs) h.2
    | some outcome =>
      obtain ⟨attempt,lastError,hwaiting,-⟩ := h.1.waiting (by rw [hm]; rintro ⟨⟩)
      rw [hs] at hwaiting
      cases hwaiting

/-- A tap that came to a result came to it in one of its attempts. -/
theorem returning {result : Json} (hs : s.phase.Waiting) (h : Along (moved rt tap) (Genuine rt tap) s ms)
    (hreturned : (run (moved rt tap) s ms).phase = .returned result) :
    ∃ before m later outcome, ms = before ++ m :: later ∧ (run (moved rt tap) s before).phase.Waiting ∧
      m.outcome = some outcome ∧ (run (moved rt tap) s before).phase.next tap.engine outcome = .returned result := by
  induction ms generalizing s with
  | nil =>
    obtain ⟨attempt,lastError,hphase,-⟩ := hs
    rw [run_nil,hphase] at hreturned
    cases hreturned
  | cons m ms ih =>
    have hcons : (moved rt tap s m).phase.Waiting → ∃ before k later outcome, m :: ms = before ++ k :: later ∧
        (run (moved rt tap) s before).phase.Waiting ∧ k.outcome = some outcome ∧
        (run (moved rt tap) s before).phase.next tap.engine outcome = .returned result := by
      intro hwaiting
      obtain ⟨before,k,later,outcome,rfl,hrest⟩ := ih hwaiting h.2 hreturned
      exact ⟨m :: before,k,later,outcome,rfl,hrest⟩
    cases hm : m.outcome with
    | none =>
      rw [phase_kept hm] at hcons
      exact hcons hs
    | some outcome =>
      rcases next_waiting tap.engine hs outcome with hwaiting | ⟨result',hresult⟩
      · rw [phase_next hm] at hcons
        exact hcons hwaiting
      · have hkept := returned_kept ((phase_next hm).trans hresult) h.2
        rw [run_cons] at hreturned
        rw [hkept] at hreturned
        cases hreturned
        exact ⟨[],m,ms,outcome,rfl,hs,hm,hresult⟩

end

end ShardVPN.Phone
