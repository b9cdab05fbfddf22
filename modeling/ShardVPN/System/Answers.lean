import ShardVPN.Request.Answers
import ShardVPN.System.Recovery

/-! # Every answer is read as it was written

In every run, whatever fails, the body of an HTTP answer is ASCII, and a reader of JSON
takes from it exactly the payload that was put in, as long as the names that come from
outside, the request ids and the addresses of booting instances, are Unicode.
-/
namespace ShardVPN.System
open Effect Ec2ops Settings Handler

variable {rt : Runtime} {w : World}

/-- What a step brings from outside is Unicode. -/
def Spoken : Label → Prop
  | .invoke i => Scalar i.requestId
  | .nodeBoots _ publicIp => ∀ t ∈ publicIp, Scalar t
  | _ => True

/-- A call a sweep makes keeps the account Unicode. -/
theorem unicode_effect (env : Env) {c : Call} (hc : Warranted rt w c) (hruns : c.runs = false) (h : Unicode rt w) :
    Unicode rt (env.effect c w) := by
  cases hc with
  | launch _ => cases hruns
  | terminate _ _ => exact h.terminated _ _
  | @stamp n value _ _ =>
    refine h.of_map (f := fun r i => if r = n.1 ∧ i.instanceId ∈ [n.2.instanceId] then
      [⟨tagAlerted,value⟩].foldl Instance.setTag i else i) ?_ rfl rfl
    intro r i hi
    split
    · exact hi.setTag rfl
    · exact hi
  | point hn _ => exact h.pointed fun _ => decoded_some (h.regions _ hn) (h.instances _ hn).instanceId
  | clear => exact h.pointed fun _ => decoded_none
  | wall _ _ _ => exact h.of_same (env.effect_quiet rfl w)
  | _ => exact h

theorem unicode_outside {l : Label} (hl : ∀ i, l ≠ .invoke i) (hspoken : Spoken l) (h : Unicode rt w) :
    Unicode rt (after rt w l) := by
  cases l with
  | invoke i => exact absurd rfl (hl i)
  | setDefault d value =>
    refine ⟨h.instances,h.regions,?_⟩
    rw [storedPointer_setDefault]
    exact h.pointer
  | nodeEnds instanceId =>
    refine h.of_map (f := fun _ i => ended instanceId i) (fun _ i hi => ?_) rfl rfl
    unfold ended
    split
    · exact ⟨hi.1,hi.2,hi.3,hi.4⟩
    · exact hi
  | nodeBoots instanceId publicIp =>
    refine h.of_map (f := fun _ i => booted instanceId publicIp i) (fun _ i hi => ?_) rfl rfl
    unfold booted
    split
    · exact ⟨hi.1,hspoken,hi.3,hi.4⟩
    · exact hi

/-- A sweep launches nothing. -/
theorem sweep_launchless (now : Time.DateTime) : Only (fun c => c.runs = false) (Watchdog.sweep rt now) :=
  Watchdog.sweep_only (fun c hc => by cases c <;> first | rfl | cases hc)
    (fun c hc => by cases c <;> first | rfl | cases hc) (fun _ _ => rfl) (fun _ => rfl) now

theorem sweep_tells {env : Env} (now : Time.DateTime) : Tells rt env (Watchdog.sweep rt now) fun _ => True := by
  intro s r es t h hs
  refine ⟨?_,fun _ _ => trivial⟩
  have hruns : ∀ e ∈ es, e.call.runs = false := sweep_launchless now h
  have hwarrants : env.service.Permits (fun v c => Warranted rt v c ∧ c.runs = false) s.world es := by
    rw [Service.permits_iff]
    rintro pre e post rfl
    exact ⟨Service.permits_iff.mp (Watchdog.sweep_warrants h) pre e post rfl,hruns e (by simp)⟩
  rw [h.world]
  exact hwarrants.invariant (I := Unicode rt) (fun v c hv hc => unicode_effect env hc.1 hc.2 hv) hs

/-- The handler keeps the account Unicode, and an HTTP answer of it is read as it was written. -/
theorem lambdaHandler_tells {env : Env} {requestId : Text} (hid : Scalar requestId) (event : Dict) :
    Tells rt env (lambdaHandler rt requestId event) fun reply => ∀ response, reply = .http response → Telling response := by
  rw [lambdaHandler]
  split
  · refine .bind (tells_quiet now_only) fun now _ => .bind (sweep_tells _).total fun summary _ => .pure ?_
    rintro _ ⟨⟩
  · refine .bind (handleHttp_tells hid event) fun response hresponse => .pure ?_
    rintro _ ⟨⟩
    exact hresponse

theorem step_unicode {l : Label} (hl : Spoken l) (h : Unicode rt w) : Unicode rt (after rt w l) := by
  cases l with
  | invoke i => exact (lambdaHandler_tells hl i.event (i.steps w) h).1
  | _ => exact unicode_outside (by rintro i ⟨⟩) hl h

/-- What a client reads of an answer of this step is what was answered. -/
def Legibly (rt : Runtime) (w : World) (l : Label) : Prop :=
  ∀ i response, l = .invoke i → i.reply rt w = .ok (.http response) →
    Ascii response.body ∧ loads response.body = .ok response.payload

theorem legibly {l : Label} (hl : Spoken l) (h : Unicode rt w) : Legibly rt w l := by
  rintro i response rfl hreply
  have htelling := (lambdaHandler_tells hl i.event (i.steps w) h).2 _ hreply response rfl
  exact ⟨dumps_ascii _,loads_dumps htelling.payload.legible⟩

/-- Whatever fails in whatever run, each answer is read as it was written. -/
theorem answers_read_back (rt : Runtime) (w : World) (ls : List Label) (hw : Unicode rt w) (hls : ∀ l ∈ ls, Spoken l) :
    Along (after rt) (Legibly rt) w ls ∧ Unicode rt (run (after rt) w ls) := by
  induction ls generalizing w with
  | nil => exact ⟨trivial,hw⟩
  | cons l ls ih =>
    have hl := hls l List.mem_cons_self
    obtain ⟨halong,hend⟩ := ih (after rt w l) (step_unicode hl hw) fun k hk => hls k (List.mem_cons_of_mem l hk)
    exact ⟨⟨legibly hl hw,halong⟩,hend⟩

/-- A node is launched, boots and is described. -/
def spokenRun : List Label := [Plain.invoke Plain.clean Plain.upText,
  .nodeBoots (Plain.longerId Plain.empty) (some (text "203.0.113.7")),
  Plain.invoke Plain.clean (dumps (.obj [(text "action",.str (text "status"))]))]

theorem answers_read_back_plain : Along (after Plain.runtime) (Legibly Plain.runtime) Plain.empty spokenRun ∧
    Unicode Plain.runtime (run (after Plain.runtime) Plain.empty spokenRun) := by
  have hpointer : storedPointer Plain.runtime Plain.empty = .ok none := by decide +kernel
  have hempty : Unicode Plain.runtime Plain.empty := by
    refine ⟨by rintro n ⟨⟩,by rintro n ⟨⟩,?_⟩
    rw [hpointer]
    rintro p ⟨⟩
  refine answers_read_back Plain.runtime Plain.empty spokenRun hempty ?_
  intro l hl
  simp only [spokenRun,List.mem_cons,List.not_mem_nil,or_false] at hl
  rcases hl with rfl | rfl | rfl
  · exact (by decide : Scalar [])
  · rintro _ ⟨⟩
    decide
  · exact (by decide : Scalar [])

end ShardVPN.System
