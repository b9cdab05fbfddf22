import ShardVPN.Request.Track
import ShardVPN.System.Down

/-! # Retrying a request to go down

However often a request to go down fails, the pointer keeps naming the node until the
region it names is empty: the first success comes after every live node of that region
has been terminated.
-/
namespace ShardVPN.System
open Effect Settings Handler

/-- An authenticated request to go down whose failing calls have no effect. -/
def AttemptsDown (l : Label) : Prop :=
  ∃ i, l = .invoke i ∧ i.event.get (text "requestContext") ≠ none ∧ Asks asksDown i ∧ Atomic i.env

/-- The pointer still names a region, or the region is empty and nothing is tracked. -/
def Tracking (rt : Runtime) (p : Pointer) (region : Text) (w : World) : Prop :=
  storedPointer rt w = .ok (some p) ∨ storedPointer rt w = .ok none ∧ w.nodesIn region = []

variable {rt : Runtime} {w : World} {es : List Event}

/-- Where every terminate that takes effect is reported, the two agree. -/
theorem removed_eq_terminated (h : ∀ e ∈ es, e.call.terminates = true → e.effective = e.succeeded) :
    removed es = terminated es := by
  unfold removed terminated attempted
  rw [List.filterMap_filter,List.filterMap_filter]
  refine List.filterMap_congr ?_
  intro e he
  cases ht : terminateTarget e with
  | none => simp
  | some k =>
    have hterminates : e.call.terminates = true := by
      unfold terminateTarget at ht
      split at ht
      · rename_i hc
        rw [hc]
        rfl
      · cases ht
    rw [h e he hterminates]

theorem nodes_kept_of_reads (env : Env) (hes : ∀ e ∈ es, e.call.reads = true) (w : World) :
    (env.service.replay w es).nodes = w.nodes.filter (fun n => !decide (n.key ∈ terminated es)) := by
  rw [replay_reads env hes,terminated_eq_nil fun e he => Call.quiet_terminates (Call.quiet_of_reads (hes e he))]
  simp

/-- A request to go down removes exactly the nodes whose terminate it saw succeed. -/
theorem downCalls_nodes {env : Env} {s : State} {pointer : Option Pointer} {r : Except Exn Response}
    (h : DownCalls rt env s pointer r es) (w : World) :
    (env.service.replay w es).nodes = w.nodes.filter (fun n => !decide (n.key ∈ terminated es)) := by
  have hreads : ∀ e : Event, e.call.reads = true → e.call.onlyRemoves = true ∧
      (e.call.terminates = true → e.effective = e.succeeded) := by
    intro e he
    have hquiet := Call.quiet_of_reads he
    refine ⟨Call.quiet_onlyRemoves hquiet,fun ht => ?_⟩
    rw [Call.quiet_terminates hquiet] at ht
    cases ht
  have hemptied : ∀ {region es}, Emptied env s region es → ∀ e ∈ es, e.call.onlyRemoves = true ∧
      (e.call.terminates = true → e.effective = e.succeeded) := by
    intro region es hemptied e he
    rcases hemptied.mem he with hr | ⟨i,rfl⟩
    · exact hreads e hr
    · exact ⟨rfl,fun _ => rfl⟩
  have hall : ∀ e ∈ es, e.call.onlyRemoves = true ∧ (e.call.terminates = true → e.effective = e.succeeded) := by
    intro e he
    cases h with
    | unread hes => exact hreads e (hes e he)
    | stopped hxs hc =>
      rcases List.mem_append.mp he with he | he
      · exact hreads e (hxs e he)
      · rcases List.mem_append.mp he with he | he
        · obtain ⟨i,-,rfl⟩ := List.mem_map.mp he
          exact ⟨rfl,fun _ => rfl⟩
        · rw [List.mem_singleton.mp he]
          exact ⟨hc,fun _ => rfl⟩
    | untracked _ h => exact hemptied h e he
    | cleared _ _ h =>
      rcases List.mem_append.mp he with he | he
      · exact hemptied h e he
      · rw [List.mem_singleton.mp he]
        exact ⟨rfl,fun _ => rfl⟩
  rw [replay_nodes env fun e he => (hall e he).1,removed_eq_terminated fun e he => (hall e he).2]

/-! ## One attempt -/

theorem storedPointer_of_text {v w : World} (h : pointerText rt w = pointerText rt v) :
    storedPointer rt w = storedPointer rt v := by
  unfold pointerText at h
  unfold storedPointer
  rw [h]

theorem nodesIn_of_filter {v w : World} {p : Node → Bool} (h : w.nodes = v.nodes.filter p) {region : Text}
    (hv : v.nodesIn region = []) : w.nodesIn region = [] := by
  refine List.eq_nil_iff_forall_not_mem.mpr fun i hi => ?_
  have hmem := mem_nodesIn.mp hi
  rw [h] at hmem
  exact List.not_mem_nil (hv ▸ mem_nodesIn.mpr (List.mem_of_mem_filter hmem))

/-- An attempt keeps the pointer or ends with the region it names empty. -/
theorem attempt_step {l : Label} (h : AttemptsDown l) {pointer : Option Pointer}
    (hp : storedPointer rt w = .ok pointer) :
    (after rt w l).nodes = w.nodes.filter (fun n => !decide (n.key ∈ terminated (calls rt w l))) ∧
      (storedPointer rt (after rt w l) = .ok pointer ∨ ∃ region, DownRegion rt w region ∧
        (after rt w l).nodesIn region = [] ∧ storedPointer rt (after rt w l) = .ok none) := by
  obtain ⟨i,rfl,hcontext,⟨body,hbody,hdown⟩,hatomic⟩ := h
  have hhandled := i.handled rt w
  change (i.after rt w).nodes = w.nodes.filter (fun n => !decide (n.key ∈ terminated (i.events rt w))) ∧
    (storedPointer rt (i.after rt w) = .ok pointer ∨ ∃ region, DownRegion rt w region ∧
      (i.after rt w).nodesIn region = [] ∧ storedPointer rt (i.after rt w) = .ok none)
  rw [i.after_eq]
  generalize i.events rt w = es at hhandled
  generalize i.reply rt w = r at hhandled
  cases hhandled with
  | swept hnone _ _ => exact absurd hnone hcontext
  | refused hes _ =>
    refine ⟨nodes_kept_of_reads i.env hes w,Or.inl ?_⟩
    rw [replay_reads i.env hes,hp]
  | @performed body' r u t xs ys hbody' hxs hu hperform =>
    obtain rfl : body = body' := Option.some.inj (hbody.symm.trans hbody')
    rw [perform_down hdown] at hperform
    have hcalls := down_calls hatomic (by rw [hu,hp]) hperform
    have hrun := down_cases hperform
    rw [hu] at hrun
    rw [Service.replay_append,replay_reads i.env hxs,terminated_append,
      terminated_eq_nil fun e he => Call.quiet_terminates (Call.quiet_of_reads (hxs e he)),List.nil_append]
    refine ⟨downCalls_nodes hcalls w,?_⟩
    cases r with
    | error x =>
      left
      rw [storedPointer_of_text (hcalls.pointer_kept w),hp]
    | ok response =>
      right
      obtain ⟨region,hregion,hnodes,-,hnone⟩ := hrun.effects i.env
      refine ⟨region,hregion,?_,hnone⟩
      rw [nodesIn_filter hnodes,if_pos rfl]

theorem tracking_step {p : Pointer} {region : Text} (hregion : clientRegion rt p.region = .ok region) {l : Label}
    (h : AttemptsDown l) (hw : Tracking rt p region w) :
    Tracking rt p region (after rt w l) ∧
      (after rt w l).nodes = w.nodes.filter (fun n => !decide (n.key ∈ terminated (calls rt w l))) := by
  rcases hw with hp | ⟨hnone,hnil⟩
  · obtain ⟨hnodes,hkept | ⟨region',hdown,hempty,hnone⟩⟩ := attempt_step h hp
    · exact ⟨Or.inl hkept,hnodes⟩
    · refine ⟨Or.inr ⟨hnone,?_⟩,hnodes⟩
      rcases hdown with ⟨hn,-⟩ | ⟨q,hq,hclient⟩
      · cases hn.symm.trans hp
      · cases hq.symm.trans hp
        cases hregion.symm.trans hclient
        exact hempty
  · obtain ⟨hnodes,hpointer⟩ := attempt_step h hnone
    refine ⟨Or.inr ⟨?_,nodesIn_of_filter hnodes hnil⟩,hnodes⟩
    rcases hpointer with hpointer | ⟨_,_,_,hpointer⟩ <;> exact hpointer

/-- A run of attempts keeps track, and removes exactly the nodes it saw terminated. -/
theorem tracking_run {p : Pointer} {region : Text} (hregion : clientRegion rt p.region = .ok region) {ls : List Label}
    (hls : ∀ l ∈ ls, AttemptsDown l) (hw : Tracking rt p region w) : Tracking rt p region (run (after rt) w ls) ∧
      (run (after rt) w ls).nodes =
        w.nodes.filter (fun n => !decide (n.key ∈ terminated (emitted (after rt) (calls rt) w ls))) := by
  induction ls generalizing w with
  | nil => exact ⟨hw,by simp [emitted]⟩
  | cons l ls ih =>
    obtain ⟨hstep,hnodes⟩ := tracking_step hregion (hls l List.mem_cons_self) hw
    obtain ⟨hrun,hrest⟩ := ih (fun k hk => hls k (List.mem_cons_of_mem l hk)) hstep
    refine ⟨hrun,?_⟩
    rw [run_cons,hrest,hnodes,List.filter_filter,emitted,terminated_append]
    refine List.filter_congr ?_
    intro n _
    simp [Bool.and_comm]

/-- After a success of the run the tracked region is empty. -/
theorem Downed.tracking {p : Pointer} {region : Text} (hregion : clientRegion rt p.region = .ok region) {l : Label}
    (h : Downed rt w l) (hw : Tracking rt p region w) :
    (after rt w l).nodesIn region = [] := by
  obtain ⟨region',hdown,hnodes,-⟩ := h.effects
  rcases hw with hp | ⟨-,hnil⟩
  · rcases hdown with ⟨hn,-⟩ | ⟨q,hq,hclient⟩
    · cases hn.symm.trans hp
    · cases hq.symm.trans hp
      cases hregion.symm.trans hclient
      rw [nodesIn_filter hnodes,if_pos rfl]
  · exact nodesIn_of_filter hnodes hnil

/-- A failing request to go down keeps track of the node, and of several attempts the first that
succeeds ends with every node of the tracked region terminated. -/
theorem downs_keep_track (rt : Runtime) :
    (∀ (env : Env) (requestId : Text) (body : Dict) (s : State) (pointer : Option Pointer), Atomic env →
      asksDown body → storedPointer rt s.world = .ok pointer →
      ∃ response, ((dispatch rt requestId body).exec env.service s).1 = .ok response ∧
        KeepsTrack rt env s ((dispatch rt requestId body).exec env.service s).2 pointer response
          ((dispatch rt requestId body).events env.service s)) ∧
    ∀ (w : World) (p : Pointer) (region : Text) (ls : List Label) (l : Label),
      storedPointer rt w = .ok (some p) → clientRegion rt p.region = .ok region →
      (∀ k ∈ ls ++ [l], AttemptsDown k) → Downed rt (run (after rt) w ls) l →
      (run (after rt) w (ls ++ [l])).nodesIn region = [] ∧ ∀ n ∈ w.nodes, n.1 = region →
        n.key ∈ terminated (emitted (after rt) (calls rt) w (ls ++ [l])) := by
  constructor
  · intro env requestId body s pointer hatomic hdown hp
    exact dispatch_keepsTrack hatomic hdown hp ((dispatch rt requestId body).steps_exec env.service s)
  · intro w p region ls l hp hregion hls hl
    obtain ⟨htracking,-⟩ := tracking_run hregion (fun k hk => hls k (List.mem_append_left _ hk)) (Or.inl hp)
    have hnil : (run (after rt) w (ls ++ [l])).nodesIn region = [] := by
      rw [run_append]
      exact hl.tracking hregion htracking
    refine ⟨hnil,?_⟩
    rintro ⟨r,i⟩ hn rfl
    obtain ⟨-,hnodes⟩ := tracking_run hregion hls (Or.inl hp)
    by_contra hmem
    have hleft : i ∈ (run (after rt) w (ls ++ [l])).nodesIn r := by
      rw [mem_nodesIn,hnodes]
      exact List.mem_filter.mpr ⟨hn,by simpa using hmem⟩
    rw [hnil] at hleft
    cases hleft

/-- No terminate is served. -/
def unterminable : Env := Plain.refuse Call.terminates

theorem atomic_refuse (p : Call → Bool) : Atomic (Plain.refuse p) := by
  intro c n e h
  change (if p c then Fault.refused Plain.throttled else Fault.none) = _ at h
  split at h <;> cases h

theorem atomic_clean : Atomic Plain.clean := by
  rintro c n e ⟨⟩

/-- One attempt fails to terminate the node, and the next one succeeds. -/
theorem downs_keep_track_retried :
    (∃ response, ((dispatch Plain.runtime [] [(text "action",.str (text "down"))]).exec unterminable.service
        (Plain.state (Plain.lapsed (Plain.pointsTo Plain.region0 Plain.instance0)))).1 = .ok response ∧
      KeepsTrack Plain.runtime unterminable (Plain.state (Plain.lapsed (Plain.pointsTo Plain.region0 Plain.instance0)))
        ((dispatch Plain.runtime [] [(text "action",.str (text "down"))]).exec unterminable.service
          (Plain.state (Plain.lapsed (Plain.pointsTo Plain.region0 Plain.instance0)))).2
        (some ⟨.str Plain.region0,.str Plain.instance0⟩) response
        ((dispatch Plain.runtime [] [(text "action",.str (text "down"))]).events unterminable.service
          (Plain.state (Plain.lapsed (Plain.pointsTo Plain.region0 Plain.instance0))))) ∧
    (run (after Plain.runtime) (Plain.lapsed (Plain.pointsTo Plain.region0 Plain.instance0))
      ([Plain.invoke unterminable Plain.downText] ++ [Plain.invoke Plain.clean Plain.downText])).nodesIn
        Plain.region0 = [] := by
  have hpointer : storedPointer Plain.runtime (Plain.lapsed (Plain.pointsTo Plain.region0 Plain.instance0)) =
      .ok (some ⟨.str Plain.region0,.str Plain.instance0⟩) := by decide +kernel
  have hbody : requestBody (Plain.request Plain.downText) = some [(text "action",.str (text "down"))] := by
    decide +kernel
  have hcontext : (Plain.request Plain.downText).get (text "requestContext") ≠ none := by decide +kernel
  have hattempt : ∀ env, Atomic env → AttemptsDown (Plain.invoke env Plain.downText) :=
    fun env h => ⟨_,rfl,hcontext,⟨_,hbody,rfl⟩,h⟩
  have hkeep := downs_keep_track Plain.runtime
  refine ⟨hkeep.1 unterminable [] _ _ _ (atomic_refuse _) rfl hpointer,
    (hkeep.2 _ _ Plain.region0 _ _ hpointer rfl ?_ ?_).1⟩
  · intro k hk
    rcases List.mem_append.mp hk with hk | hk
    · rw [List.mem_singleton.mp hk]
      exact hattempt _ (atomic_refuse _)
    · rw [List.mem_singleton.mp hk]
      exact hattempt _ atomic_clean
  · exact ⟨_,rfl,⟨_,hbody,rfl⟩,respond 200 Statusdoc.absent,by decide +kernel,rfl⟩

end ShardVPN.System
