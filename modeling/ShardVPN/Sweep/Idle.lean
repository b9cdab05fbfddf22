import ShardVPN.Sweep.Terminations
import ShardVPN.Time.RoundTrip

/-! # The idle alert

Step 3 reports a running node that sent too little and stamps it with the time of
the alert. The stamp keeps the launch and expiry of the node, and at the same
instant it silences the alert.
-/
namespace ShardVPN.Watchdog
open Effect Ec2ops Settings Time

/-! ## The stamp -/

/-- The node with the stamp of an alert at `now`. -/
def alertStamp (now : WallClock) (n : Node) : Node := (n.1,n.2.setTag ⟨tagAlerted,strftime now.toDateTime⟩)

@[simp] theorem alertStamp_key (now : WallClock) (n : Node) : (alertStamp now n).key = n.key := rfl

theorem launchTime_alertStamp (now : WallClock) (n : Node) : launchTime (alertStamp now n) = launchTime n := by
  rw [launchTime,launchTime,alertStamp,tagValue_setTag_of_ne n.2 (show tagAlerted ≠ _ by decide)]

theorem overdue_alertStamp (now : WallClock) (now' : DateTime) (n : Node) :
    overdue now' (alertStamp now n) = overdue now' n := by
  rw [overdue,overdue,alertStamp,tagValue_setTag_of_ne n.2 (show tagAlerted ≠ _ by decide)]

/-! ## When a node is alerted about -/

/-- What a node sent in the idle window. -/
def sentBytes (w : World) (now : DateTime) (n : Node) : Option ℤ :=
  (windowStart idleWindowHours now).map (fun start =>
    idleBytes ((w.metrics n.1 (networkQuery n.2.instanceId start now)).insertionSort pointLe))

/-- Whether step 3 alerts about a node. -/
def alerts (w : World) (now : DateTime) (threshold : ℤ) (n : Node) : Bool :=
  decide (n.2.state = .running) && (sentBytes w now n).any (fun bytes =>
    shouldAlert bytes threshold (tagValue n.2 tagAlerted) now (tagValue n.2 tagLaunched))

theorem alerts_congr {v w : World} (h : w.metrics = v.metrics) (now : DateTime) (threshold : ℤ) (n : Node) :
    alerts w now threshold n = alerts v now threshold n := by
  rw [alerts,alerts,sentBytes,sentBytes,h]

theorem isAlertDue_stamp (now : WallClock) :
    isAlertDue (some (strftime now.toDateTime)) now.toDateTime = false := by
  have hmod := Nat.mod_lt now.wall (show 0 < microsPerSecond by decide)
  have hdiv := Nat.div_add_mod now.wall microsPerSecond
  simp only [isAlertDue,Option.bind_some,now.rfc3339.2,decide_eq_false_iff_not,not_le]
  simp only [DateTime.instant,DateTime.floorSecond,now.utc,alertInterval,microsPerSecond] at hmod hdiv ⊢
  omega

/-- At the same instant a stamped node is not alerted about again. -/
theorem alerts_alertStamp (w : World) (now : WallClock) (threshold : ℤ) (n : Node) :
    alerts w now.toDateTime threshold (alertStamp now n) = false := by
  have hself : tagValue (alertStamp now n).2 tagAlerted = some (strftime now.toDateTime) :=
    tagValue_setTag_self n.2 ⟨tagAlerted,strftime now.toDateTime⟩
  have hnever : ∀ bytes, shouldAlert bytes threshold (some (strftime now.toDateTime)) now.toDateTime
      (tagValue (alertStamp now n).2 tagLaunched) = false := by
    intro bytes
    rw [shouldAlert,isAlertDue_stamp]
    split
    · rfl
    · split <;> rfl
  rw [alerts,hself]
  cases sentBytes w now.toDateTime (alertStamp now n) with
  | none => exact Bool.and_false _
  | some bytes => simp [hnever]

theorem windowStart_clock (now : WallClock) : ∃ start, windowStart idleWindowHours now.toDateTime = some start := by
  have hfrom := now.from_epoch
  have hlt := now.wall_lt
  simp only [microsPerDay,microsPerSecond] at hfrom hlt
  rw [windowStart,DateTime.add,dif_pos]
  · exact ⟨_,rfl⟩
  · simp only [idleWindowHours,microsPerDay,microsPerSecond]
    constructor
    · simp
      omega
    · simp
      omega

/-! ## Step 3 when every call succeeds -/

section
variable {rt : Runtime} {env : Env} {s t : State} {es : List Event}

/-- Reads of the metrics. -/
def measures : Call → Bool
  | .getMetricStatistics .. => true
  | _ => false

theorem networkOut_cases {region instanceId : Text} {hours : ℕ} {now start : DateTime}
    (hstart : windowStart hours now = some start) {r : Except Exn (List Datapoint)}
    (h : Steps env.service (networkOut region instanceId hours now) s r es t)
    (hes : ∀ e ∈ es, e.succeeded = true) : t.world = s.world ∧ (∀ e ∈ es, measures e.call = true) ∧
      r = .ok ((s.world.metrics region (networkQuery instanceId start now)).insertionSort pointLe) := by
  rcases networkOut_outcome h with ⟨hnone,-⟩ | ⟨_,hsome,hr,rfl,hworld⟩
  · cases hnone.symm.trans hstart
  · obtain rfl := Option.some.inj (hstart.symm.trans hsome)
    refine ⟨hworld,by simp [measures],?_⟩
    have hok := hes _ List.mem_cons_self
    rw [Service.event_succeeded] at hok
    cases hreply : env.service.reply s.trace s.world
        (.getMetricStatistics region (networkQuery instanceId start now)) with
    | ok points =>
      rw [hreply] at hr
      obtain rfl := Except.ok.inj (Service.reply_ok hreply).1
      exact hr
    | error e =>
      rw [hreply] at hok
      cases hok

theorem networkOut_settles {region instanceId : Text} {hours : ℕ} {now start : DateTime}
    (hstart : windowStart hours now = some start) : Settles (networkOut region instanceId hours now) := by
  rw [networkOut,hstart]
  intro σ s r es t h hes
  obtain ⟨a,u,xs,ys,-,h2,rfl⟩ := h.bind_settles (Settles.pure _) hes
  obtain ⟨points,v,xs,zs,-,h4,-⟩ := h2.bind_settles (Settles.call _ _)
    fun e he => hes e (List.mem_append_right _ he)
  exact ⟨_,(Steps.pure_iff.mp h4).1⟩

/-- What the check of a node does to the world when all its calls succeed. -/
structure IdleChecked (now : WallClock) (threshold : ℤ) (n : Node) (v w : World) (es : List Event) : Prop where
  quiet : alerts v now.toDateTime threshold n = false → w = v ∧ ∀ e ∈ es, measures e.call = true
  stamps : alerts v now.toDateTime threshold n = true →
    w.nodes = v.nodes.map (stamped n.1 [n.2.instanceId] ⟨tagAlerted,strftime now.toDateTime⟩)

theorem stampTag_nodes {n : Node} {value : Text} {r : Except Exn Unit}
    (h : Steps env.service (stampTag n.1 n.2.instanceId tagAlerted value) s r es t)
    (hes : ∀ e ∈ es, e.succeeded = true) :
    t.world.nodes = s.world.nodes.map (stamped n.1 [n.2.instanceId] ⟨tagAlerted,value⟩) := by
  obtain ⟨-,⟨_,m,-,rfl,-⟩ | ⟨e,b,m,-,rfl,-⟩⟩ := call_cases h
  · rw [h.world]
    exact nodes_stamp env n.1 [n.2.instanceId] (by decide : tagAlerted ≠ tagRole) s.world
  · cases hes _ List.mem_cons_self

theorem idleCheck_clean {now : WallClock} {threshold : ℤ} {n : Node} {summary : Summary} {r : Except Exn Summary}
    (hrunning : n.2.state = .running)
    (h : Steps env.service (idleCheck rt now.toDateTime threshold n summary) s r es t)
    (hes : ∀ e ∈ es, e.succeeded = true) : (∃ summary', r = .ok summary' ∧ summary'.failures = summary.failures) ∧
      IdleChecked now threshold n s.world t.world es := by
  obtain ⟨start,hstart⟩ := windowStart_clock now
  have hformat : Ttl.rfc3339 now.toDateTime = .ok (strftime now.toDateTime) := by
    rw [Ttl.rfc3339,now.rfc3339.1]
  obtain ⟨points,u,xs,ys,h1,h2,rfl⟩ := h.bind_settles (networkOut_settles hstart) hes
  have hys : ∀ e ∈ ys, e.succeeded = true := fun e he => hes e (List.mem_append_right _ he)
  obtain ⟨hw,hxs,hp⟩ := networkOut_cases hstart h1 fun e he => hes e (List.mem_append_left _ he)
  have halerts : alerts u.world now.toDateTime threshold n = shouldAlert (idleBytes points) threshold
      (tagValue n.2 tagAlerted) now.toDateTime (tagValue n.2 tagLaunched) := by
    rw [alerts,sentBytes,hstart,hw,Except.ok.inj hp]
    simp [hrunning]
  rw [← hw]
  split at h2
  · rename_i hs
    rw [hformat] at h2
    obtain ⟨_,v,ys,zs,h3,h4,rfl⟩ := h2.bind_settles (Settles.total _) hys
    obtain ⟨stamp,v',zs,ws,h5,h6,rfl⟩ := h4.bind_settles (Settles.pure _)
      fun e he => hys e (List.mem_append_right _ he)
    obtain ⟨hstamp,rfl,rfl⟩ := Steps.pure_iff.mp h5
    obtain rfl := Except.ok.inj hstamp
    have hws : ∀ e ∈ ws, e.succeeded = true := fun e he => hys e (List.mem_append_right _ he)
    obtain ⟨_,v',ws,vs,h7,h8,rfl⟩ := h6.bind_settles (Settles.call _ _) hws
    obtain ⟨rfl,rfl,rfl⟩ := Steps.pure_iff.mp h8
    refine ⟨⟨_,rfl,rfl⟩,fun hf => ?_,fun _ => ?_⟩
    · rw [halerts,hs] at hf
      cases hf
    · have hquiet := (((publish_only rt _).total (X := Exn)).mono fun _ => Call.notifies_quiet) h3
      rw [stampTag_nodes h7 fun e he => hws e (List.mem_append_left _ he),h3.world,
        (replay_quiet env hquiet u.world).nodes]
  · rename_i hs
    obtain ⟨rfl,rfl,rfl⟩ := Steps.pure_iff.mp h2
    rw [List.append_nil]
    refine ⟨⟨_,rfl,rfl⟩,fun _ => ⟨rfl,hxs⟩,fun ht => ?_⟩
    rw [halerts] at ht
    exact absurd ht hs

theorem idleStep_clean {now : WallClock} {threshold : ℤ} {n : Node} {summary summary' : Summary}
    (h : Steps env.service (idleStep rt now.toDateTime (some threshold) n summary) s (.ok summary') es t)
    (hes : ∀ e ∈ es, e.succeeded = true) : summary'.failures = summary.failures ∧
      IdleChecked now threshold n s.world t.world es := by
  rw [idleStep] at h
  split at h
  · rename_i hstate
    obtain ⟨hv,rfl,rfl⟩ := Steps.pure_iff.mp h
    cases hv
    refine ⟨rfl,fun _ => ⟨rfl,by simp⟩,?_⟩
    simp [alerts,hstate]
  · rename_i hstate
    obtain ⟨v,u,xs,ys,h1,h2,rfl⟩ := h.bind_attempt
    obtain ⟨⟨summary₁,rfl,hf⟩,hchecked⟩ := idleCheck_clean (not_not.mp hstate) h1
      fun e he => hes e (List.mem_append_left _ he)
    obtain ⟨hv,rfl,rfl⟩ := Steps.pure_iff.mp h2
    cases hv
    rw [List.append_nil]
    exact ⟨hf,hchecked⟩

/-- The check of the only node: at most it is stamped, and then it is silent. -/
theorem checkCandidate_clean {now : WallClock} {threshold : Option ℤ} {readable : Bool}
    {pointer : Option Pointer} {n : Node} {summary summary' : Summary}
    (h : Steps env.service (checkCandidate rt now.toDateTime threshold readable pointer (some n) summary) s
      (.ok summary') es t) (hes : ∀ e ∈ es, e.succeeded = true) (hn : s.world.nodes = [n]) :
    summary'.failures = summary.failures ∧
      (∃ n', t.world.nodes = [n'] ∧ (n' = n ∨ n' = alertStamp now n) ∧
        ∀ k, threshold = some k → alerts t.world now.toDateTime k n' = false) ∧
      (untracked pointer n.2.instanceId = false →
        (∀ k, threshold = some k → alerts s.world now.toDateTime k n = false) →
        ∀ e ∈ es, measures e.call = true) := by
  obtain ⟨summary₁,u,xs,ys,h1,h2,rfl⟩ := h.bind_total
  obtain ⟨-,hf₁,hquiet⟩ := orphanCheck_cases h1
  have hsame := replay_quiet env (fun e he => Call.notifies_quiet (orphanCheck_only rt _ _ _ _ h1 e he)) s.world
  rw [← h1.world] at hsame
  have hu : u.world.nodes = [n] := hsame.nodes.trans hn
  have hmetrics : t.world.metrics = u.world.metrics := by rw [h2.world,replay_metrics]
  cases threshold with
  | none =>
    obtain ⟨hv,rfl,rfl⟩ := Steps.pure_iff.mp h2
    cases hv
    refine ⟨hf₁,⟨n,hu,Or.inl rfl,by simp⟩,?_⟩
    intro htracked _
    rw [hquiet htracked]
    simp
  | some k =>
    obtain ⟨hf₂,hchecked⟩ := idleStep_clean h2 fun e he => hes e (List.mem_append_right _ he)
    refine ⟨hf₂.trans hf₁,?_,?_⟩
    · cases ha : alerts u.world now.toDateTime k n with
      | false =>
        obtain ⟨hw,-⟩ := hchecked.quiet ha
        rw [hw]
        refine ⟨n,hu,Or.inl rfl,?_⟩
        rintro _ ⟨⟩
        exact ha
      | true =>
        refine ⟨alertStamp now n,?_,Or.inr rfl,?_⟩
        · rw [hchecked.stamps ha,hu,List.map_singleton,stamped,if_pos ⟨rfl,List.mem_singleton_self _⟩]
          rfl
        · rintro _ ⟨⟩
          exact alerts_alertStamp _ _ _ _
    · intro htracked hsilent
      rw [hquiet htracked,List.nil_append]
      refine (hchecked.quiet ?_).2
      rw [alerts_congr hsame.metrics]
      exact hsilent k rfl

end

end ShardVPN.Watchdog
