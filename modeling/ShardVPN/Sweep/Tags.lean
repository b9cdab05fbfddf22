import ShardVPN.Sweep.Isolation
import ShardVPN.Sweep.Stamps
import Mathlib.Algebra.BigOperators.Group.List.Basic
import Mathlib.Algebra.Ring.Rat

/-! # The tags a sweep leaves

A sweep changes one tag of one instance at most: the stamp of the node it alerts
about. The stamp is the second of the alert, which bounds when the next one is due.
-/
namespace ShardVPN
open Effect Ec2ops Watchdog

/-- The tags of the instance with a region and an id. -/
def World.tagsOf (w : World) (key : Text × Text) : Option (List Tag) :=
  (w.instances.find? (fun n => decide (n.key = key))).map (fun n => n.2.tags)

theorem key_of_find {nodes : List Node} {key : Text × Text} {n : Node}
    (h : nodes.find? (fun n => decide (n.key = key)) = some n) : n.key = key := by
  simpa using List.find?_some h

theorem tagsOf_node {w : World} {n : Node} (hn : n ∈ w.nodes) : w.tagsOf n.key = some n.2.tags := by
  have hmem : n ∈ w.instances := (List.mem_filter.mp hn).1
  unfold World.tagsOf
  cases hf : w.instances.find? (fun m => decide (m.key = n.key)) with
  | none => exact absurd (decide_eq_true rfl) (List.find?_eq_none.mp hf n hmem)
  | some m =>
    have hkey : m.key = n.key := key_of_find hf
    have hid : m.2.instanceId = n.2.instanceId := (Prod.mk.inj hkey).2
    rw [List.inj_on_of_nodup_map w.ids_nodup (List.mem_of_find?_eq_some hf) hmem hid]
    rfl

theorem tagValue_congr {i j : Instance} (h : i.tags = j.tags) (key : Text) : tagValue i key = tagValue j key := by
  unfold tagValue
  rw [h]

/-- The calls that neither stamp nor launch. -/
def Call.keepsTags : Call → Bool
  | .createTags .. => false
  | .runInstances .. => false
  | _ => true

theorem tagsOf_mapInstances (w : World) (f : Text → Instance → Instance)
    (hf : ∀ r i, (f r i).instanceId = i.instanceId) (key : Text × Text) :
    (w.mapInstances f hf).tagsOf key =
      (w.instances.find? (fun n => decide (n.key = key))).map (fun n => (f n.1 n.2).tags) := by
  have hkey : ((fun n : Node => decide (n.key = key)) ∘ fun n => (n.1,f n.1 n.2)) =
      fun n : Node => decide (n.key = key) := by
    funext n
    apply decide_eq_decide.mpr
    unfold Node.key
    rw [hf]
  unfold World.tagsOf World.mapInstances
  rw [List.find?_map,hkey,Option.map_map]
  rfl

theorem Env.effect_tagsOf (env : Env) {c : Call} (hc : c.keepsTags = true) (w : World) (key : Text × Text) :
    (env.effect c w).tagsOf key = w.tagsOf key := by
  cases c with
  | createTags => cases hc
  | runInstances => cases hc
  | terminateInstances r ids =>
    refine (tagsOf_mapInstances w _ _ key).trans ?_
    unfold World.tagsOf
    congr 1
    funext n
    split <;> rfl
  | _ => rfl

theorem replay_tagsOf (env : Env) {es : List Event} (hes : ∀ e ∈ es, e.call.keepsTags = true) (w : World)
    (key : Text × Text) : (env.service.replay w es).tagsOf key = w.tagsOf key :=
  Service.replay_rel (R := fun v w : World => w.tagsOf key = v.tagsOf key) (fun _ => rfl)
    (fun _ _ _ h k => k.trans h) (Q := fun c => c.keepsTags = true)
    (fun _ w hc => env.effect_tagsOf hc w key) hes w

theorem tagsOf_stamp_of_ne (env : Env) (w : World) (now : Time.DateTime) {n : Node} {key : Text × Text}
    (h : key ≠ n.key) : (env.effect (stampCall now n) w).tagsOf key = w.tagsOf key := by
  refine (tagsOf_mapInstances w _ _ key).trans ?_
  unfold World.tagsOf
  cases hf : w.instances.find? (fun m => decide (m.key = key)) with
  | none => rfl
  | some m =>
    have hkey : m.key = key := key_of_find hf
    have hne : ¬(m.1 = n.1 ∧ m.2.instanceId ∈ [n.2.instanceId]) := by
      rintro ⟨hregion,hid⟩
      exact h (hkey.symm.trans (Prod.ext hregion (List.mem_singleton.mp hid)))
    rw [Option.map_some,Option.map_some,if_neg hne]

/-- A stamp that takes effect is what the instance then carries. -/
theorem tagsOf_stamp_self (env : Env) (w : World) (now : Time.DateTime) {n : Node} {tags : List Tag}
    (h : w.tagsOf n.key = some tags) : ∃ i : Instance, (env.effect (stampCall now n) w).tagsOf n.key = some i.tags ∧
      tagValue i tagAlerted = some (Time.strftime now) := by
  have heffect := tagsOf_mapInstances w (fun s i => if s = n.1 ∧ i.instanceId ∈ [n.2.instanceId] then
    [⟨tagAlerted,Time.strftime now⟩].foldl Instance.setTag i else i)
    (fun _ _ => by split <;> simp) n.key
  unfold World.tagsOf at h
  cases hf : w.instances.find? (fun m => decide (m.key = n.key)) with
  | none =>
    rw [hf] at h
    cases h
  | some m =>
    have hkey : m.key = n.key := key_of_find hf
    have hmatch : m.1 = n.1 ∧ m.2.instanceId ∈ [n.2.instanceId] :=
      ⟨(Prod.mk.inj hkey).1,List.mem_singleton.mpr (Prod.mk.inj hkey).2⟩
    rw [hf,Option.map_some,if_pos hmatch] at heffect
    exact ⟨m.2.setTag ⟨tagAlerted,Time.strftime now⟩,heffect,tagValue_setTag_self m.2 _⟩

end ShardVPN

namespace ShardVPN.Watchdog
open Effect Ec2ops Settings Time

section
variable {rt : Runtime} {env : Env} {s t : State} {es before : List Event} {w : World} {n : Node}

theorem scanSeen_nodes {region : Text} {i : Instance} (h : i ∈ (scanSeen env before w region).nodes) :
    (region,i) ∈ w.nodes := by
  unfold scanSeen at h
  cases hreply : env.service.reply before w (scanCall region) with
  | ok reservations =>
    rw [hreply] at h
    obtain rfl := Except.ok.inj (Service.reply_ok hreply).1
    have hperm := env.reservations_perm region (Action.occurrences (scanCall region) before)
      ((w.instancesIn region).filter (fun i => matchesAll i.filterValues nodeFilters))
    have hmem := hperm.mem_iff.mp h
    simp only [matchesAll_nodeFilters] at hmem
    exact mem_nodesIn.mp hmem
  | error e =>
    rw [hreply] at h
    cases h

/-- What a sweep found is live, in a region that was listed. -/
theorem foundNodes_seen {now : DateTime} (h : n ∈ remaining now (scansSeen rt env before w)) :
    n ∈ w.nodes ∧ ∃ regions, regionsSeen rt env before w = .ok regions ∧ n.1 ∈ regions := by
  have hfound := (List.mem_filter.mp h).1
  unfold scansSeen at hfound
  cases hregions : regionsSeen rt env before w with
  | error e =>
    rw [hregions] at hfound
    cases hfound
  | ok regions =>
    rw [hregions] at hfound
    obtain ⟨x,hx,hn⟩ := List.mem_flatMap.mp hfound
    obtain ⟨region,hregion,rfl⟩ := List.mem_map.mp hx
    obtain ⟨i,hi,rfl⟩ := List.mem_map.mp hn
    rw [scanSeen_region]
    exact ⟨scanSeen_nodes hi,regions,rfl,hregion⟩

theorem keptNode_mem {survivors : List Node} (h : keptNode survivors = some n) : n ∈ survivors := by
  unfold keptNode at h
  by_cases ho : (orderSurvivors survivors).2 = true
  · rw [if_pos ho] at h
    exact (orderSurvivors_ordered ho).1.mem_iff.mp (List.mem_of_head? h)
  · rw [if_neg ho] at h
    cases h

/-- The node a sweep looks after is live. -/
theorem keptSeen_mem {now : DateTime} (h : keptSeen rt env before w now = some n) : n ∈ w.nodes :=
  (foundNodes_seen (keptNode_mem h)).1

end

/-! ## When an alert is due -/

/-- A stamp that holds no alert back: it is missing, malformed or a day old. -/
def Elapsed (stamp : Option Text) (now : DateTime) : Prop :=
  ∀ t, stamp.bind parseRfc3339 = some t → alertInterval ≤ now.instant - t.instant

theorem shouldAlert_iff {bytes threshold : ℤ} {lastAlert launchedAt : Option Text} {now : DateTime} :
    shouldAlert bytes threshold lastAlert now launchedAt = true ↔
      bytes < threshold ∧ Elapsed launchedAt now ∧ Elapsed lastAlert now := by
  have hyoung : isYoung launchedAt now = false ↔ Elapsed launchedAt now := by
    unfold isYoung Elapsed
    cases launchedAt.bind parseRfc3339 <;> simp
  have hdue : isAlertDue lastAlert now = true ↔ Elapsed lastAlert now := by
    unfold isAlertDue Elapsed
    cases lastAlert.bind parseRfc3339 <;> simp
  rw [← hyoung,← hdue,shouldAlert]
  by_cases hbytes : threshold ≤ bytes
  · simp [hbytes]
  · cases isYoung launchedAt now <;> simp [hbytes,Int.not_le.mp hbytes]

/-- The sums are numbers of bytes, with a total that a double holds. -/
structure ByteCounts (points : List Datapoint) : Prop where
  counts : ∀ p ∈ points, ∃ n : ℕ, (n : ℚ) = p.sum
  total : (points.map Datapoint.sum).sum < 2 ^ 53

theorem ByteCounts.idleBytes {points : List Datapoint} (h : ByteCounts points) :
    (idleBytes (points.insertionSort pointLe) : ℚ) = (points.map Datapoint.sum).sum := by
  have hperm := points.perm_insertionSort pointLe
  have hsum := (hperm.map Datapoint.sum).sum_eq
  unfold Watchdog.idleBytes
  rw [Binary64.trunc_sum,hsum]
  · intro x hx
    obtain ⟨p,hp,rfl⟩ := List.mem_map.mp hx
    exact h.counts p (hperm.mem_iff.mp hp)
  · rw [hsum]
    exact h.total

section
variable {rt : Runtime} {env : Env} {s t : State} {es before : List Event} {w : World} {now : WallClock} {n : Node}
  {summary : Summary}

theorem alertBytes_iff {threshold : Option ℤ} {now : DateTime} {bytes : ℤ} :
    alertBytes env before w now threshold n = some bytes ↔ n.2.state = .running ∧ ∃ k start points,
      threshold = some k ∧ windowStart idleWindowHours now = some start ∧
      env.service.reply before w (metricRead now start n) = .ok points ∧
      bytes = idleBytes (points.insertionSort pointLe) ∧
      shouldAlert bytes k (tagValue n.2 tagAlerted) now (tagValue n.2 tagLaunched) = true := by
  constructor
  · intro h
    unfold alertBytes at h
    by_cases hrunning : n.2.state = .running
    · rw [if_pos hrunning] at h
      obtain ⟨k,hk,h⟩ := Option.bind_eq_some_iff.mp h
      obtain ⟨start,hstart,h⟩ := Option.bind_eq_some_iff.mp h
      obtain ⟨points,hpoints,h⟩ := Option.bind_eq_some_iff.mp h
      refine ⟨hrunning,k,start,points,hk,hstart,?_,?_⟩
      · cases hreply : env.service.reply before w (metricRead now start n) with
        | ok found =>
          rw [hreply] at hpoints
          exact congrArg _ (Option.some.inj hpoints)
        | error e =>
          rw [hreply] at hpoints
          cases hpoints
      · split at h
        · rename_i hs
          obtain rfl := Option.some.inj h
          exact ⟨rfl,hs⟩
        · cases h
    · rw [if_neg hrunning] at h
      cases h
  · rintro ⟨hrunning,k,start,points,rfl,hstart,hreply,rfl,hs⟩
    unfold alertBytes
    rw [if_pos hrunning,hstart]
    change ((env.service.reply before w (metricRead now start n)).toOption.bind _) = _
    rw [hreply]
    exact if_pos hs

theorem alertSeen_iff {now : DateTime} {bytes : ℤ} : alertSeen rt env before w now = some (n,bytes) ↔
    keptSeen rt env before w now = some n ∧
      alertBytes env before w now (thresholdSeen rt env before w) n = some bytes := by
  unfold alertSeen
  constructor
  · intro h
    obtain ⟨m,hm,h⟩ := Option.bind_eq_some_iff.mp h
    obtain ⟨b,hb,h⟩ := Option.bind_eq_some_iff.mp h
    obtain ⟨rfl,rfl⟩ := Prod.mk.inj (Option.some.inj h)
    exact ⟨hm,hb⟩
  · rintro ⟨hkept,hbytes⟩
    rw [hkept]
    change (alertBytes env before w now (thresholdSeen rt env before w) n).bind _ = _
    rw [hbytes]
    rfl

/-- A sweep hands SNS an idle message about the instance it looks after. -/
def AlertsAbout (rt : Runtime) (env : Env) (now : DateTime) (s : State) (key : Text × Text) : Prop :=
  ∃ n bytes, keptSeen rt env s.trace s.world now = some n ∧ n.key = key ∧
    ∃ e ∈ sweepEvents rt now env s, e.call = publishCall rt (idleMessage n bytes)

/-- A sweep attempts an alert: the idle message, if there is a topic for it, and the stamp. -/
def AttemptsAlert (rt : Runtime) (env : Env) (now : DateTime) (s : State) (n : Node) : Prop :=
  ∃ bytes, (rt.topicArn ≠ [] → ∃ e ∈ sweepEvents rt now env s, e.call = publishCall rt (idleMessage n bytes)) ∧
    ∃ e ∈ sweepEvents rt now env s, e.call = stampCall now n

theorem alertSeen_of_call (h : Steps env.service (sweep rt now.toDateTime) s (.ok summary) es t) {e : Event}
    (he : e ∈ es) (hconcerns : concernsIdle e.call = true) (hmeasures : measures e.call = false)
    (hkept : keptSeen rt env s.trace s.world now.toDateTime = some n) :
    ∃ bytes, alertSeen rt env s.trace s.world now.toDateTime = some (n,bytes) := by
  obtain ⟨xs,idle,ys,rfl,hothers,hidle⟩ := sweep_alert h
  rcases hidle with ⟨-,hmeasured,-⟩ | ⟨m,bytes,-,hsome,-,-,-⟩
  · rw [hmeasured e (mem_of_concernsIdle hothers he hconcerns)] at hmeasures
    cases hmeasures
  · obtain rfl := Option.some.inj ((alertSeen_iff.mp hsome).1.symm.trans hkept)
    exact ⟨bytes,hsome⟩

theorem AlertsAbout.seen {key : Text × Text} (h : AlertsAbout rt env now.toDateTime s key) :
    ∃ n bytes, alertSeen rt env s.trace s.world now.toDateTime = some (n,bytes) ∧ n.key = key := by
  obtain ⟨n,b,hkept,hkey,e,he,hc⟩ := h
  obtain ⟨bytes,hsome⟩ := alertSeen_of_call (sweepEvents_steps rt now.toDateTime env s) he
    (by rw [hc]; exact looksIdle_idleMessage n b) (by rw [hc]; rfl) hkept
  exact ⟨n,bytes,hsome,hkey⟩

theorem attemptsAlert_iff (hkept : keptSeen rt env s.trace s.world now.toDateTime = some n) :
    AttemptsAlert rt env now.toDateTime s n ↔
      ∃ bytes, alertSeen rt env s.trace s.world now.toDateTime = some (n,bytes) := by
  have h := sweepEvents_steps rt now.toDateTime env s
  constructor
  · rintro ⟨-,-,e,he,hc⟩
    exact alertSeen_of_call h he (by rw [hc]; rfl) (by rw [hc]; rfl) hkept
  · rintro ⟨bytes,hsome⟩
    obtain ⟨xs,idle,ys,hes,-,hidle⟩ := sweep_alert h
    rcases hidle with ⟨hnone,-,-⟩ | ⟨n',bytes',m,hsome',-,hidle,-⟩
    · rw [hsome] at hnone
      cases hnone
    · obtain ⟨rfl,rfl⟩ := Prod.mk.inj (Option.some.inj (hsome.symm.trans hsome'))
      unfold AttemptsAlert
      rw [hes,hidle]
      refine ⟨bytes,fun htopic => ?_,?_⟩
      · have hpublished : env.service.event s.trace s.world (publishCall rt (idleMessage n bytes)) ∈
            publishEvents rt env s.trace s.world (idleMessage n bytes) := mem_publishEvents.mpr ⟨htopic,rfl⟩
        exact ⟨env.service.event s.trace s.world (publishCall rt (idleMessage n bytes)),by simp [hpublished],
          Service.event_call _ _ _⟩
      · exact ⟨env.service.event s.trace s.world (stampCall now.toDateTime n),by simp,Service.event_call _ _ _⟩

/-- The stamps of a sweep take effect. -/
def Stamped (es : List Event) : Prop :=
  ∀ e ∈ es, ∀ region instanceIds tags, e.call = .createTags region instanceIds tags → e.effective = true

/-- The tags of an instance after a sweep: those it had, or those of an alert at that time. -/
theorem sweep_tags (h : Steps env.service (sweep rt now.toDateTime) s (.ok summary) es t) (hstamped : Stamped es)
    (key : Text × Text) :
    (t.world.tagsOf key = s.world.tagsOf key ∧
        ∀ n bytes, alertSeen rt env s.trace s.world now.toDateTime = some (n,bytes) → n.key ≠ key) ∨
      ∃ i : Instance, t.world.tagsOf key = some i.tags ∧ tagValue i tagAlerted = some (strftime now.toDateTime) := by
  have hlaunch : ∀ e ∈ es, ∀ region request, e.call ≠ .runInstances region request :=
    sweep_only (Q := fun c => ∀ region request, c ≠ .runInstances region request)
      (fun c hc region request => by rintro rfl; cases hc) (fun c hc region request => by rintro rfl; cases hc)
      (by simp) (by simp [pointerWrite]) now.toDateTime h
  have hkeeps : ∀ e ∈ es, (∀ region instanceIds tags, e.call ≠ .createTags region instanceIds tags) →
      e.call.keepsTags = true := by
    intro e he hstamp
    have hrun := hlaunch e he
    cases hc : e.call with
    | createTags region instanceIds tags => exact absurd hc (hstamp region instanceIds tags)
    | runInstances region request => exact absurd hc (hrun region request)
    | _ => rfl
  have hunstamped : ∀ e ∈ es, concernsIdle e.call = false → e.call.keepsTags = true := by
    intro e he hc
    refine hkeeps e he fun region instanceIds tags hstamp => ?_
    rw [hstamp] at hc
    cases hc
  have hmeasured : ∀ e ∈ es, measures e.call = true → e.call.keepsTags = true := by
    intro e he hc
    refine hkeeps e he fun region instanceIds tags hstamp => ?_
    rw [hstamp] at hc
    cases hc
  rw [h.world]
  obtain ⟨xs,idle,ys,rfl,hothers,hidle⟩ := sweep_alert h
  have hxs : ∀ e ∈ xs, e.call.keepsTags = true := fun e he =>
    hunstamped e (List.mem_append_left _ he) (hothers e (List.mem_append_left _ he))
  have hys : ∀ e ∈ ys, e.call.keepsTags = true := fun e he =>
    hunstamped e (List.mem_append_right _ (List.mem_append_right _ he)) (hothers e (List.mem_append_right _ he))
  rw [Service.replay_append,Service.replay_append,replay_tagsOf env hys]
  rcases hidle with ⟨hnone,hmeasures,-⟩ | ⟨n,bytes,m,hsome,hm,rfl,-⟩
  · left
    rw [hnone]
    refine ⟨?_,by simp⟩
    have hin : ∀ e ∈ idle, e.call.keepsTags = true := fun e he =>
      hmeasured e (List.mem_append_right _ (List.mem_append_left _ he)) (hmeasures e he)
    rw [replay_tagsOf env hin,replay_tagsOf env hxs]
  · have heffective : (env.service.event s.trace s.world (stampCall now.toDateTime n)).effective = true :=
      hstamped _ (by simp) n.1 [n.2.instanceId] _ (Service.event_call _ _ _)
    have hbefore : ∀ e ∈ m :: publishEvents rt env s.trace s.world (idleMessage n bytes),
        e.call.keepsTags = true := by
      intro e he
      rcases List.mem_cons.mp he with rfl | he
      · exact hmeasured e (by simp) hm
      · rw [(mem_publishEvents.mp he).2,Service.event_call]
        rfl
    rw [← List.cons_append,Service.replay_append,Service.replay_cons,Service.replay_nil,if_pos heffective,
      Service.event_call]
    by_cases hkey : key = n.key
    · right
      subst hkey
      have htags := tagsOf_node (keptSeen_mem (alertSeen_iff.mp hsome).1)
      rw [← replay_tagsOf env hxs,← replay_tagsOf env hbefore] at htags
      exact tagsOf_stamp_self env _ now.toDateTime htags
    · left
      refine ⟨?_,?_⟩
      · refine (tagsOf_stamp_of_ne env _ _ hkey).trans ?_
        rw [replay_tagsOf env hbefore,replay_tagsOf env hxs]
      · intro n' bytes' hsome'
        obtain ⟨rfl,-⟩ := Prod.mk.inj (Option.some.inj (hsome.symm.trans hsome'))
        exact Ne.symm hkey

end

end ShardVPN.Watchdog
