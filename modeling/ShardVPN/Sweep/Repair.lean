import ShardVPN.Sweep.Idle
import ShardVPN.Sweep.Reconciliation
import ShardVPN.Sweep.Sight

/-! # A sweep repairs any drift

When every call of a sweep succeeds, at most one node is left, not overdue and
newest among the nodes found, and the pointer names it. Another sweep at the same
instant then only reads, or reports that the idle threshold is no integer.
-/
namespace ShardVPN.Watchdog
open Effect Ec2ops Settings Time

/-- The nodes that are not overdue. -/
def unexpired (now : DateTime) (w : World) : List Node := w.nodes.filter (fun n => !overdue now n)

theorem Cull.eq_nil {rt : Runtime} {reason : Reason} {nodes : List Node} {a b : Summary} {es : List Event}
    (h : Cull rt reason nodes a es b) (hnodes : nodes = []) : es = [] := by
  subst hnodes
  cases h
  rfl

theorem Deduplicated.eq_nil {rt : Runtime} {survivors : List Node} {a b : Summary} {es : List Event}
    {candidate : Option Node} (h : Deduplicated rt survivors a es candidate b)
    (ho : (orderSurvivors survivors).2 = true) (hsurplus : surplus survivors = []) : es = [] := by
  exact (h.culls ho).2.eq_nil hsurplus

theorem Reconciled.eq_nil {rt : Runtime} {decision : Option (Option Pointer)} {a b : Summary} {es : List Event}
    (h : Reconciled rt decision a es b) (hd : decision = none) : es = [] ∧ b = a := by
  cases h with
  | unchanged _ => exact ⟨rfl,rfl⟩
  | wrote hw =>
    rw [hd] at hw
    cases hw
  | failed hw =>
    rw [hd] at hw
    cases hw

theorem Reconciled.stored {rt : Runtime} {env : Env} {p : Option Pointer} {candidate : Option Node}
    {summary summary' : Summary} {es : List Event} {w : World}
    (h : Reconciled rt (reconciled p candidate []) summary es summary') (hes : ∀ e ∈ es, e.succeeded = true)
    (hstored : storedPointer rt w = .ok p)
    (hscalar : ∀ n ∈ candidate, Scalar n.1 ∧ Scalar n.2.instanceId)
    (hconsistent : ∀ q n, p = some q → candidate = some n → q.instanceId = .str n.2.instanceId → q = pointerTo n) :
    storedPointer rt (env.service.replay w es) = .ok (candidate.map pointerTo) := by
  cases h with
  | unchanged hd =>
    refine hstored.trans (congrArg Except.ok ?_)
    cases candidate with
    | none =>
      cases p with
      | none => rfl
      | some q => cases hd
    | some n =>
      cases p with
      | none => cases hd
      | some q =>
        by_cases hid : q.instanceId = .str n.2.instanceId
        · rw [hconsistent q n rfl rfl hid]
          rfl
        · simp [reconciled,untracked,hid] at hd
  | @wrote value hd =>
    refine (storedPointer_write env rt value w).trans ?_
    cases value with
    | none =>
      rw [(reconciled_clear.mp hd).1]
      rfl
    | some q =>
      obtain ⟨n,rfl,-,rfl⟩ := reconciled_adopt.mp hd
      obtain ⟨hregion,hid⟩ := hscalar n rfl
      exact decode_pointerTo hregion hid
  | failed _ => cases hes _ (List.mem_singleton_self _)

/-! ## A run whose calls succeed -/

namespace SweepRun
variable {rt : Runtime} {env : Env} {now : WallClock} {threshold : Option ℤ}
  {pointer : Except Exn (Option Pointer)} {regions : List Text} {w : World} {summary summary' : Summary}
  {es : List Event} (x : SweepRun rt env now.toDateTime threshold pointer regions w summary summary' es)

theorem scan_reads : ∀ e ∈ x.scanEvents, e.call.reads = true := by
  intro e he
  obtain ⟨y,-,hy⟩ := (forall₂_mem x.scan).2 e he
  rw [hy.call]
  rfl

/-- The worlds between the phases. -/
theorem replay_events : env.service.replay w es = env.service.replay (env.service.replay
    (env.service.replay w (x.reapEvents ++ x.dedupEvents)) x.checkEvents)
      (x.reconcileEvents ++ x.notifyEvents) := by
  refine (congrArg (env.service.replay w) x.events).trans ?_
  simp only [Service.replay_append,replay_reads env x.scan_reads]

include x in
theorem written_calls : ∀ e ∈ es, e.call.keepsParameters = true ∨ ∃ value, e.call = pointerWrite rt value := by
  intro e he
  have he' := (congrArg (e ∈ ·) x.events).mp he
  simp only [List.mem_append] at he'
  rcases he' with he | he | he | he | he | he
  · exact Or.inl (x.scan_keepsParameters e he)
  · exact Or.inl (x.reap.calls e he).2.1
  · exact Or.inl (x.dedup.calls e he).2.1
  · exact Or.inl (keepsParameters_of_inspects (x.check_inspects e he))
  · rcases x.reconcile with ⟨-,-,h⟩ | ⟨-,h,-⟩
    · exact Or.inr (h.calls e he)
    · rw [h] at he
      cases he
  · exact Or.inl (Call.quiet_keepsParameters (Call.notifies_quiet (x.notify_notifies e he)))

theorem ordered_split (ho : (orderSurvivors x.survivors).2 = true) :
    (orderSurvivors x.survivors).1 = x.candidate.toList ++ surplus x.survivors := by
  rw [x.candidate_eq ho,surplus,if_pos ho]
  cases (orderSurvivors x.survivors).1 <;> rfl

section
variable (hes : ∀ e ∈ es, e.succeeded = true)
include hes

theorem succeeded : ∀ e ∈ x.scanEvents ++ (x.reapEvents ++ (x.dedupEvents ++ (x.checkEvents ++
    (x.reconcileEvents ++ x.notifyEvents)))), e.succeeded = true := by
  intro e he
  exact hes e ((congrArg (e ∈ ·) x.events).mpr he)

theorem scan_errors : ∀ y ∈ x.scanned, y.error = none := by
  intro y hy
  obtain ⟨e,he,hye⟩ := (forall₂_mem x.scan).1 y hy
  have hok := x.succeeded hes e (List.mem_append_left _ he)
  rw [hye.succeeded] at hok
  exact Option.isNone_iff_eq_none.mp hok

theorem scanFailedRegions_nil : scanFailedRegions x.scanned = [] := by
  rw [scanFailedRegions,List.map_eq_nil_iff,List.filter_eq_nil_iff]
  intro y hy
  simp [x.scan_errors hes y hy]

theorem scanFailures_nil : scanFailures x.scanned = [] := by
  rw [scanFailures,List.filterMap_eq_nil_iff]
  intro y hy
  rw [x.scan_errors hes y hy]
  rfl

/-- Steps 1 and 2 remove the overdue nodes and the surplus, and record no failure. -/
theorem culled (ho : (orderSurvivors x.survivors).2 = true) :
    removed (x.reapEvents ++ x.dedupEvents) = (x.expiredNodes ++ surplus x.survivors).map Node.key ∧
      x.afterDedup.failures = summary.failures := by
  have hreap : ∀ e ∈ x.reapEvents, e.succeeded = true := fun e he => x.succeeded hes e (by simp [he])
  have hdedup : ∀ e ∈ x.dedupEvents, e.succeeded = true := fun e he => x.succeeded hes e (by simp [he])
  obtain ⟨hr,hf⟩ := x.reap.clean hreap
  obtain ⟨hr',hf'⟩ := (x.dedup.culls ho).2.clean hdedup
  refine ⟨by rw [removed_append,hr,hr',List.map_append]; rfl,?_⟩
  rw [hf',hf,recordScan,x.scanFailures_nil hes,List.append_nil]

section
variable (hregions : regions.Nodup) (hnodes : ∀ n ∈ w.nodes, n.1 ∈ regions)
include hregions hnodes

theorem found_all : x.found.Perm w.nodes := by
  refine (x.found_perm hregions).trans (List.Perm.of_eq (List.filter_eq_self.mpr ?_))
  intro n hn
  have hr := hnodes n hn
  rw [← x.scanned_regions] at hr
  obtain ⟨y,hy,hyr⟩ := List.mem_map.mp hr
  rw [x.scannedOk_events,← hyr]
  exact (scannedOk_iff x.scan (by rwa [x.scanned_regions]) hy).mpr (x.scan_errors hes y hy)

theorem survivors_all : x.survivors.Perm (unexpired now.toDateTime w) := by
  have heq : expired now.toDateTime = overdue now.toDateTime := funext (expired_eq_overdue _)
  rw [survivors,heq]
  exact (x.found_all hes hregions hnodes).filter _

theorem nodes_split (ho : (orderSurvivors x.survivors).2 = true) :
    w.nodes.Perm ((x.expiredNodes ++ surplus x.survivors) ++ x.candidate.toList) := by
  have hparts : x.found.Perm (x.expiredNodes ++ x.survivors) :=
    (List.filter_append_perm (expired now.toDateTime) x.found).symm
  have hordered := (orderSurvivors_ordered ho).1
  rw [x.ordered_split ho] at hordered
  refine (x.found_all hes hregions hnodes).symm.trans (hparts.trans ?_)
  rw [List.append_assoc]
  exact (hordered.symm.trans List.perm_append_comm).append_left _

/-- What steps 1 and 2 leave is the candidate. -/
theorem nodes_culled (ho : (orderSurvivors x.survivors).2 = true) :
    (env.service.replay w (x.reapEvents ++ x.dedupEvents)).nodes = x.candidate.toList := by
  have hcalls : ∀ e ∈ x.reapEvents ++ x.dedupEvents, e.call.onlyRemoves = true := by
    intro e he
    rcases List.mem_append.mp he with he | he
    · exact (x.reap.calls e he).1
    · exact (x.dedup.calls e he).1
  rw [replay_nodes env hcalls,(x.culled hes ho).1]
  have hsplit := x.nodes_split hes hregions hnodes ho
  have hnodup := (hsplit.map Node.key).nodup_iff.mp (nodes_nodup w)
  rw [List.map_append] at hnodup
  have hgone : (x.expiredNodes ++ surplus x.survivors).filter (fun n =>
      !decide (n.key ∈ (x.expiredNodes ++ surplus x.survivors).map Node.key)) = [] := by
    rw [List.filter_eq_nil_iff]
    intro n hn
    rw [decide_eq_true (List.mem_map_of_mem hn)]
    exact Bool.false_ne_true
  have hkept : x.candidate.toList.filter (fun n =>
      !decide (n.key ∈ (x.expiredNodes ++ surplus x.survivors).map Node.key)) = x.candidate.toList := by
    rw [List.filter_eq_self]
    intro n hn
    have hdisjoint := (List.nodup_append.mp hnodup).2.2
    simpa using fun hk => hdisjoint _ hk _ (List.mem_map_of_mem hn) rfl
  have hfilter := hsplit.filter (fun n => !decide (n.key ∈ (x.expiredNodes ++ surplus x.survivors).map Node.key))
  rw [List.filter_append,hgone,hkept,List.nil_append] at hfilter
  cases hc : x.candidate with
  | none =>
    rw [hc] at hfilter
    exact hfilter.eq_nil
  | some n =>
    rw [hc] at hfilter
    exact List.perm_singleton.mp hfilter

/-- Step 3 keeps the candidate, perhaps stamped. -/
theorem checked (ho : (orderSurvivors x.survivors).2 = true) : ∃ kept,
    (env.service.replay w es).nodes = kept.toList ∧ x.afterCheck.failures = summary.failures ∧
      Option.Rel (fun n n' => n' = n ∨ n' = alertStamp now n) x.candidate kept ∧
      (∀ k, threshold = some k → ∀ n ∈ kept,
        alerts (env.service.replay w es) now.toDateTime k n = false) ∧
      ((∀ n ∈ x.candidate, untracked pointer.toOption.join n.2.instanceId = false ∧
        ∀ k, threshold = some k → alerts w now.toDateTime k n = false) →
        ∀ e ∈ x.checkEvents, e.call.reads = true) := by
  obtain ⟨hremoved,hfailures⟩ := x.culled hes ho
  have hleft := x.nodes_culled hes hregions hnodes ho
  obtain ⟨u,v,hu,hcheck⟩ := x.check
  have hcalls : ∀ e ∈ x.reconcileEvents ++ x.notifyEvents, e.call.onlyRemoves = true ∧ e.call.terminates = false := by
    intro e he
    rcases List.mem_append.mp he with he | he
    · exact ⟨(x.reconcile_calls e he).2.2,(x.reconcile_calls e he).1⟩
    · have hquiet := Call.notifies_quiet (x.notify_notifies e he)
      exact ⟨Call.quiet_onlyRemoves hquiet,Call.quiet_terminates hquiet⟩
  have hend : (env.service.replay w es).nodes = v.world.nodes := by
    rw [x.replay_events,← hu,← hcheck.world,replay_nodes env fun e he => (hcalls e he).1,
      removed_eq_nil fun e he => (hcalls e he).2]
    simp
  have hmetrics : (env.service.replay w es).metrics = v.world.metrics := by
    rw [hcheck.world,hu]
    simp only [replay_metrics]
  rw [← hu] at hleft
  cases hc : x.candidate with
  | none =>
    rw [hc] at hcheck hleft
    obtain ⟨hv,hxs,rfl⟩ := Steps.pure_iff.mp hcheck
    refine ⟨none,hend.trans hleft,?_,.none,by simp,by simp [hxs]⟩
    rw [Except.ok.inj hv,hfailures]
  | some n =>
    rw [hc] at hcheck hleft
    obtain ⟨hf,⟨n',hn',hstamp,halerts⟩,hquiet⟩ := checkCandidate_clean hcheck
      (fun e he => x.succeeded hes e (by simp [he])) hleft
    refine ⟨some n',hend.trans hn',hf.trans hfailures,.some hstamp,?_,?_⟩
    · intro k hk m hm
      obtain rfl := Option.some.inj hm
      rw [alerts_congr hmetrics]
      exact halerts k hk
    · intro hsilent e he
      obtain ⟨htracked,hn⟩ := hsilent n rfl
      have hmeasures := hquiet htracked ?_ e he
      · generalize e.call = c at hmeasures
        cases c <;> first | rfl | cases hmeasures
      · intro k hk
        rw [hu,alerts_congr (replay_metrics env w _)]
        exact hn k hk

/-- Step 4 leaves the pointer to the candidate. -/
theorem pointer_after (ho : (orderSurvivors x.survivors).2 = true) {p : Option Pointer} (hpointer : pointer = .ok p)
    (hstored : storedPointer rt w = .ok p) (hscalar : ∀ r ∈ regions, Scalar r)
    (hconsistent : ∀ q, p = some q → ∀ n ∈ w.nodes, q.instanceId = .str n.2.instanceId → q = pointerTo n) :
    storedPointer rt (env.service.replay w es) = .ok (x.candidate.map pointerTo) := by
  subst hpointer
  have hmem : ∀ n ∈ x.candidate, n ∈ w.nodes := fun n hc =>
    (x.found_all hes hregions hnodes).mem_iff.mp (List.mem_filter.mp (x.candidate_mem ho hc)).1
  have hbefore : (env.service.replay (env.service.replay w (x.reapEvents ++ x.dedupEvents))
      x.checkEvents).parameters = w.parameters := by
    rw [replay_parameters env fun e he => keepsParameters_of_inspects (x.check_inspects e he),
      replay_parameters env fun e he => ?_]
    rcases List.mem_append.mp he with he | he
    · exact (x.reap.calls e he).2.1
    · exact (x.dedup.calls e he).2.1
  have hnotify : ∀ v : World, (env.service.replay v x.notifyEvents).parameters = v.parameters := fun v =>
    replay_parameters env (fun e he => Call.quiet_keepsParameters (Call.notifies_quiet (x.notify_notifies e he))) v
  rcases x.reconcile with ⟨-,-,h⟩ | ⟨hn,-⟩
  · rw [x.scanFailedRegions_nil hes] at h
    rw [x.replay_events,Service.replay_append,storedPointer,hnotify]
    refine h.stored (fun e he => x.succeeded hes e (by simp [he])) ?_ ?_ ?_
    · rw [storedPointer,hbefore]
      exact hstored
    · intro n hc
      exact ⟨hscalar n.1 (hnodes n (hmem n hc)),node_scalar (hmem n hc)⟩
    · intro q n hq hc hid
      exact hconsistent q hq n (hmem n hc) hid
  · exact absurd ⟨rfl,ho⟩ hn

/-- One node that is not overdue is the candidate, and no other is given up. -/
theorem settled {kept : Option Node} (hkept : w.nodes = kept.toList)
    (hfresh : ∀ n ∈ kept, overdue now.toDateTime n = false) : (orderSurvivors x.survivors).2 = true ∧
      x.candidate = kept ∧ surplus x.survivors = [] ∧ x.expiredNodes = [] := by
  have hunexpired : unexpired now.toDateTime w = kept.toList := by
    rw [unexpired,hkept,List.filter_eq_self]
    intro n hn
    rw [hfresh n (Option.mem_toList.mp hn)]
    rfl
  have hsurvivors : x.survivors = kept.toList := by
    have hperm := x.survivors_all hes hregions hnodes
    rw [hunexpired] at hperm
    cases kept with
    | none => exact hperm.eq_nil
    | some n => exact List.perm_singleton.mp hperm
  have horder : orderSurvivors x.survivors = (kept.toList,true) := by
    rw [orderSurvivors,hsurvivors,if_pos (by cases kept <;> simp)]
  have ho : (orderSurvivors x.survivors).2 = true := by rw [horder]
  have hcandidate : x.candidate = kept := by
    rw [x.candidate_eq ho,horder]
    cases kept <;> rfl
  have hsurplus : surplus x.survivors = [] := by
    rw [surplus,horder]
    cases kept <;> rfl
  have hlength := (x.nodes_split hes hregions hnodes ho).length_eq
  rw [hkept,hsurplus,hcandidate,List.append_nil,List.length_append] at hlength
  exact ⟨ho,hcandidate,hsurplus,List.eq_nil_of_length_eq_zero (by omega)⟩

include x in
/-- Over one node that is tracked, not overdue and silent, a run only reads and reports the failures it
starts with. -/
theorem reads_only {kept : Option Node} (hkept : w.nodes = kept.toList)
    (hfresh : ∀ n ∈ kept, overdue now.toDateTime n = false) (hpointer : pointer = .ok (kept.map pointerTo))
    (hsilent : ∀ k, threshold = some k → ∀ n ∈ kept, alerts w now.toDateTime k n = false) :
    ∀ e ∈ es, e.call.reads = true ∨ summary.failures ≠ [] ∧ e.call.notifies = true := by
  subst hpointer
  obtain ⟨ho,hcandidate,hsurplus,hexpired⟩ := x.settled hes hregions hnodes hkept hfresh
  have htracked : ∀ n ∈ x.candidate, untracked (kept.map pointerTo) n.2.instanceId = false ∧
      ∀ k, threshold = some k → alerts w now.toDateTime k n = false := by
    intro n hn
    rw [hcandidate] at hn
    refine ⟨?_,fun k hk => hsilent k hk n hn⟩
    rw [Option.mem_def.mp hn]
    simp [untracked,pointerTo]
  have hdecision : reconciled (kept.map pointerTo) x.candidate (scanFailedRegions x.scanned) = none := by
    rw [hcandidate]
    cases kept with
    | none => rfl
    | some n => simp [reconciled,untracked,pointerTo]
  obtain ⟨-,-,hfailures,-,-,hcheck⟩ := x.checked hes hregions hnodes ho
  have hreconcile : x.reconcileEvents = [] ∧ summary' = x.afterCheck := by
    rcases x.reconcile with ⟨-,-,h⟩ | ⟨hn,-⟩
    · exact h.eq_nil hdecision
    · exact absurd ⟨rfl,ho⟩ hn
  have hnotify : summary.failures = [] → x.notifyEvents = [] := by
    intro hclean
    obtain ⟨u,v,h⟩ := x.notify
    have hend := (congrArg Summary.failures hreconcile.2).trans (hfailures.trans hclean)
    rw [notifyFailures,if_pos hend] at h
    exact (Steps.pure_iff.mp h).2.1
  intro e he
  have he' := (congrArg (e ∈ ·) x.events).mp he
  simp only [List.mem_append] at he'
  rcases he' with he | he | he | he | he | he
  · exact .inl (x.scan_reads e he)
  · rw [x.reap.eq_nil hexpired] at he
    cases he
  · rw [x.dedup.eq_nil ho hsurplus] at he
    cases he
  · exact .inl (hcheck htracked e he)
  · rw [hreconcile.1] at he
    cases he
  · refine .inr ⟨fun hclean => ?_,x.notify_notifies e he⟩
    rw [hnotify hclean] at he
    cases he

end

end

end SweepRun

/-! ## The whole sweep -/

/-- The worlds in which a sweep can tell which node to keep, and the pointer is readable
and does not misplace a node. -/
structure Repairable (rt : Runtime) (now : DateTime) (w : World) : Prop where
  enumerated : ∀ n ∈ w.nodes, n.1 ∈ w.regions
  launches : 2 ≤ (unexpired now w).length → ∀ n ∈ unexpired now w, launchTime n ≠ none
  readable : ∃ p, storedPointer rt w = .ok p
  consistent : ∀ p, storedPointer rt w = .ok (some p) → ∀ n ∈ w.nodes, p.instanceId = .str n.2.instanceId →
    p.region = .str n.1

/-- Without a pointer no node is misplaced. -/
theorem repairable_of_pointerless {rt : Runtime} {now : DateTime} {w : World} (hpointer : storedPointer rt w = .ok none)
    (henumerated : ∀ n ∈ w.nodes, n.1 ∈ w.regions)
    (hlaunches : 2 ≤ (unexpired now w).length → ∀ n ∈ unexpired now w, launchTime n ≠ none) : Repairable rt now w := by
  refine ⟨henumerated,hlaunches,⟨none,hpointer⟩,?_⟩
  intro p hp
  rw [hpointer] at hp
  cases hp

/-- What a sweep from `v` to `w` leaves. -/
structure Repaired (rt : Runtime) (now : DateTime) (v w : World) (kept : Option Node) : Prop where
  nodes : w.nodes = kept.toList
  fresh : ∀ n ∈ kept, overdue now n = false
  origin : ∀ n ∈ kept, n.key ∈ (unexpired now v).map Node.key
  newest : ∀ n ∈ kept, Newest (unexpired now v) n
  survivor : kept = none → unexpired now v = []
  pointer : storedPointer rt w = .ok (kept.map pointerTo)

section
variable {rt : Runtime} {env : Env} {now : WallClock} {s t : State} {summary : Summary} {es : List Event}

/-- The run of a sweep whose calls succeed, with what its reads returned. -/
theorem SweepTrace.clean_run (y : SweepTrace rt env now.toDateTime s.world summary es)
    (hes : ∀ e ∈ es, e.succeeded = true) : y.pointer = storedPointer rt s.world ∧
      (∀ e ∈ y.rest, e.succeeded = true) ∧ env.service.replay s.world es = env.service.replay s.world y.rest ∧
      (y.threshold = storedThreshold rt s.world ∧ (y.threshold = none ∨ y.start = Summary.initial)) ∧
      ∃ regions, regions.Perm s.world.regions ∧
        Nonempty (SweepRun rt env now.toDateTime y.threshold y.pointer regions s.world y.start summary y.rest) := by
  have hall : ∀ e ∈ y.thresholdEvent :: y.pointerEvent :: y.regionsEvent :: y.rest, e.succeeded = true := by
    intro e he
    exact hes e ((congrArg (e ∈ ·) y.events).mpr he)
  refine ⟨y.pointer_known (hall _ (by simp)),fun e he => hall e (by simp [he]),?_,
    y.threshold_read (hall _ (by simp)),y.run (hall _ (by simp))⟩
  · have hreads : ∀ e ∈ [y.thresholdEvent,y.pointerEvent,y.regionsEvent], e.call.reads = true := by
      simp [y.threshold_call,y.pointer_call,y.regions_call,thresholdRead,pointerRead,Call.reads]
    have hes' : es = [y.thresholdEvent,y.pointerEvent,y.regionsEvent] ++ y.rest := y.events
    refine (congrArg (env.service.replay s.world) hes').trans ?_
    rw [Service.replay_append,replay_reads env hreads]

/-- A sweep whose calls succeed leaves one node at most, and the pointer to it. -/
theorem sweep_repaired (h : Steps env.service (sweep rt now.toDateTime) s (.ok summary) es t)
    (hes : ∀ e ∈ es, e.succeeded = true) (hw : Repairable rt now.toDateTime s.world) :
    ∃ kept, Repaired rt now.toDateTime s.world t.world kept ∧
      ∀ k, storedThreshold rt s.world = some k → ∀ n ∈ kept, alerts t.world now.toDateTime k n = false := by
  obtain ⟨y⟩ := sweep_cases h
  obtain ⟨hpointer,hrest,hreplay,hthreshold,regions,hperm,⟨x⟩⟩ := y.clean_run hes
  obtain ⟨p,hp⟩ := hw.readable
  have hnodup : regions.Nodup := hperm.nodup_iff.mpr s.world.regions_nodup
  have hnodes : ∀ n ∈ s.world.nodes, n.1 ∈ regions := fun n hn => hperm.mem_iff.mpr (hw.enumerated n hn)
  have hsurvivors := x.survivors_all hrest hnodup hnodes
  have ho : (orderSurvivors x.survivors).2 = true := by
    by_contra hne
    obtain ⟨hlen,n,hn,hnone⟩ := orderSurvivors_unordered.mp (Bool.not_eq_true _ ▸ hne)
    exact hw.launches (hsurvivors.length_eq ▸ hlen) n (hsurvivors.mem_iff.mp hn) hnone
  obtain ⟨kept,hkept,-,hrel,halerts,-⟩ := x.checked hrest hnodup hnodes ho
  have hstored := x.pointer_after hrest hnodup hnodes ho (hpointer.trans hp) hp
    (fun r hr => s.world.regions_scalar r (hperm.mem_iff.mp hr))
    (fun q hq n hn hid => by
      obtain ⟨region,instanceId⟩ := q
      obtain rfl : instanceId = _ := hid
      obtain rfl : region = _ := hw.consistent _ (hq ▸ hp) n hn rfl
      rfl)
  have hworld : t.world = env.service.replay s.world y.rest := h.world.trans hreplay
  rw [← hworld] at hkept hstored halerts
  have hcandidate : ∀ n ∈ x.candidate, n ∈ unexpired now.toDateTime s.world ∧
      Newest (unexpired now.toDateTime s.world) n := by
    intro n hn
    refine ⟨hsurvivors.mem_iff.mp (x.candidate_mem ho hn),?_⟩
    have hnewest := (orderSurvivors_ordered ho).2 n (by rw [← x.candidate_eq ho]; exact hn)
    exact fun m hm => hnewest m (hsurvivors.mem_iff.mpr hm)
  refine ⟨kept,?_,fun k hk => halerts k (hthreshold.1.trans hk)⟩
  cases hc : x.candidate with
  | none =>
    rw [hc] at hrel hstored
    cases hrel
    have hnil := x.survivors_eq_nil ho hc
    rw [hnil] at hsurvivors
    exact ⟨hkept,by simp,by simp,by simp,fun _ => hsurvivors.symm.eq_nil,hstored⟩
  | some n =>
    rw [hc] at hrel hstored
    obtain ⟨hn,hnewest⟩ := hcandidate n hc
    cases hrel with
    | @some _ n' hstamp =>
      have hfresh : overdue now.toDateTime n = false := by simpa using (List.mem_filter.mp hn).2
      have hsame : n'.key = n.key ∧ overdue now.toDateTime n' = overdue now.toDateTime n ∧
          launchTime n' = launchTime n := by
        rcases hstamp with rfl | rfl
        · exact ⟨rfl,rfl,rfl⟩
        · exact ⟨rfl,overdue_alertStamp _ _ _,launchTime_alertStamp _ _⟩
      obtain ⟨hkey,hoverdue,hlaunch⟩ := hsame
      refine ⟨hkept,?_,?_,?_,by simp,?_⟩
      · rintro m ⟨⟩
        rw [hoverdue,hfresh]
      · rintro m ⟨⟩
        rw [hkey]
        exact List.mem_map_of_mem hn
      · rintro m ⟨⟩
        rw [Newest,hlaunch]
        exact hnewest
      · rw [hstored,Option.map_some,Option.map_some,pointerTo_of_key hkey]

/-- Over one node that is tracked, not overdue and silent, a sweep only reads, unless the threshold is no
integer and it reports that. -/
theorem sweep_reads_only (h : Steps env.service (sweep rt now.toDateTime) s (.ok summary) es t)
    (hes : ∀ e ∈ es, e.succeeded = true) {kept : Option Node} (hkept : s.world.nodes = kept.toList)
    (hregion : ∀ n ∈ kept, n.1 ∈ s.world.regions) (hfresh : ∀ n ∈ kept, overdue now.toDateTime n = false)
    (hpointer : storedPointer rt s.world = .ok (kept.map pointerTo))
    (hsilent : ∀ k, storedThreshold rt s.world = some k → ∀ n ∈ kept, alerts s.world now.toDateTime k n = false) :
    ∀ e ∈ es, e.call.reads = true ∨ storedThreshold rt s.world = none ∧ e.call.notifies = true := by
  obtain ⟨y⟩ := sweep_cases h
  obtain ⟨hp,hrest,-,⟨hthreshold,hstart⟩,regions,hperm,⟨x⟩⟩ := y.clean_run hes
  have hnodes : ∀ n ∈ s.world.nodes, n.1 ∈ regions := by
    intro n hn
    rw [hkept] at hn
    exact hperm.mem_iff.mpr (hregion n (Option.mem_toList.mp hn))
  have hreads := x.reads_only hrest (hperm.nodup_iff.mpr s.world.regions_nodup) hnodes hkept hfresh
    (hp.trans hpointer) fun k hk => hsilent k (hthreshold.symm.trans hk)
  intro e he
  have he' := (congrArg (e ∈ ·) y.events).mp he
  simp only [List.mem_cons] at he'
  rcases he' with rfl | rfl | rfl | he
  · rw [y.threshold_call]
    exact .inl rfl
  · rw [y.pointer_call]
    exact .inl rfl
  · rw [y.regions_call]
    exact .inl rfl
  · refine (hreads e he).imp_right fun ⟨hfailures,hnotifies⟩ => ⟨?_,hnotifies⟩
    rcases hstart with hnone | hstart
    · exact hthreshold.symm.trans hnone
    · exact absurd (congrArg Summary.failures hstart) hfailures

/-- A sweep leaves the threshold as it was. -/
theorem storedThreshold_sweep (h : Steps env.service (sweep rt now.toDateTime) s (.ok summary) es t)
    (hes : ∀ e ∈ es, e.succeeded = true) : storedThreshold rt t.world = storedThreshold rt s.world := by
  obtain ⟨y⟩ := sweep_cases h
  obtain ⟨-,-,hreplay,-,regions,-,⟨x⟩⟩ := y.clean_run hes
  unfold storedThreshold
  rw [h.world,hreplay,replay_parameter env rt x.written_calls _ (by decide)]

/-- One clean sweep repairs any drift. The next one at that instant terminates, stamps and writes nothing, and it
publishes nothing when the threshold is an integer. -/
theorem sweep_repairs (h : Steps env.service (sweep rt now.toDateTime) s (.ok summary) es t)
    (hes : ∀ e ∈ es, e.succeeded = true) (hw : Repairable rt now.toDateTime s.world) :
    (∃ kept, Repaired rt now.toDateTime s.world t.world kept) ∧
      ∀ (env' : Env) (s' t' : State) (summary' : Summary) (es' : List Event), s'.world = t.world →
        Steps env'.service (sweep rt now.toDateTime) s' (.ok summary') es' t' →
        (∀ e ∈ es', e.succeeded = true) →
          (∀ e ∈ es', e.call.reads = true ∨ e.call.notifies = true) ∧
            (storedThreshold rt s.world ≠ none → ∀ e ∈ es', e.call.reads = true) := by
  obtain ⟨kept,hkept,hsilent⟩ := sweep_repaired h hes hw
  refine ⟨⟨kept,hkept⟩,?_⟩
  intro env' s' t' summary' es' hs' h' hes'
  have hthreshold := storedThreshold_sweep h hes
  have hregion : ∀ n ∈ kept, n.1 ∈ t.world.regions := by
    intro n hn
    obtain ⟨m,hm,hkey⟩ := List.mem_map.mp (hkept.origin n hn)
    rw [h.world,replay_regions,← (Prod.mk.inj hkey).1]
    exact hw.enumerated m (List.mem_filter.mp hm).1
  rw [← hthreshold] at hsilent ⊢
  rw [← hs'] at hregion hsilent ⊢
  have hreads := sweep_reads_only h' hes' (hs' ▸ hkept.nodes) hregion hkept.fresh (hs' ▸ hkept.pointer) hsilent
  refine ⟨fun e he => (hreads e he).imp_right And.right,fun hstored e he => ?_⟩
  rcases hreads e he with hread | ⟨hnone,-⟩
  · exact hread
  · exact absurd hnone hstored

end

/-- The state after a sweep of the drifted account. -/
def sweptDrift : State := ((sweep Plain.runtime Plain.midnight.toDateTime).exec Plain.clean.service
  (Plain.state (Plain.drift Settings.empty))).2

theorem sweep_repairs_drift : (∃ kept, Repaired Plain.runtime Plain.midnight.toDateTime
    (Plain.drift Settings.empty) sweptDrift.world kept) ∧
    ∀ e ∈ (sweep Plain.runtime Plain.midnight.toDateTime).events Plain.clean.service sweptDrift,
      e.call.reads = true := by
  have h := (sweep Plain.runtime Plain.midnight.toDateTime).steps_exec Plain.clean.service
    (Plain.state (Plain.drift Settings.empty))
  have h' := (sweep Plain.runtime Plain.midnight.toDateTime).steps_exec Plain.clean.service sweptDrift
  rcases hr : ((sweep Plain.runtime Plain.midnight.toDateTime).exec Plain.clean.service
    (Plain.state (Plain.drift Settings.empty))).1 with x | summary
  · exact x.elim
  rcases hr' : ((sweep Plain.runtime Plain.midnight.toDateTime).exec Plain.clean.service sweptDrift).1
    with x | summary'
  · exact x.elim
  rw [hr] at h
  rw [hr'] at h'
  have hw : Repairable Plain.runtime Plain.midnight.toDateTime (Plain.drift Settings.empty) :=
    repairable_of_pointerless (by decide +kernel) (by decide +kernel) fun _ => by decide +kernel
  have hrepairs := sweep_repairs h (by decide +kernel) hw
  exact ⟨hrepairs.1,(hrepairs.2 Plain.clean sweptDrift _ summary' _ rfl h' (by decide +kernel)).2 (by decide +kernel)⟩

/-- The drifted account with a threshold that is no integer. -/
def unreadable : World := { Plain.drift Settings.empty with
  parameters := fun r n => if n = ParamName.idleThresholdBytes.path then some (text "lots")
    else (Plain.drift Settings.empty).parameters r n }

/-- The state after a sweep of that account. -/
def sweptUnreadable : State :=
  ((sweep Plain.runtime Plain.midnight.toDateTime).exec Plain.clean.service (Plain.state unreadable)).2

/-- Every call of both sweeps succeeds, and the second one still publishes. -/
theorem sweep_repairs_unreadable : Repairable Plain.runtime Plain.midnight.toDateTime unreadable ∧
    (∀ e ∈ (sweep Plain.runtime Plain.midnight.toDateTime).events Plain.clean.service (Plain.state unreadable),
      e.succeeded = true) ∧
    (∀ e ∈ (sweep Plain.runtime Plain.midnight.toDateTime).events Plain.clean.service sweptUnreadable,
      e.succeeded = true) ∧
    ∃ e ∈ (sweep Plain.runtime Plain.midnight.toDateTime).events Plain.clean.service sweptUnreadable,
      e.call.notifies = true := by
  refine ⟨?_,by decide +kernel,by decide +kernel,by decide +kernel⟩
  exact repairable_of_pointerless (by decide +kernel) (by decide +kernel) fun _ => by decide +kernel

end ShardVPN.Watchdog
