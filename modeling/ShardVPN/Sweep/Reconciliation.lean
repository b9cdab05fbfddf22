import ShardVPN.Pointer.Codec
import ShardVPN.Sweep.Terminations

/-! # What a sweep writes to the pointer

The pointer is cleared when every region could be scanned and all nodes found were
overdue, and it is moved only to a node found that is not. Neither waits for the
terminates or for the other scans to succeed, but what failed is in the summary.
-/
namespace ShardVPN.Watchdog
open Effect Ec2ops Settings Time

/-! ## Effects of the events of a sweep -/

/-- Removals and alert stamps leave the keys of the nodes they do not remove. -/
theorem replay_keys (env : Env) {es : List Event}
    (hes : ∀ e ∈ es, e.call.onlyRemoves = true ∨ inspects e.call = true) (w : World) :
    (env.service.replay w es).nodes.map Node.key =
      (w.nodes.map Node.key).filter (fun k => !decide (k ∈ removed es)) := by
  induction es generalizing w with
  | nil => simp
  | cons e es ih =>
    rw [Service.replay_cons,ih fun f hf => hes f (List.mem_cons_of_mem _ hf),removed_cons]
    cases e.effective with
    | false => rfl
    | true =>
      simp only [↓reduceIte]
      change ((env.effect e.call w).nodes.map Node.key).filter _ = _
      have htarget : terminateTarget ⟨e.call,none,true⟩ = terminateTarget e := rfl
      rcases hes e List.mem_cons_self with hc | hc
      · rw [← htarget]
        rcases effect_onlyRemoves env hc w with ⟨hn,ht⟩ | ⟨k,ht,hn⟩
        · rw [hn,ht]
          rfl
        · rw [hn,ht,List.filter_map,List.filter_map,List.filter_filter]
          congr 1
          refine List.filter_congr ?_
          intro n _
          simp [Bool.and_comm]
      · have hnone : terminateTarget e = none := by
          rw [← htarget]
          generalize e.call = c at hc
          cases c <;> first | rfl | cases hc
        rw [hnone,show (env.effect e.call w).nodes.map Node.key = w.nodes.map Node.key from ?_]
        · rfl
        · generalize e.call = c at hc
          cases c with
          | createTags r ids tags =>
            match tags,hc with
            | [t],hc =>
              have ht : t.key ≠ tagRole := by
                rw [of_decide_eq_true hc]
                decide
              rw [nodes_stamp env r ids ht,List.map_map]
              exact List.map_congr_left fun n _ => stamped_key r ids t n
          | publish => rfl
          | getMetricStatistics => rfl
          | _ => cases hc

theorem Cull.terminated_removed {rt : Runtime} {reason : Reason} {nodes : List Node} {a b : Summary}
    {es : List Event} (h : Cull rt reason nodes a es b) : ∀ k ∈ terminated es, k ∈ removed es := by
  induction h with
  | nil => simp
  | @done n rest summary summary' ps es hps _ ih =>
    have hquiet := terminated_eq_nil fun e he => Call.quiet_terminates (Call.notifies_quiet (hps e he))
    intro k hk
    rw [← List.singleton_append,terminated_append,terminated_append,hquiet,List.nil_append] at hk
    rw [← List.singleton_append,removed_append,removed_append]
    rcases List.mem_append.mp hk with hk | hk
    · exact List.mem_append_left _ hk
    · exact List.mem_append_right _ (List.mem_append_right _ (ih k hk))
  | @failed n rest summary summary' es e effective _ ih =>
    intro k hk
    rw [← List.singleton_append,terminated_append] at hk
    rw [← List.singleton_append,removed_append]
    exact List.mem_append_right _ (ih k (by simpa [terminated,Event.succeeded] using hk))

theorem Deduplicated.terminated_removed {rt : Runtime} {survivors : List Node} {a b : Summary} {es : List Event}
    {candidate : Option Node} (h : Deduplicated rt survivors a es candidate b) :
    ∀ k ∈ terminated es, k ∈ removed es := by
  cases h with
  | unordered _ hes =>
    intro k hk
    rw [terminated_eq_nil fun e he => Call.quiet_terminates (Call.notifies_quiet (hes e he))] at hk
    cases hk
  | ordered _ hcull => exact hcull.terminated_removed

/-! ## The decision of step 4 -/

theorem reconciled_clear {pointer : Option Pointer} {candidate : Option Node} {failedRegions : List Text} :
    reconciled pointer candidate failedRegions = some none ↔
      candidate = none ∧ pointer ≠ none ∧ failedRegions = [] := by
  cases candidate with
  | none => cases pointer <;> simp [reconciled]
  | some n => simp [reconciled]

theorem reconciled_adopt {pointer : Option Pointer} {candidate : Option Node} {failedRegions : List Text}
    {p : Pointer} : reconciled pointer candidate failedRegions = some (some p) ↔
      ∃ n, candidate = some n ∧ untracked pointer n.2.instanceId = true ∧ p = pointerTo n := by
  cases candidate with
  | none => cases pointer <;> simp [reconciled]
  | some n =>
    simp only [reconciled,Option.ite_none_right_eq_some,Option.some.injEq]
    constructor
    · rintro ⟨hu,rfl⟩
      exact ⟨n,rfl,hu,rfl⟩
    · rintro ⟨m,rfl,hu,rfl⟩
      exact ⟨hu,rfl⟩

namespace SweepRun
variable {rt : Runtime} {env : Env} {now : DateTime} {threshold : Option ℤ}
  {pointer : Except Exn (Option Pointer)} {regions : List Text} {w : World} {summary summary' : Summary}
  {es : List Event} (x : SweepRun rt env now threshold pointer regions w summary summary' es)

/-- What is written was decided, with a pointer that could be read and an order. -/
theorem written_cases {raw : Text} (h : raw ∈ written es) :
    pointer.toBool = true ∧ (orderSurvivors x.survivors).2 = true ∧
      ∃ value, reconciled pointer.toOption.join x.candidate (scanFailedRegions x.scanned) = some value ∧
        raw = encodePointer value := by
  rw [x.written_events] at h
  rcases x.reconcile with ⟨hp,ho,hr⟩ | ⟨-,hr,-⟩
  · exact ⟨hp,ho,hr.written h⟩
  · rw [hr] at h
    cases h

theorem candidate_eq (ho : (orderSurvivors x.survivors).2 = true) :
    x.candidate = (orderSurvivors x.survivors).1.head? := (x.dedup.culls ho).1

theorem survivors_eq_nil (ho : (orderSurvivors x.survivors).2 = true) (hc : x.candidate = none) :
    x.survivors = [] := by
  have hperm := (orderSurvivors_ordered ho).1
  rw [x.candidate_eq ho,List.head?_eq_none_iff] at hc
  rw [hc] at hperm
  exact hperm.symm.eq_nil

theorem candidate_mem (ho : (orderSurvivors x.survivors).2 = true) {n : Node} (hc : x.candidate = some n) :
    n ∈ x.survivors := by
  rw [x.candidate_eq ho] at hc
  exact (orderSurvivors_ordered ho).1.mem_iff.mp (List.mem_of_head? hc)

/-! ## What is recorded -/

theorem scan_failures {r : Text} (hr : r ∈ scanFailedRegions x.scanned) :
    ∃ e, scanFailure r e ∈ (recordScan regions x.scanned summary).failures := by
  obtain ⟨y,hy,rfl⟩ := List.mem_map.mp hr
  obtain ⟨hy,herr⟩ := List.mem_filter.mp hy
  obtain ⟨e,he⟩ := Option.isSome_iff_exists.mp herr
  refine ⟨e,List.mem_append_right _ (List.mem_filterMap.mpr ⟨y,hy,?_⟩)⟩
  rw [he]
  rfl

/-- No failure of steps 1 and 2 is lost. -/
theorem failures_end : ∀ f ∈ x.afterReap.failures, f ∈ summary'.failures := by
  obtain ⟨fs,hfs⟩ := x.dedup.failures_grow
  obtain ⟨gs,hgs⟩ := x.end_grows.failures
  intro f hf
  rw [hgs,hfs]
  exact List.mem_append_left _ (List.mem_append_left _ hf)

theorem scan_failures_end {r : Text} (hr : r ∈ scanFailedRegions x.scanned) :
    ∃ e, scanFailure r e ∈ summary'.failures := by
  obtain ⟨e,he⟩ := x.scan_failures hr
  obtain ⟨fs,hfs⟩ := x.reap.failures_grow
  refine ⟨e,x.failures_end _ ?_⟩
  rw [hfs]
  exact List.mem_append_left _ he

theorem reap_failures_end : ∀ n ∈ x.expiredNodes, n.key ∉ terminated x.reapEvents →
    ∃ e, terminateFailure rt n.1 n.2.instanceId .expired e ∈ summary'.failures := by
  obtain ⟨fs,hfs,hall⟩ := x.reap.failures
  intro n hn hk
  obtain ⟨e,he⟩ := hall n hn hk
  refine ⟨e,x.failures_end _ ?_⟩
  rw [hfs]
  exact List.mem_append_right _ he

/-! ## What is left -/

theorem scan_onlyRemoves : ∀ e ∈ x.scanEvents, e.call.onlyRemoves = true := by
  intro e he
  obtain ⟨y,-,hy⟩ := (forall₂_mem x.scan).2 e he
  rw [hy.call]
  rfl

include x in
theorem events_keep : ∀ e ∈ es, e.call.onlyRemoves = true ∨ inspects e.call = true := by
  intro e he
  have he' : e ∈ x.scanEvents ++ (x.reapEvents ++ (x.dedupEvents ++ (x.checkEvents ++
    (x.reconcileEvents ++ x.notifyEvents)))) := (congrArg (e ∈ ·) x.events).mp he
  simp only [List.mem_append] at he'
  rcases he' with he | he | he | he | he | he
  · exact Or.inl (x.scan_onlyRemoves e he)
  · exact Or.inl (x.reap.calls e he).1
  · exact Or.inl (x.dedup.calls e he).1
  · exact Or.inr (x.check_inspects e he)
  · exact Or.inl (x.reconcile_calls e he).2.2
  · exact Or.inl (Call.quiet_onlyRemoves (Call.notifies_quiet (x.notify_notifies e he)))

include x in
/-- A terminate that reported success took effect. -/
theorem terminated_removed : ∀ k ∈ terminated es, k ∈ removed es := by
  have hes := congrArg removed x.events
  intro k hk
  rw [x.terminated_events] at hk
  rw [hes]
  simp only [removed_append,List.mem_append]
  rcases List.mem_append.mp hk with hk | hk
  · exact Or.inr (Or.inl (x.reap.terminated_removed k hk))
  · exact Or.inr (Or.inr (Or.inl (x.dedup.terminated_removed k hk)))

end SweepRun

/-! ## Clearing and adopting -/

section
variable {rt : Runtime} {env : Env} {now : DateTime} {s t : State} {summary : Summary} {es : List Event}

theorem SweepTrace.head_calls {w : World} (y : SweepTrace rt env now w summary es) :
    ∃ xs, es = xs ++ y.rest ∧ ∀ e ∈ xs, e.call.quiet = true := by
  refine ⟨[y.thresholdEvent,y.pointerEvent,y.regionsEvent],y.events,?_⟩
  simp [y.threshold_call,y.pointer_call,y.regions_call,thresholdRead,pointerRead,Call.quiet]

/-- A sweep that writes the pointer went through its regions. -/
theorem SweepTrace.written_run {w : World} (y : SweepTrace rt env now w summary es) {raw : Text}
    (hraw : raw ∈ written es) : ∃ regions, regions.Perm w.regions ∧
      Nonempty (SweepRun rt env now y.threshold y.pointer regions w y.start summary y.rest) := by
  refine y.run ?_
  by_contra hne
  have hnotifies := y.aborted (Bool.not_eq_true _ ▸ hne)
  rw [y.attempted_rest.2.2.1,
    written_eq_nil fun e he => Call.quiet_keepsParameters (Call.notifies_quiet (hnotifies e he))] at hraw
  cases hraw

/-- What holds when a sweep from `v` to `w` clears the pointer. -/
structure Cleared (rt : Runtime) (now : DateTime) (v w : World) (es : List Event) (summary : Summary) :
    Prop where
  scanned : ∀ r ∈ v.regions, scannedOk es r = true
  attempted : ∀ n ∈ v.nodes, n.1 ∈ v.regions → overdue now n = true ∧ n.key ∈ attempted es
  left : ∀ n ∈ w.nodes, n.1 ∈ v.regions → n.key ∉ terminated es ∧
    ∃ e, terminateFailure rt n.1 n.2.instanceId .expired e ∈ summary.failures

/-- A sweep clears the pointer on complete scans and overdue nodes only. -/
theorem sweep_clears_on_evidence (h : Steps env.service (sweep rt now) s (.ok summary) es t)
    (hclear : Settings.empty ∈ written es) : Cleared rt now s.world t.world es summary := by
  obtain ⟨y⟩ := sweep_cases h
  obtain ⟨regions,hperm,⟨x⟩⟩ := y.written_run hclear
  have hnodup : regions.Nodup := hperm.nodup_iff.mpr s.world.regions_nodup
  obtain ⟨ha,ht,hw,hs⟩ := y.attempted_rest
  rw [hw] at hclear
  obtain ⟨-,ho,value,hd,hv⟩ := x.written_cases hclear
  obtain rfl := encodePointer_eq_empty.mp hv.symm
  obtain ⟨hcandidate,-,hfailed⟩ := reconciled_clear.mp hd
  have hscanned : ∀ r ∈ s.world.regions, scannedOk es r = true := by
    intro r hr
    rw [hs,x.scannedOk_events]
    by_contra hne
    have hmem := (mem_scanFailedRegions x.scan (by rwa [x.scanned_regions])).mpr
      ⟨by rw [x.scanned_regions]; exact hperm.mem_iff.mpr hr,Bool.not_eq_true _ ▸ hne⟩
    rw [hfailed] at hmem
    cases hmem
  have hsurvivors := x.survivors_eq_nil ho hcandidate
  have hexpired : ∀ n ∈ s.world.nodes, n.1 ∈ s.world.regions → n ∈ x.expiredNodes := by
    intro n hn hr
    have hfound : n ∈ x.found := by
      refine (x.found_perm hnodup).mem_iff.mpr (List.mem_filter.mpr ⟨hn,?_⟩)
      rw [← hs]
      exact hscanned n.1 hr
    by_contra hne
    have hsurvivor : n ∈ x.survivors :=
      List.mem_filter.mpr ⟨hfound,by simpa using fun he => hne (List.mem_filter.mpr ⟨hfound,he⟩)⟩
    rw [hsurvivors] at hsurvivor
    cases hsurvivor
  refine ⟨hscanned,?_,?_⟩
  · intro n hn hr
    have hmem := hexpired n hn hr
    refine ⟨?_,?_⟩
    · rw [← expired_eq_overdue]
      exact (List.mem_filter.mp hmem).2
    · rw [ha,x.attempted_eq,List.map_append]
      exact List.mem_append_left _ (List.mem_map_of_mem hmem)
  · intro n hn hr
    obtain ⟨xs,hxs,hquiet⟩ := y.head_calls
    have hkeep : ∀ e ∈ es, e.call.onlyRemoves = true ∨ inspects e.call = true := by
      rw [hxs]
      intro e he
      rcases List.mem_append.mp he with he | he
      · exact Or.inl (Call.quiet_onlyRemoves (hquiet e he))
      · exact x.events_keep e he
    have hkey : n.key ∈ t.world.nodes.map Node.key := List.mem_map_of_mem hn
    rw [h.world,replay_keys env hkeep] at hkey
    obtain ⟨hkey,hremoved⟩ := List.mem_filter.mp hkey
    obtain ⟨m,hm,hmn⟩ := List.mem_map.mp hkey
    obtain ⟨hregion,hid⟩ := Prod.mk.inj hmn
    have hnot : n.key ∉ terminated y.rest := by
      intro hk
      have hr := x.terminated_removed _ hk
      rw [hxs,removed_append] at hremoved
      simp [hr] at hremoved
    rw [ht]
    refine ⟨hnot,?_⟩
    rw [← hregion,← hid]
    refine x.reap_failures_end m (hexpired m hm (by rwa [hregion])) ?_
    rw [hmn]
    intro hk
    rw [x.terminated_events] at hnot
    exact hnot (List.mem_append_left _ hk)

theorem sweep_clears_lapsed : ∃ t summary es, Cleared Plain.runtime Plain.midnight.toDateTime
    (Plain.lapsed (Plain.pointsTo Plain.region0 Plain.instance0)) t es summary := by
  have h := (sweep Plain.runtime Plain.midnight.toDateTime).steps_exec Plain.clean.service
    (Plain.state (Plain.lapsed (Plain.pointsTo Plain.region0 Plain.instance0)))
  rcases hr : ((sweep Plain.runtime Plain.midnight.toDateTime).exec Plain.clean.service
    (Plain.state (Plain.lapsed (Plain.pointsTo Plain.region0 Plain.instance0)))).1 with x | summary
  · exact x.elim
  · rw [hr] at h
    exact ⟨_,summary,_,sweep_clears_on_evidence h (by decide +kernel)⟩

/-- The pointer is also cleared over a node whose terminate was refused. -/
theorem sweep_clears_over_live : ¬∀ (rt : Runtime) (env : Env) (now : DateTime) (s t : State)
    (summary : Summary) (es : List Event), Steps env.service (sweep rt now) s (.ok summary) es t →
    (storedPointer rt s.world).toBool = true → Settings.empty ∈ written es →
    (∀ r ∈ s.world.regions, scannedOk es r = true) ∧ ∀ n ∈ seen s.world es, n.key ∈ terminated es := by
  intro hclaim
  have h := (sweep Plain.runtime Plain.midnight.toDateTime).steps_exec (Plain.refuse Call.terminates).service
    (Plain.state (Plain.lapsed (Plain.pointsTo Plain.region0 Plain.instance0)))
  rcases hr : ((sweep Plain.runtime Plain.midnight.toDateTime).exec (Plain.refuse Call.terminates).service
    (Plain.state (Plain.lapsed (Plain.pointsTo Plain.region0 Plain.instance0)))).1 with x | summary
  · exact x.elim
  · rw [hr] at h
    have hterminated := (hclaim _ _ _ _ _ _ _ h (by decide +kernel) (by decide +kernel)).2
      (Plain.node Plain.region0 Plain.instance0 Plain.newYearsEve Plain.noonBefore) (by decide +kernel)
    revert hterminated
    decide +kernel

/-- A sweep moves the pointer to a node it found and that is not overdue; what it could
not scan is in its summary. -/
theorem sweep_adopts_on_evidence (h : Steps env.service (sweep rt now) s (.ok summary) es t)
    {r i : Text} (hpointer : storedPointer rt s.world = .ok (some ⟨.str r,.str i⟩))
    (hr : r ∈ s.world.regions) {raw : Text} (hraw : raw ∈ written es) (hmoved : raw ≠ Settings.empty) :
    ∃ n ∈ others now s.world es, raw = encodePointer (some (pointerTo n)) ∧
      n.2.instanceId ≠ i ∧ (scannedOk es r = true ∨ ∃ e, scanFailure r e ∈ summary.failures) := by
  obtain ⟨y⟩ := sweep_cases h
  obtain ⟨regions,hperm,⟨x⟩⟩ := y.written_run hraw
  have hnodup : regions.Nodup := hperm.nodup_iff.mpr s.world.regions_nodup
  obtain ⟨-,-,hw,hs⟩ := y.attempted_rest
  have hseen : seen s.world es = seen s.world y.rest := by simp only [seen,hs]
  rw [hw] at hraw
  obtain ⟨hreadable,ho,value,hd,rfl⟩ := x.written_cases hraw
  obtain ⟨p,rfl⟩ := Option.ne_none_iff_exists'.mp (fun hv => hmoved (encodePointer_eq_empty.mpr hv))
  obtain ⟨n,hc,huntracked,rfl⟩ := reconciled_adopt.mp hd
  refine ⟨n,?_,rfl,?_,?_⟩
  · rw [others,hseen]
    exact (x.survivors_perm hnodup).mem_iff.mp (x.candidate_mem ho hc)
  · rintro rfl
    rcases y.pointer_read with hp | ⟨e,hp⟩
    · rw [hp,hpointer] at huntracked
      simp [untracked,Except.toOption] at huntracked
    · rw [hp] at hreadable
      cases hreadable
  · rw [hs,x.scannedOk_events]
    by_cases hok : scannedOk x.scanEvents r = true
    · exact Or.inl hok
    · refine Or.inr (x.scan_failures_end ?_)
      refine (mem_scanFailedRegions x.scan (by rwa [x.scanned_regions])).mpr ⟨?_,Bool.not_eq_true _ ▸ hok⟩
      rw [x.scanned_regions]
      exact hperm.mem_iff.mpr hr

theorem sweep_adopts_pair : ∃ es summary raw,
    ∃ n ∈ others Plain.midnight.toDateTime (Plain.pair (Plain.pointsTo Plain.region0 Plain.instance0)) es,
      raw = encodePointer (some (pointerTo n)) ∧ n.2.instanceId ≠ Plain.instance0 ∧
        (scannedOk es Plain.region0 = true ∨ ∃ e, scanFailure Plain.region0 e ∈ Summary.failures summary) := by
  have h := (sweep Plain.runtime Plain.midnight.toDateTime).steps_exec Plain.clean.service
    (Plain.state (Plain.pair (Plain.pointsTo Plain.region0 Plain.instance0)))
  rcases hr : ((sweep Plain.runtime Plain.midnight.toDateTime).exec Plain.clean.service
    (Plain.state (Plain.pair (Plain.pointsTo Plain.region0 Plain.instance0)))).1 with x | summary
  · exact x.elim
  · rw [hr] at h
    exact ⟨_,summary,_,sweep_adopts_on_evidence h (r := Plain.region0) (i := Plain.instance0)
      (decode_encode (by decide) (by decide)) (by decide)
      (by decide +kernel : Plain.pointsTo Plain.region1 Plain.instance1 ∈ _) (by decide +kernel)⟩

/-- The pointer is moved although the region it names could not be scanned. -/
theorem sweep_moves_unseen : ¬∀ (rt : Runtime) (env : Env) (now : DateTime) (s t : State)
    (summary : Summary) (es : List Event), Steps env.service (sweep rt now) s (.ok summary) es t →
    ∀ r i, storedPointer rt s.world = .ok (some ⟨.str r,.str i⟩) → r ∈ s.world.regions →
    ∀ r' i', i' ≠ i → encodePointer (some ⟨.str r',.str i'⟩) ∈ written es → scannedOk es r = true := by
  intro hclaim
  have h := (sweep Plain.runtime Plain.midnight.toDateTime).steps_exec
    (Plain.refuse (fun c => decide (c = scanCall Plain.region0))).service
    (Plain.state (Plain.pair (Plain.pointsTo Plain.region0 Plain.instance0)))
  rcases hr : ((sweep Plain.runtime Plain.midnight.toDateTime).exec
    (Plain.refuse (fun c => decide (c = scanCall Plain.region0))).service
    (Plain.state (Plain.pair (Plain.pointsTo Plain.region0 Plain.instance0)))).1 with x | summary
  · exact x.elim
  · rw [hr] at h
    have hscanned := hclaim _ _ _ _ _ _ _ h Plain.region0 Plain.instance0
      (decode_encode (by decide) (by decide)) (by decide) Plain.region1 Plain.instance1 (by decide)
      (by decide +kernel)
    revert hscanned
    decide +kernel

end

end ShardVPN.Watchdog
