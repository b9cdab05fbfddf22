import ShardVPN.Sweep.Phases
import ShardVPN.System.Plain

/-! # What a sweep terminates

A sweep attempts to terminate the overdue nodes it found and, when the others can be
ordered, all of those but one launched last. Each is attempted once, and the
successes are recorded by kind.
-/
namespace ShardVPN.Watchdog
open Effect Ec2ops Settings Time

/-- The expiry tag is a timestamp that is not after `now`. -/
def overdue (now : DateTime) (n : Node) : Bool :=
  match (tagValue n.2 tagExpires).bind parseRfc3339 with
  | some expiry => decide (expiry.instant ≤ now.instant)
  | none => false

theorem expired_eq_overdue (now : DateTime) (n : Node) : expired now n = overdue now n := by
  have hnever : parseRfc3339 Ttl.never = none := by decide
  rw [expired,overdue,expiry]
  cases htag : tagValue n.2 tagExpires with
  | none => rfl
  | some raw =>
    dsimp only [Option.bind_some]
    by_cases hempty : raw = []
    · subst hempty
      rfl
    · rw [if_neg hempty,Ttl.isExpired]
      by_cases hn : raw = Ttl.never
      · rw [if_pos hn,hn,hnever]
      · refine (if_neg hn).trans ?_
        cases parseRfc3339 raw <;> rfl

/-- The nodes a trace found: live in a region whose scan succeeded. -/
def seen (w : World) (es : List Event) : List Node := w.nodes.filter (fun n => scannedOk es n.1)

/-- All but one launched last, when there are several and each has a launch time. -/
structure IsDuplicates (others duplicates : List Node) : Prop where
  resolved : 2 ≤ others.length → (∀ n ∈ others, launchTime n ≠ none) →
    ∃ kept, others.Perm (kept :: duplicates) ∧ Newest others kept
  unresolved : ¬(2 ≤ others.length ∧ ∀ n ∈ others, launchTime n ≠ none) → duplicates = []

theorem IsDuplicates.of_perm {others others' duplicates : List Node} (h : IsDuplicates others duplicates)
    (hperm : others'.Perm others) : IsDuplicates others' duplicates := by
  have hall : (∀ n ∈ others', launchTime n ≠ none) ↔ ∀ n ∈ others, launchTime n ≠ none :=
    ⟨fun ha n hn => ha n (hperm.mem_iff.mpr hn),fun ha n hn => ha n (hperm.mem_iff.mp hn)⟩
  refine ⟨?_,?_⟩
  · intro hlen hlaunch
    obtain ⟨kept,hkept,hnewest⟩ := h.resolved (hperm.length_eq ▸ hlen) (hall.mp hlaunch)
    exact ⟨kept,hperm.trans hkept,fun n hn => hnewest n (hperm.mem_iff.mp hn)⟩
  · rw [hperm.length_eq,hall]
    exact h.unresolved

/-- The nodes step 2 gives up. -/
def surplus (survivors : List Node) : List Node :=
  if (orderSurvivors survivors).2 then (orderSurvivors survivors).1.tail else []

theorem surplus_isDuplicates (survivors : List Node) : IsDuplicates survivors (surplus survivors) := by
  have hunordered := @orderSurvivors_unordered survivors
  cases ho : (orderSurvivors survivors).2 with
  | false =>
    obtain ⟨-,n,hn,hnone⟩ := hunordered.mp ho
    rw [surplus,ho]
    exact ⟨fun _ hall => absurd hnone (hall n hn),fun _ => rfl⟩
  | true =>
    obtain ⟨hperm,hnewest⟩ := orderSurvivors_ordered ho
    rw [surplus,ho,if_pos rfl]
    have hlength := hperm.length_eq
    refine ⟨?_,?_⟩
    · intro hlen _
      cases hs : (orderSurvivors survivors).1 with
      | nil =>
        rw [hs] at hlength
        rw [← hlength] at hlen
        cases hlen
      | cons kept rest =>
        rw [hs] at hperm hnewest
        exact ⟨kept,hperm.symm,hnewest kept rfl⟩
    · intro hnot
      have hshort : survivors.length ≤ 1 := by
        by_contra hlong
        refine hnot ⟨by omega,fun n hn hnone => ?_⟩
        rw [hunordered.mpr ⟨by omega,n,hn,hnone⟩] at ho
        cases ho
      refine List.eq_nil_of_length_eq_zero ?_
      rw [List.length_tail,hlength]
      omega

theorem surplus_subset {survivors : List Node} : ∀ n ∈ surplus survivors, n ∈ survivors := by
  intro n hn
  rw [surplus] at hn
  split at hn
  · rename_i ho
    exact (orderSurvivors_ordered ho).1.mem_iff.mp (List.mem_of_mem_tail hn)
  · cases hn

/-- Step 2 on an order keeps its head and gives up the surplus. -/
theorem Deduplicated.culls {rt : Runtime} {survivors : List Node} {summary summary' : Summary} {es : List Event}
    {candidate : Option Node} (h : Deduplicated rt survivors summary es candidate summary')
    (ho : (orderSurvivors survivors).2 = true) : candidate = (orderSurvivors survivors).1.head? ∧
      Cull rt .duplicate (surplus survivors) summary es summary' := by
  cases h with
  | unordered hf _ =>
    rw [hf] at ho
    cases ho
  | ordered _ hcull =>
    rw [surplus,if_pos ho]
    exact ⟨rfl,hcull⟩

/-- Without an order step 2 gives up nothing. -/
theorem Deduplicated.passes {rt : Runtime} {survivors : List Node} {summary summary' : Summary} {es : List Event}
    {candidate : Option Node} (h : Deduplicated rt survivors summary es candidate summary')
    (ho : (orderSurvivors survivors).2 = false) : surplus survivors = [] ∧ (∀ e ∈ es, e.call.notifies = true) ∧
      ∃ failure, summary' = summary.fail failure := by
  cases h with
  | unordered _ hes =>
    rw [surplus,ho]
    exact ⟨rfl,hes,_,rfl⟩
  | ordered hf _ =>
    rw [hf] at ho
    cases ho

theorem Deduplicated.attempted {rt : Runtime} {survivors : List Node} {summary summary' : Summary}
    {es : List Event} {candidate : Option Node} (h : Deduplicated rt survivors summary es candidate summary') :
    attempted es = (surplus survivors).map Node.key := by
  cases ho : (orderSurvivors survivors).2 with
  | true => exact (h.culls ho).2.attempted
  | false =>
    obtain ⟨hnone,hes,-⟩ := h.passes ho
    rw [hnone]
    exact attempted_eq_nil fun e he => Call.quiet_terminates (Call.notifies_quiet (hes e he))

theorem Deduplicated.recorded {rt : Runtime} {survivors : List Node} {summary summary' : Summary}
    {es : List Event} {candidate : Option Node} (h : Deduplicated rt survivors summary es candidate summary') :
    summary'.reaped = summary.reaped ∧
      summary'.duplicates = summary.duplicates ++ (terminated es).map (·.2) := by
  cases ho : (orderSurvivors survivors).2 with
  | true =>
    obtain ⟨-,hrecorded⟩ := (h.culls ho).2.recorded
    exact ⟨(hrecorded rfl).2,(hrecorded rfl).1⟩
  | false =>
    obtain ⟨-,hes,failure,rfl⟩ := h.passes ho
    rw [terminated_eq_nil fun e he => Call.quiet_terminates (Call.notifies_quiet (hes e he))]
    exact ⟨rfl,(List.append_nil _).symm⟩

/-- A sublist of a list without repetition is what it selects. -/
theorem sublist_eq_filter {α : Type} [DecidableEq α] {l k : List α} (h : l.Sublist k) (hk : k.Nodup) :
    l = k.filter (fun a => decide (a ∈ l)) := by
  induction h with
  | slnil => rfl
  | @cons l k a hs ih =>
    obtain ⟨ha,hk⟩ := List.nodup_cons.mp hk
    rw [List.filter_cons_of_neg (by simpa using fun hl => ha (hs.subset hl))]
    exact ih hk
  | @cons_cons l k a hs ih =>
    obtain ⟨ha,hk⟩ := List.nodup_cons.mp hk
    rw [List.filter_cons_of_pos (by simp)]
    congr 1
    refine (ih hk).trans (List.filter_congr ?_)
    intro b hb
    have hba : b ≠ a := fun he => ha (he ▸ hb)
    simp [hba]

namespace SweepRun
variable {rt : Runtime} {env : Env} {now : DateTime} {threshold : Option ℤ}
  {pointer : Except Exn (Option Pointer)} {regions : List Text} {w : World} {summary summary' : Summary}
  {es : List Event} (x : SweepRun rt env now threshold pointer regions w summary summary' es)

theorem attempted_dedup : attempted x.dedupEvents = (surplus x.survivors).map Node.key := x.dedup.attempted

theorem attempted_eq : attempted es = (x.expiredNodes ++ surplus x.survivors).map Node.key := by
  rw [x.attempted_events,x.attempted_dedup,List.map_append]

theorem recorded (hreaped : summary.reaped = []) (hduplicates : summary.duplicates = []) :
    summary'.reaped = (terminated x.reapEvents).map (·.2) ∧
      summary'.duplicates = (terminated x.dedupEvents).map (·.2) := by
  obtain ⟨h1,h2⟩ := x.reap.recorded.1 rfl
  obtain ⟨h3,h4⟩ := x.dedup.recorded
  have h5 := x.end_grows
  refine ⟨?_,?_⟩
  · rw [h5.reaped,h3,h1]
    simp [recordScan,hreaped]
  · rw [h5.duplicates,h4,h2]
    simp [recordScan,hduplicates]

section
variable (hregions : regions.Nodup)
include hregions

theorem expired_perm : x.expiredNodes.Perm ((seen w es).filter (overdue now)) := by
  have heq : expired now = overdue now := funext (expired_eq_overdue now)
  rw [expiredNodes,heq]
  exact (x.found_perm hregions).filter _

theorem survivors_perm : x.survivors.Perm ((seen w es).filter (fun n => !overdue now n)) := by
  have heq : expired now = overdue now := funext (expired_eq_overdue now)
  rw [survivors,heq]
  exact (x.found_perm hregions).filter _

/-- Overdue nodes and survivors have no key in common. -/
theorem keys_disjoint {m n : Node} (hm : m ∈ x.expiredNodes) (hn : n ∈ x.survivors) : m.key ≠ n.key := by
  intro hkey
  obtain ⟨hm,hme⟩ := List.mem_filter.mp hm
  obtain ⟨hn,hne⟩ := List.mem_filter.mp hn
  rw [List.inj_on_of_nodup_map (x.found_keys_nodup hregions) hm hn hkey] at hme
  simp [hme] at hne

theorem expired_keys_nodup : (x.expiredNodes.map Node.key).Nodup :=
  (x.found_keys_nodup hregions).sublist (List.filter_sublist.map _)

theorem surplus_keys_nodup : ((surplus x.survivors).map Node.key).Nodup := by
  rw [surplus]
  split
  · rename_i ho
    have hs : (x.survivors.map Node.key).Nodup :=
      (x.found_keys_nodup hregions).sublist (List.filter_sublist.map _)
    exact (((orderSurvivors_ordered ho).1.map Node.key).nodup_iff.mpr hs).sublist
      ((List.tail_sublist _).map _)
  · exact List.nodup_nil

include x in
theorem attempted_nodup : (attempted es).Nodup := by
  rw [x.attempted_eq,List.map_append]
  refine List.nodup_append.mpr ⟨x.expired_keys_nodup hregions,x.surplus_keys_nodup hregions,?_⟩
  intro a ha b hb
  obtain ⟨m,hm,rfl⟩ := List.mem_map.mp ha
  obtain ⟨n,hn,rfl⟩ := List.mem_map.mp hb
  exact x.keys_disjoint hregions hm (surplus_subset n hn)

theorem terminated_reap : terminated x.reapEvents =
    (x.expiredNodes.filter (fun n => decide (n.key ∈ terminated es))).map Node.key := by
  have hsub := terminated_sublist x.reapEvents
  rw [x.reap.attempted] at hsub
  refine (sublist_eq_filter hsub (x.expired_keys_nodup hregions)).trans ?_
  rw [List.filter_map]
  refine congrArg _ (List.filter_congr ?_)
  intro m hm
  have hnot : m.key ∉ terminated x.dedupEvents := by
    intro hk
    have hk' := (terminated_sublist x.dedupEvents).subset hk
    rw [x.attempted_dedup] at hk'
    obtain ⟨n,hn,hkey⟩ := List.mem_map.mp hk'
    exact x.keys_disjoint hregions hm (surplus_subset n hn) hkey.symm
  simp [x.terminated_events,hnot]

theorem terminated_dedup : terminated x.dedupEvents =
    ((surplus x.survivors).filter (fun n => decide (n.key ∈ terminated es))).map Node.key := by
  have hsub := terminated_sublist x.dedupEvents
  rw [x.attempted_dedup] at hsub
  refine (sublist_eq_filter hsub (x.surplus_keys_nodup hregions)).trans ?_
  rw [List.filter_map]
  refine congrArg _ (List.filter_congr ?_)
  intro n hn
  have hnot : n.key ∉ terminated x.reapEvents := by
    intro hk
    have hk' := (terminated_sublist x.reapEvents).subset hk
    rw [x.reap.attempted] at hk'
    obtain ⟨m,hm,hkey⟩ := List.mem_map.mp hk'
    exact x.keys_disjoint hregions hm (surplus_subset n hn) hkey
  simp [x.terminated_events,hnot]

end

end SweepRun

/-! ## From the first call on -/

section
variable {rt : Runtime} {env : Env} {now : DateTime} {s t : State} {summary : Summary} {es : List Event}

theorem SweepTrace.attempted_rest {w : World} (x : SweepTrace rt env now w summary es) :
    attempted es = attempted x.rest ∧ terminated es = terminated x.rest ∧ written es = written x.rest ∧
      ∀ r, scannedOk es r = scannedOk x.rest r := by
  obtain ⟨h1,h2,h3⟩ := And.intro x.threshold_call (And.intro x.pointer_call x.regions_call)
  have hcall : ∀ e ∈ [x.thresholdEvent,x.pointerEvent,x.regionsEvent], e.call.terminates = false ∧
      e.call.keepsParameters = true ∧ e.call.scans = false := by
    simp [h1,h2,h3,thresholdRead,pointerRead,Call.terminates,Call.keepsParameters,Call.scans]
  have hes : es = [x.thresholdEvent,x.pointerEvent,x.regionsEvent] ++ x.rest := x.events
  refine ⟨?_,?_,?_,?_⟩
  · refine (congrArg attempted hes).trans ?_
    rw [attempted_append,attempted_eq_nil fun e he => (hcall e he).1,List.nil_append]
  · refine (congrArg terminated hes).trans ?_
    rw [terminated_append,terminated_eq_nil fun e he => (hcall e he).1,List.nil_append]
  · refine (congrArg written hes).trans ?_
    rw [written_append,written_eq_nil fun e he => (hcall e he).2.1,List.nil_append]
  · intro r
    refine (congrArg (scannedOk · r) hes).trans ?_
    rw [SweepRun.scannedOk_append,SweepRun.scannedOk_eq_false fun e he => (hcall e he).2.2,Bool.false_or]

/-- Where the regions were enumerated there is a run over them. -/
theorem SweepTrace.regions_succeeded {w : World} (x : SweepTrace rt env now w summary es)
    (h : ∃ e ∈ es, e.call = .describeRegions rt.controlRegion ∧ e.succeeded = true) :
    x.regionsEvent.succeeded = true := by
  by_contra hne
  have hnotifies := x.aborted (Bool.not_eq_true _ ▸ hne)
  obtain ⟨e,he,hc,hok⟩ := h
  rw [x.events] at he
  simp only [List.mem_cons] at he
  rcases he with rfl | rfl | rfl | he
  · rw [x.threshold_call] at hc
    cases hc
  · rw [x.pointer_call] at hc
    cases hc
  · exact hne hok
  · have hn := hnotifies e he
    rw [hc] at hn
    cases hn

/-- The nodes a trace found that are overdue. -/
def due (now : DateTime) (w : World) (es : List Event) : List Node := (seen w es).filter (overdue now)

/-- The nodes a trace found that are not. -/
def others (now : DateTime) (w : World) (es : List Event) : List Node :=
  (seen w es).filter (fun n => !overdue now n)

/-- The instances a sweep attempts to terminate, and what it records of them. -/
structure TerminatesExactly (now : DateTime) (w : World) (es : List Event) (summary : Summary)
    (duplicates : List Node) : Prop where
  isDuplicates : IsDuplicates (others now w es) duplicates
  exactly : (attempted es).Perm ((due now w es ++ duplicates).map Node.key)
  once : (attempted es).Nodup
  reaped : summary.reaped.Perm (((due now w es).filter
    (fun n => decide (n.key ∈ terminated es))).map (·.2.instanceId))
  duplicates : summary.duplicates.Perm ((duplicates.filter
    (fun n => decide (n.key ∈ terminated es))).map (·.2.instanceId))
  refused : 2 ≤ (others now w es).length → (∃ n ∈ others now w es, launchTime n = none) →
    ∀ n ∈ others now w es, n.key ∉ attempted es

theorem others_notMem_due {now : DateTime} {w : World} {es : List Event} {n : Node} (hn : n ∈ others now w es) :
    n.key ∉ (due now w es).map Node.key := by
  intro hk
  obtain ⟨m,hm,hkey⟩ := List.mem_map.mp hk
  obtain ⟨hm,hoverdue⟩ := List.mem_filter.mp hm
  obtain ⟨hn,hnot⟩ := List.mem_filter.mp hn
  have hmn := node_unique (List.mem_filter.mp hm).1 (List.mem_filter.mp hn).1 (congrArg Prod.snd hkey)
  rw [hmn] at hoverdue
  simp [hoverdue] at hnot

/-- A sweep that knows its regions attempts to terminate exactly what it may. -/
theorem sweep_terminates_exactly (h : Steps env.service (sweep rt now) s (.ok summary) es t)
    (hregions : ∃ e ∈ es, e.call = .describeRegions rt.controlRegion ∧ e.succeeded = true) :
    ∃ duplicates, TerminatesExactly now s.world es summary duplicates := by
  obtain ⟨y⟩ := sweep_cases h
  obtain ⟨regions,hperm,⟨x⟩⟩ := y.run (y.regions_succeeded hregions)
  have hnodup : regions.Nodup := hperm.nodup_iff.mpr s.world.regions_nodup
  obtain ⟨ha,ht,-,hs⟩ := y.attempted_rest
  have hseen : seen s.world es = seen s.world y.rest := by simp only [seen,hs]
  have hsnd : ∀ l : List Node, (l.map Node.key).map (·.2) = l.map (·.2.instanceId) := fun l => List.map_map
  obtain ⟨hreaped,hduplicates⟩ := x.recorded y.start_grows.reaped y.start_grows.duplicates
  rw [x.terminated_reap hnodup,hsnd,← ht] at hreaped
  rw [x.terminated_dedup hnodup,hsnd,← ht] at hduplicates
  have hdue : x.expiredNodes.Perm (due now s.world es) := by
    rw [due,hseen]
    exact x.expired_perm hnodup
  have hothers : x.survivors.Perm (others now s.world es) := by
    rw [others,hseen]
    exact x.survivors_perm hnodup
  have hisDuplicates : IsDuplicates (others now s.world es) (surplus x.survivors) :=
    (surplus_isDuplicates _).of_perm hothers.symm
  have hexactly : (attempted es).Perm ((due now s.world es ++ surplus x.survivors).map Node.key) := by
    rw [ha,x.attempted_eq]
    exact (hdue.append_right _).map _
  refine ⟨surplus x.survivors,hisDuplicates,hexactly,?_,?_,?_,?_⟩
  · rw [ha]
    exact x.attempted_nodup hnodup
  · rw [hreaped]
    exact (hdue.filter _).map _
  · rw [hduplicates]
  · rintro - ⟨m,hm,hnone⟩ n hn hk
    rw [hexactly.mem_iff,hisDuplicates.unresolved (fun hr => hr.2 m hm hnone),List.append_nil] at hk
    exact others_notMem_due hn hk

end

theorem sweep_terminates_drift : ∃ summary es duplicates,
    TerminatesExactly Plain.midnight.toDateTime (Plain.drift Settings.empty) es summary duplicates := by
  have h := (sweep Plain.runtime Plain.midnight.toDateTime).steps_exec Plain.clean.service
    (Plain.state (Plain.drift Settings.empty))
  rcases hr : ((sweep Plain.runtime Plain.midnight.toDateTime).exec Plain.clean.service
    (Plain.state (Plain.drift Settings.empty))).1 with x | summary
  · exact x.elim
  · rw [hr] at h
    exact ⟨summary,_,sweep_terminates_exactly h (by decide +kernel)⟩

end ShardVPN.Watchdog
