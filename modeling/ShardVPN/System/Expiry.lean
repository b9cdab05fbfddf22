import ShardVPN.Request.Launch
import ShardVPN.System.Lifetime
import ShardVPN.System.Up

/-! # The promise of a launch

The answer to a launch names its node and shows when it expires. Whatever happens
afterwards, no sweep takes the node earlier except in favour of a later launch, every
sweep that sees it from then on attempts to terminate it, and what was terminated is
gone for good.
-/
namespace ShardVPN.System
open Effect Time Ec2ops Settings Handler Watchdog

/-- The document shows an expiry that is not after `now`. -/
def due (status : Dict) (now : DateTime) : Prop :=
  ∃ shown expiry, status.get (text "expires_at") = some (.str shown) ∧ parseRfc3339 shown = some expiry ∧
    expiry.instant ≤ now.instant

/-- The document shows the region and the id of the node. -/
def names (status : Dict) (n : Node) : Prop :=
  status.get (text "region") = some (.str n.1) ∧ status.get (text "instance_id") = some (.str n.2.instanceId)

variable {rt : Runtime} {v w : World}

theorem overdue_iff {now : DateTime} {n : Node} : overdue now n = true ↔
    ∃ shown expiry, tagValue n.2 tagExpires = some shown ∧ parseRfc3339 shown = some expiry ∧
      expiry.instant ≤ now.instant := by
  unfold overdue
  cases hshown : tagValue n.2 tagExpires with
  | none => simp
  | some shown => cases hexpiry : parseRfc3339 shown with
    | none => simp [hexpiry]
    | some expiry => simp [hexpiry]

theorem never_unparsed : parseRfc3339 Ttl.never = none := by decide

/-- A launched node is overdue from the expiry on that its document shows. -/
theorem overdue_launched {l : Launch} {n : Node} (htags : n.2.tags = l.tags) (now : DateTime) :
    overdue now n = true ↔ due l.document now := by
  have hexpires : tagValue n.2 tagExpires = some l.expiresAt := by
    rw [tagValue,htags]
    rfl
  rw [overdue_iff,due,hexpires,l.document_get.2.2.2.1]
  constructor
  · rintro ⟨shown,expiry,⟨⟩,hexpiry,hle⟩
    have hne : l.expiresAt ≠ Ttl.never := by
      intro h
      rw [h,never_unparsed] at hexpiry
      cases hexpiry
    exact ⟨_,expiry,by rw [if_neg hne],hexpiry,hle⟩
  · rintro ⟨shown,expiry,hshown,hexpiry,hle⟩
    by_cases hnever : l.expiresAt = Ttl.never
    · rw [if_pos hnever] at hshown
      cases hshown
    · rw [if_neg hnever] at hshown
      obtain rfl := Json.str.inj (Option.some.inj hshown)
      exact ⟨_,expiry,rfl,hexpiry,hle⟩

theorem Ages.overdue {m n : Node} (h : Ages m n) (now : DateTime) : overdue now n = overdue now m := by
  unfold Watchdog.overdue
  rw [h.tags tagExpires (by decide)]

/-! ## What a sweep removes -/

section
variable {env : Env} {s t : State} {es : List Event}

/-- A sweep that scanned a region attempts to terminate what is overdue there. -/
theorem sweep_overdue {now : DateTime} {summary : Summary}
    (h : Steps env.service (sweep rt now) s (.ok summary) es t) {n : Node} (hn : n ∈ s.world.nodes)
    (hscanned : scannedOk es n.1 = true) (hoverdue : overdue now n = true) : n.key ∈ attempted es := by
  obtain ⟨y⟩ := sweep_cases h
  obtain ⟨hattempted,-,-,hscans⟩ := y.attempted_rest
  rw [hscans] at hscanned
  rw [hattempted]
  cases hsucceeded : y.regionsEvent.succeeded with
  | false =>
    have hnone := SweepRun.scannedOk_eq_false (fun e he => Call.notifies_scans (y.aborted hsucceeded e he)) n.1
    rw [hnone] at hscanned
    cases hscanned
  | true =>
    obtain ⟨regions,hperm,⟨x⟩⟩ := y.run hsucceeded
    have hregions : regions.Nodup := hperm.nodup_iff.mpr s.world.regions_nodup
    have hexpired : n ∈ x.expiredNodes := by
      rw [(x.expired_perm hregions).mem_iff]
      exact List.mem_filter.mpr ⟨List.mem_filter.mpr ⟨hn,hscanned⟩,hoverdue⟩
    rw [x.attempted_eq,List.map_append]
    exact List.mem_append_left _ (List.mem_map_of_mem hexpired)

theorem call_of_target {e : Event} {key : Text × Text} (h : terminateTarget e = some key) :
    e.call = .terminateInstances key.1 [key.2] := by
  unfold terminateTarget at h
  split at h
  · rename_i hcall
    obtain rfl := Option.some.inj h
    exact hcall
  · cases h

theorem ended_effect (env : Env) {key : Text × Text} (hkey : ∃ n ∈ w.instances, n.key = key) :
    Ended (env.effect (.terminateInstances key.1 [key.2]) w) key := by
  obtain ⟨⟨region,i⟩,hn,rfl⟩ := hkey
  refine ⟨(region,i.terminate),List.mem_map.mpr ⟨(region,i),hn,?_⟩,rfl,?_⟩
  · exact Prod.ext rfl (if_pos ⟨rfl,List.mem_singleton_self _⟩)
  · unfold isLive Instance.terminate
    dsimp only
    split <;> rfl

/-- An instance whose termination took effect has ended. -/
theorem ended_removed (hes : Warrants rt env w es) {key : Text × Text} (hkey : key ∈ removed es)
    (hregistered : ∃ n ∈ w.instances, n.key = key) : Ended (env.service.replay w es) key := by
  induction es generalizing w with
  | nil => cases hkey
  | cons e es ih =>
    obtain ⟨he,hrest⟩ := hes
    rw [Service.replay_cons]
    rw [removed_cons,List.mem_append] at hkey
    rcases hkey with hfirst | hlater
    · cases heffective : e.effective with
      | false => simp [heffective] at hfirst
      | true =>
        simp only [heffective,if_true,Option.mem_toList] at hfirst
        rw [Service.apply,heffective,if_pos rfl] at hrest
        rw [if_pos rfl]
        apply (ended_lasting rt key).replay hrest
        rw [call_of_target hfirst]
        exact ended_effect env hregistered
    · apply ih hrest hlater
      obtain ⟨n,hn,rfl⟩ := hregistered
      unfold Service.apply
      split
      · obtain ⟨m,hm,hages⟩ := (evolves_effect env he).ages hn
        exact ⟨m,hm,hages.key⟩
      · exact ⟨n,hn,rfl⟩

end

/-! ## The promise -/

/-- What a sweep does to the node of a document. -/
structure PromiseKept (rt : Runtime) (status : Dict) (n : Node) (w : World) (i : Invocation) : Prop where
  early : ¬due status i.time.toDateTime → n.key ∈ attempted (i.events rt w) →
    ∃ m k, Ages n m ∧ Outlives i.time.toDateTime w k m ∧ k.key ∉ attempted (i.events rt w)
  late : due status i.time.toDateTime → n.key ∈ w.nodes.map Node.key → scannedOk (i.events rt w) n.1 = true →
    n.key ∈ attempted (i.events rt w)
  final : n.key ∈ removed (i.events rt w) → ∀ ls, n.key ∉ (run (after rt) (i.after rt w) ls).nodes.map Node.key

theorem promiseKept {l : Launch} {n : Node} (htags : n.2.tags = l.tags) (hn : ∃ m ∈ w.instances, Ages n m)
    {i : Invocation} (hsweep : i.Sweeps) : PromiseKept rt l.document n w i := by
  obtain ⟨u,t,summary,rfl,h⟩ := hsweep.steps rt w
  obtain ⟨m,hm,hages⟩ := hn
  have hsame : ∀ k ∈ u.world.nodes, k.key = n.key → k = m := fun k hk hkey =>
    instance_unique (List.mem_filter.mp hk).1 hm (hkey.trans hages.key.symm)
  refine ⟨?_,?_,?_⟩
  · intro hdue hkey
    obtain ⟨k,hk,hkn,hcause⟩ := sweep_attempted h hkey
    obtain rfl := hsame k hk hkn
    rcases hcause with hoverdue | ⟨other,houtlives,hkept⟩
    · rw [hages.overdue,overdue_launched htags] at hoverdue
      exact absurd hoverdue hdue
    · exact ⟨k,other,hages,houtlives,hkept⟩
  · intro hdue hkey hscanned
    obtain ⟨k,hk,hkn⟩ := List.mem_map.mp hkey
    obtain rfl := hsame k hk hkn
    rw [← overdue_launched htags,← hages.overdue] at hdue
    rw [← hkn]
    exact sweep_overdue h hk (by rwa [hages.region]) hdue
  · intro hkey ls
    have hended : Ended (i.after rt u.world) n.key := by
      rw [i.after_eq]
      exact ended_removed (i.warrants u.world) hkey ⟨m,hm,hages.key⟩
    exact ((ended_lasting rt n.key).run ls hended).gone

/-- A request to go up that is answered with a launch. -/
theorem Answers.launch {i : Invocation} {response : Response} (h : Answers rt i w response) (hup : Asks asksUp i)
    (hlaunches : ∃ e ∈ i.events rt w, e.call.runs = true) :
    ∃ (l : Launch) (j : Instance), response = respond 200 l.document ∧ (l.region,j) ∈ (i.after rt w).nodes ∧ l.Owns j := by
  obtain ⟨body,xs,ys,u,t,hbody,hevents,hxs,rfl,hperform⟩ := h.performed
  obtain ⟨body',hbody',hasks⟩ := hup
  obtain rfl := Option.some.inj (hbody.symm.trans hbody')
  rw [perform_up hasks] at hperform
  have hruns : ∃ e ∈ ys, e.call.runs = true := by
    obtain ⟨e,he,hr⟩ := hlaunches
    rw [hevents,List.mem_append] at he
    rcases he with he | he
    · rw [Call.quiet_runs (Call.quiet_of_reads (hxs e he))] at hr
      cases hr
    · exact ⟨e,he,hr⟩
  obtain ⟨ttl,-,l,j,hresponse,-,hj,howns⟩ := up_answers hperform hruns
  refine ⟨l,j,hresponse,?_,howns⟩
  rw [i.after_eq,hevents,Service.replay_append,replay_reads i.env hxs,← hperform.world]
  exact hj

/-- Whatever fails, what the answer to a launch shows as the expiry of its node is kept by every later sweep. -/
theorem expiry_kept (rt : Runtime) (w : World) (i : Invocation) (response : Response) (h : Answers rt i w response)
    (hup : Asks asksUp i) (hlaunches : ∃ e ∈ i.events rt w, e.call.runs = true) :
    ∃ status n, response = respond 200 status ∧ n ∈ (i.after rt w).nodes ∧ names status n ∧
      ∀ ls j, j.Sweeps → PromiseKept rt status n (run (after rt) (i.after rt w) ls) j := by
  obtain ⟨l,k,rfl,hk,howns⟩ := h.launch hup hlaunches
  refine ⟨l.document,(l.region,k),rfl,hk,⟨l.document_get.1,?_⟩,fun ls j hsweep => ?_⟩
  · rw [l.document_get.2.1,howns.instanceId]
  · exact promiseKept howns.tags ((ages_lasting rt _).run ls ⟨_,(List.mem_filter.mp hk).1,.refl _⟩) hsweep

theorem expiry_kept_plain : ∃ response status n, response = respond 200 status ∧
    n ∈ (firstUp.after Plain.runtime Plain.empty).nodes ∧ names status n ∧ ∀ ls j, j.Sweeps →
      PromiseKept Plain.runtime status n (run (after Plain.runtime) (firstUp.after Plain.runtime Plain.empty) ls) j := by
  have hlaunches : ∃ e ∈ firstUp.events Plain.runtime Plain.empty, e.call.runs = true := by decide +kernel
  obtain ⟨response,h⟩ : ∃ response, Answers Plain.runtime firstUp Plain.empty response :=
    answers_of_status (by decide +kernel)
  have hup : Asks asksUp firstUp := ⟨[(text "action",.str (text "up"))],by decide +kernel,rfl⟩
  exact ⟨response,expiry_kept Plain.runtime Plain.empty firstUp response h hup hlaunches⟩

end ShardVPN.System
