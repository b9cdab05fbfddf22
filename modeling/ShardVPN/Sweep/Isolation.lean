import ShardVPN.Sweep.Sight

/-! # Failures stay where they are

A sweep always returns. Two sweeps of one world that differ in the failures of some
calls are compared: what they terminate and what they write differ only if the calls
are reads that decide it.
-/
namespace ShardVPN.Watchdog
open Effect Ec2ops Settings Time

/-- Calls whose failure is at most recorded: messages, metrics, stamps and the threshold. -/
def incidental (rt : Runtime) : Call → Bool
  | .publish .. => true
  | .getMetricStatistics .. => true
  | .createTags .. => true
  | c => decide (c = thresholdRead rt)

/-- Two environments that list regions and instances alike. -/
structure ListsAlike (env env' : Env) : Prop where
  regionOrder : env'.regionOrder = env.regionOrder
  reservations : env'.reservations = env.reservations

/-- The later world has no nodes in some regions and the same nodes in the others. -/
structure Emptied (lost : Text → Prop) (v w : World) : Prop where
  regions : w.regions = v.regions
  kept : ∀ r, ¬lost r → w.nodesIn r = v.nodesIn r
  emptied : ∀ r, lost r → w.nodesIn r = []

/-- What a sweep returns. -/
def sweepSummary (rt : Runtime) (now : DateTime) (env : Env) (s : State) : Summary :=
  match ((sweep rt now).exec env.service s).1 with
  | .ok summary => summary

/-- The events of a sweep. -/
def sweepEvents (rt : Runtime) (now : DateTime) (env : Env) (s : State) : List Event :=
  (sweep rt now).events env.service s

section
variable {rt : Runtime} {env env' : Env} {before : List Event} {v w : World} {now : DateTime} {s : State}

/-! ## Equal replies -/

theorem regionsSeen_congr (hlists : ListsAlike env env') (hregions : w.regions = v.regions)
    (hfault : env'.fault (.describeRegions rt.controlRegion) = env.fault (.describeRegions rt.controlRegion)) :
    regionsSeen rt env' before w = regionsSeen rt env before v := by
  refine Service.reply_congr hfault fun n => ?_
  simp only [Env.service,Env.answer,hlists.regionOrder,hregions]

theorem scanSeen_congr (hlists : ListsAlike env env') {region : Text} (hnodes : w.nodesIn region = v.nodesIn region)
    (hfault : env'.fault (scanCall region) = env.fault (scanCall region)) :
    scanSeen env' before w region = scanSeen env before v region := by
  have hreply : env'.service.reply before w (scanCall region) = env.service.reply before v (scanCall region) := by
    refine Service.reply_congr hfault fun n => ?_
    simp only [scanCall,Env.service,Env.answer,hlists.reservations,matchesAll_nodeFilters]
    exact congrArg (fun is => Except.ok (env.reservations region n is)) hnodes
  unfold scanSeen
  rw [hreply]

theorem scanSeen_region (env : Env) (before : List Event) (w : World) (region : Text) :
    (scanSeen env before w region).region = region := by
  unfold scanSeen
  cases env.service.reply before w (scanCall region) <;> rfl

/-- An empty region and a failed scan look the same. -/
theorem scanSeen_nil {region : Text} (h : w.nodesIn region = [] ∨
    ∃ e, env.service.reply before w (scanCall region) = .error e) : (scanSeen env before w region).nodes = [] := by
  unfold scanSeen
  cases hreply : env.service.reply before w (scanCall region) with
  | error e => rfl
  | ok reservations =>
    rcases h with h | ⟨e,he⟩
    · unfold Service.reply at hreply
      cases hf : env.service.fault (scanCall region) (Action.occurrences (scanCall region) before) with
      | none =>
        rw [hf] at hreply
        obtain rfl := Except.ok.inj hreply
        refine List.Perm.eq_nil (((env.reservations_perm _ _ _).trans ?_))
        simp only [matchesAll_nodeFilters]
        exact List.Perm.of_eq h
      | refused e =>
        rw [hf] at hreply
        cases hreply
      | lost e =>
        rw [hf] at hreply
        cases hreply
    · rw [hreply] at he
      cases he

theorem doomed_congr {scanned scanned' : List Scan} (h : foundNodes scanned' = foundNodes scanned) :
    doomed now scanned' = doomed now scanned := by
  unfold doomed remaining
  rw [h]

/-! ## Equal sights -/

theorem scansSeen_congr (hlists : ListsAlike env env')
    (hregions : env'.fault (.describeRegions rt.controlRegion) = env.fault (.describeRegions rt.controlRegion))
    (hscan : ∀ region, env'.fault (scanCall region) = env.fault (scanCall region)) :
    scansSeen rt env' before w = scansSeen rt env before w := by
  have heach : scanSeen env' before w = scanSeen env before w :=
    funext fun region => scanSeen_congr hlists rfl (hscan region)
  unfold scansSeen
  rw [regionsSeen_congr hlists rfl hregions,heach]

theorem pointerSeen_congr (hfault : env'.fault (pointerRead rt) = env.fault (pointerRead rt)) :
    pointerSeen rt env' before w = pointerSeen rt env before w := by
  have hreply : env'.service.reply before w (pointerRead rt) = env.service.reply before w (pointerRead rt) :=
    Service.reply_congr hfault fun n => rfl
  unfold pointerSeen
  rw [hreply]

/-- Regions that are lost to one sweep and empty to the other yield the same nodes. -/
theorem foundNodes_lost {lost : Text → Prop} (hlists : ListsAlike env env') (hemptied : Emptied lost v w)
    (hlost : ∀ r, lost r → ∃ e, env.service.reply before v (scanCall r) = .error e)
    (hfault : ∀ c, (∀ r, lost r → c ≠ scanCall r) → env'.fault c = env.fault c) :
    foundNodes (scansSeen rt env' before w) = foundNodes (scansSeen rt env before v) := by
  have heach : ∀ region, (scanSeen env' before w region).nodes = (scanSeen env before v region).nodes := by
    intro region
    by_cases hr : lost region
    · rw [scanSeen_nil (Or.inl (hemptied.emptied region hr)),scanSeen_nil (Or.inr (hlost region hr))]
    · have hscan := hfault (scanCall region) fun r hlost hc => hr (scanCall_injective hc ▸ hlost)
      rw [scanSeen_congr hlists (hemptied.kept region hr) hscan]
  unfold scansSeen
  rw [regionsSeen_congr hlists hemptied.regions (hfault _ fun r _ hc => by cases hc)]
  cases regionsSeen rt env before v with
  | error e => rfl
  | ok regions =>
    unfold foundNodes
    dsimp only
    rw [List.flatMap_map,List.flatMap_map]
    refine List.flatMap_congr fun region _ => ?_
    rw [heach,scanSeen_region,scanSeen_region]

/-! ## Equal deeds -/

theorem sweep_returns (rt : Runtime) (now : DateTime) (env : Env) (s : State) :
    ((sweep rt now).exec env.service s).1 = .ok (sweepSummary rt now env s) := by
  unfold sweepSummary
  rcases ((sweep rt now).exec env.service s).1 with x | summary
  · exact x.elim
  · rfl

theorem sweepEvents_steps (rt : Runtime) (now : DateTime) (env : Env) (s : State) :
    Steps env.service (sweep rt now) s (.ok (sweepSummary rt now env s)) (sweepEvents rt now env s)
      ((sweep rt now).exec env.service s).2 := by
  rw [← sweep_returns]
  exact (sweep rt now).steps_exec env.service s

theorem attempted_sweep (rt : Runtime) (now : DateTime) (env : Env) (s : State) :
    attempted (sweepEvents rt now env s) = (doomed now (scansSeen rt env s.trace s.world)).map Node.key :=
  sweep_attempts (sweepEvents_steps rt now env s)

theorem puts_sweep (rt : Runtime) (now : DateTime) (env : Env) (s : State) :
    puts (sweepEvents rt now env s) = (decisionSeen rt env s.trace s.world now).toList.map
      (fun value => env.service.event s.trace s.world (pointerWrite rt value)) :=
  sweep_puts (sweepEvents_steps rt now env s)

/-- Failures of messages, metrics, stamps and the threshold change no terminate and no write. -/
theorem incidental_isolated (hlists : ListsAlike env env')
    (hfault : ∀ c, incidental rt c = false → env'.fault c = env.fault c) :
    attempted (sweepEvents rt now env' s) = attempted (sweepEvents rt now env s) ∧
      puts (sweepEvents rt now env' s) = puts (sweepEvents rt now env s) := by
  have hscans : scansSeen rt env' s.trace s.world = scansSeen rt env s.trace s.world :=
    scansSeen_congr hlists (hfault _ (by simp [incidental,thresholdRead]))
      fun region => hfault _ (by simp [incidental,thresholdRead,scanCall])
  have hregions : regionsSeen rt env' s.trace s.world = regionsSeen rt env s.trace s.world :=
    regionsSeen_congr hlists rfl (hfault _ (by simp [incidental,thresholdRead]))
  have hpointer : pointerSeen rt env' s.trace s.world = pointerSeen rt env s.trace s.world :=
    pointerSeen_congr (hfault _ (decide_eq_false fun h => pointerRead_ne h.symm))
  have hdecision : decisionSeen rt env' s.trace s.world now = decisionSeen rt env s.trace s.world now := by
    unfold decisionSeen
    rw [hregions,hpointer,hscans]
  refine ⟨by rw [attempted_sweep,attempted_sweep,hscans],?_⟩
  rw [puts_sweep,puts_sweep,hdecision]
  refine List.map_congr_left fun value _ => ?_
  exact Service.event_congr (hfault _ (by simp [incidental,thresholdRead,pointerWrite])) fun n => rfl

/-- A failed terminate changes no attempt. -/
theorem terminates_isolated (hlists : ListsAlike env env')
    (hfault : ∀ c, c.terminates = false → env'.fault c = env.fault c) :
    attempted (sweepEvents rt now env' s) = attempted (sweepEvents rt now env s) := by
  rw [attempted_sweep,attempted_sweep,scansSeen_congr hlists (hfault _ rfl) fun region => hfault _ rfl]

/-- A failed scan has the attempts of an empty region. -/
theorem scans_isolated {lost : Text → Prop} (hlists : ListsAlike env env') (hemptied : Emptied lost s.world w)
    (hlost : ∀ r, lost r → ∃ e, env.service.reply s.trace s.world (scanCall r) = .error e)
    (hfault : ∀ c, (∀ r, lost r → c ≠ scanCall r) → env'.fault c = env.fault c) :
    attempted (sweepEvents rt now env' ⟨w,s.proc,s.trace⟩) = attempted (sweepEvents rt now env s) := by
  rw [attempted_sweep,attempted_sweep,doomed_congr (foundNodes_lost hlists hemptied hlost hfault)]

theorem decisionSeen_reached {pointer : Option Pointer} {regions : List Text}
    (hregions : regionsSeen rt env before w = .ok regions) (hpointer : pointerSeen rt env before w = .ok pointer)
    (horderable : (remaining now (scansSeen rt env before w)).length ≤ 1 ∨
      ∀ n ∈ remaining now (scansSeen rt env before w), launchTime n ≠ none) :
    decisionSeen rt env before w now = reconciled pointer (keptNode (remaining now (scansSeen rt env before w)))
      (scanFailedRegions (scansSeen rt env before w)) := by
  have ho : (orderSurvivors (remaining now (scansSeen rt env before w))).2 = true := by
    by_contra hunordered
    obtain ⟨hlen,n,hn,hnone⟩ := orderSurvivors_unordered.mp (Bool.not_eq_true _ ▸ hunordered)
    rcases horderable with hshort | hall
    · omega
    · exact hall n hn hnone
  unfold decisionSeen decision
  rw [hregions,hpointer]
  exact if_pos ho

/-- A sweep returns, and no failure reaches beyond the step it belongs to. -/
theorem sweep_isolates (rt : Runtime) (now : DateTime) (env : Env) (s : State) :
    (∃ summary, ((sweep rt now).exec env.service s).1 = .ok summary) ∧
    (∀ env', ListsAlike env env' → (∀ c, incidental rt c = false → env'.fault c = env.fault c) →
      attempted (sweepEvents rt now env' s) = attempted (sweepEvents rt now env s) ∧
        puts (sweepEvents rt now env' s) = puts (sweepEvents rt now env s)) ∧
    (∀ env', ListsAlike env env' → (∀ c, c.terminates = false → env'.fault c = env.fault c) →
      attempted (sweepEvents rt now env' s) = attempted (sweepEvents rt now env s)) ∧
    (∀ env' w lost, ListsAlike env env' → Emptied lost s.world w →
      (∀ r, lost r → ∃ e, env.service.reply s.trace s.world (scanCall r) = .error e) →
      (∀ c, (∀ r, lost r → c ≠ scanCall r) → env'.fault c = env.fault c) →
      attempted (sweepEvents rt now env' ⟨w,s.proc,s.trace⟩) = attempted (sweepEvents rt now env s)) ∧
    ∀ pointer regions, regionsSeen rt env s.trace s.world = .ok regions →
      pointerSeen rt env s.trace s.world = .ok pointer →
      ((remaining now (scansSeen rt env s.trace s.world)).length ≤ 1 ∨
        ∀ n ∈ remaining now (scansSeen rt env s.trace s.world), launchTime n ≠ none) →
      puts (sweepEvents rt now env s) =
        (reconciled pointer (keptNode (remaining now (scansSeen rt env s.trace s.world)))
          (scanFailedRegions (scansSeen rt env s.trace s.world))).toList.map
            (fun value => env.service.event s.trace s.world (pointerWrite rt value)) := by
  refine ⟨⟨_,sweep_returns rt now env s⟩,fun env' => incidental_isolated,fun env' => terminates_isolated,
    fun env' w lost => scans_isolated,?_⟩
  intro pointer regions hregions hpointer horderable
  rw [puts_sweep,decisionSeen_reached hregions hpointer horderable]

end

/-- With every incidental call refused, the drifted account is swept as ever. -/
theorem sweep_isolates_drift :
    attempted (sweepEvents Plain.runtime Plain.midnight.toDateTime (Plain.refuse (incidental Plain.runtime))
      (Plain.state (Plain.drift Settings.empty))) =
    attempted (sweepEvents Plain.runtime Plain.midnight.toDateTime Plain.clean
      (Plain.state (Plain.drift Settings.empty))) := by
  obtain ⟨-,hincidental,-⟩ := sweep_isolates Plain.runtime Plain.midnight.toDateTime Plain.clean
    (Plain.state (Plain.drift Settings.empty))
  refine (hincidental (Plain.refuse (incidental Plain.runtime)) ⟨rfl,rfl⟩ ?_).1
  intro c hc
  funext n
  change (if incidental Plain.runtime c = true then Fault.refused Plain.throttled else .none) = .none
  rw [hc]
  rfl

end ShardVPN.Watchdog
