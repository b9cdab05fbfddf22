import ShardVPN.Sweep.Cull
import ShardVPN.Sweep.Order
import ShardVPN.Sweep.Scan

/-! # The phases of a sweep

A sweep that knows its regions scans, reaps, removes duplicates, looks after the
candidate, reconciles the pointer and reports. Its record keeps the events of each
phase apart, so that a property of a sweep is a property of the phases it concerns.
-/
namespace ShardVPN.Watchdog
open Effect Ec2ops Settings Time

/-- Calls that change no parameter and no node beyond its alert stamp. -/
def inspects : Call → Bool
  | .publish .. => true
  | .getMetricStatistics .. => true
  | .createTags _ _ [t] => decide (t.key = tagAlerted)
  | _ => false

theorem inspects_of_notifies {c : Call} (h : c.notifies = true) : inspects c = true := by
  cases c <;> first | rfl | cases h

theorem terminates_of_inspects {c : Call} (h : inspects c = true) : c.terminates = false := by
  cases c <;> first | rfl | cases h

theorem keepsParameters_of_inspects {c : Call} (h : inspects c = true) : c.keepsParameters = true := by
  cases c <;> first | rfl | cases h

theorem scans_of_inspects {c : Call} (h : inspects c = true) : c.scans = false := by
  cases c <;> first | rfl | cases h

/-- The later summary has the same terminations and at least the same failures. -/
structure Summary.Grows (a b : Summary) : Prop where
  reaped : b.reaped = a.reaped
  duplicates : b.duplicates = a.duplicates
  failures : ∃ fs, b.failures = a.failures ++ fs

theorem Summary.Grows.refl (a : Summary) : a.Grows a := ⟨rfl,rfl,[],by simp⟩

theorem Summary.grows_of_eq {a b : Summary} (h : b = a) : a.Grows b := h ▸ .refl a

theorem Summary.Grows.trans {a b c : Summary} (h : a.Grows b) (k : b.Grows c) : a.Grows c := by
  obtain ⟨fs,hfs⟩ := h.failures
  obtain ⟨gs,hgs⟩ := k.failures
  exact ⟨k.reaped.trans h.reaped,k.duplicates.trans h.duplicates,fs ++ gs,by rw [hgs,hfs,List.append_assoc]⟩

theorem Summary.grows_fail (a : Summary) (failure : Text) : a.Grows (a.fail failure) := ⟨rfl,rfl,_,rfl⟩

theorem Cull.failures_grow {rt : Runtime} {reason : Reason} {nodes : List Node} {a b : Summary} {es : List Event}
    (h : Cull rt reason nodes a es b) : ∃ fs, b.failures = a.failures ++ fs := by
  obtain ⟨fs,hfs,-⟩ := h.failures
  exact ⟨fs,hfs⟩

section
variable {rt : Runtime} {env : Env} {s t : State} {es : List Event}

/-! ## Before the scan -/

/-- The read of the idle threshold. -/
def thresholdRead (rt : Runtime) : Call :=
  .getParameter rt.controlRegion ParamName.idleThresholdBytes.path false

/-- The threshold is the integer that was replied, or its loss is recorded. -/
theorem readThreshold_reply {summary summary' : Summary} {threshold : Option ℤ}
    (h : Steps env.service (readThreshold rt summary) s (.ok (threshold,summary')) es t) :
    t.world = s.world ∧ es = [env.service.event s.trace s.world (thresholdRead rt)] ∧
      threshold = (env.service.reply s.trace s.world (thresholdRead rt)).toOption.bind int ∧
      ((threshold.isSome = true ∧ summary' = summary) ∨ threshold = none ∧ ∃ f, summary' = summary.fail f) := by
  obtain ⟨v,u,xs,ys,h1,h2,rfl⟩ := h.bind_attempt
  have hworld : u.world = s.world := world_of_inert (.call fun _ => rfl) h1
  have hevent : xs = [env.service.event s.trace s.world (thresholdRead rt)] := h1.call_event
  obtain ⟨-,hv,-⟩ := h1.call_reply
  change v = (env.service.reply s.trace s.world (thresholdRead rt)).mapError Exn.service at hv
  subst hevent
  cases hreply : env.service.reply s.trace s.world (thresholdRead rt) with
  | error e =>
    rw [hreply] at hv
    subst hv
    obtain ⟨hr,rfl,rfl⟩ := Steps.pure_iff.mp h2
    cases hr
    exact ⟨hworld,rfl,rfl,Or.inr ⟨rfl,_,rfl⟩⟩
  | ok raw =>
    rw [hreply] at hv
    subst hv
    dsimp only [Except.mapError] at h2
    cases hint : int raw with
    | some n =>
      rw [hint] at h2
      obtain ⟨hr,rfl,rfl⟩ := Steps.pure_iff.mp h2
      cases hr
      exact ⟨hworld,rfl,hint.symm,Or.inl ⟨rfl,rfl⟩⟩
    | none =>
      rw [hint] at h2
      obtain ⟨hr,rfl,rfl⟩ := Steps.pure_iff.mp h2
      cases hr
      exact ⟨hworld,rfl,hint.symm,Or.inr ⟨rfl,_,rfl⟩⟩

theorem readThreshold_cases {summary summary' : Summary} {threshold : Option ℤ}
    (h : Steps env.service (readThreshold rt summary) s (.ok (threshold,summary')) es t) :
    t.world = s.world ∧ summary.Grows summary' ∧ ∃ e, es = [e] ∧ e.call = thresholdRead rt ∧
      (e.succeeded = true →
        threshold = (s.world.parameters rt.controlRegion ParamName.idleThresholdBytes.path).bind int ∧
          (threshold = none ∨ summary' = summary)) := by
  obtain ⟨hworld,rfl,hthreshold,hsummary⟩ := readThreshold_reply h
  refine ⟨hworld,?_,_,rfl,Service.event_call _ _ _,?_⟩
  · rcases hsummary with ⟨-,rfl⟩ | ⟨-,f,rfl⟩
    · exact .refl _
    · exact summary.grows_fail f
  · intro hok
    rw [Service.event_succeeded] at hok
    refine ⟨?_,hsummary.symm.imp And.left And.right⟩
    cases hreply : env.service.reply s.trace s.world (thresholdRead rt) with
    | error e =>
      rw [hreply] at hok
      cases hok
    | ok raw =>
      rw [hreply] at hthreshold
      rw [parameter_of_reply hreply]
      exact hthreshold

theorem validRegions_cases {r : Except Exn (List Text)}
    (h : Steps env.service (validRegions rt.controlRegion) s r es t) : t.world = s.world ∧
    ((∃ regions, r = .ok regions ∧ regions.Perm s.world.regions ∧
        es = [⟨.describeRegions rt.controlRegion,none,true⟩]) ∨
      ∃ e b, r = .error (.service e) ∧ es = [⟨.describeRegions rt.controlRegion,some e,b⟩]) := by
  obtain ⟨-,⟨a,n,rfl,rfl,ha⟩ | ⟨e,b,n,rfl,rfl,-⟩⟩ := call_cases h
  · refine ⟨world_of_event h (fun _ => rfl),Or.inl ⟨a,rfl,?_,rfl⟩⟩
    obtain rfl := Except.ok.inj ha
    exact env.regionOrder_perm _ _
  · exact ⟨world_of_event h (fun _ => rfl),Or.inr ⟨e,b,rfl,rfl⟩⟩

theorem notifyFailures_only (rt : Runtime) (summary : Summary) :
    Only (fun c => c.notifies = true) (notifyFailures rt summary) := by
  rw [notifyFailures]
  split
  · exact .pure _
  · exact publish_only rt _

/-! ## Step 2 -/

/-- What step 2 makes of the survivors. -/
inductive Deduplicated (rt : Runtime) (survivors : List Node) (summary : Summary) (es : List Event) :
    Option Node → Summary → Prop
  | unordered {failure : Text} : (orderSurvivors survivors).2 = false → (∀ e ∈ es, e.call.notifies = true) →
      Deduplicated rt survivors summary es none (summary.fail failure)
  | ordered {summary' : Summary} : (orderSurvivors survivors).2 = true →
      Cull rt .duplicate (orderSurvivors survivors).1.tail summary es summary' →
      Deduplicated rt survivors summary es (orderSurvivors survivors).1.head? summary'

theorem deduplicate_only {Q : Call → Prop}
    (hterminate : ∀ region instanceId, Q (.terminateInstances region [instanceId]))
    (htold : ∀ n reason, Q (publishCall rt (terminatedMessage n reason)))
    (hunordered : ∀ survivors, Q (publishCall rt (unorderedMessage survivors))) (survivors : List Node)
    (summary : Summary) : Only Q (deduplicate rt survivors summary) := by
  unfold deduplicate
  split
  · exact .bind ((publish_call rt _).mono fun c hc => hc ▸ hunordered survivors) fun _ => .pure _
  · exact .bind (terminateDuplicates_only hterminate htold _ _) fun _ => .pure _

theorem deduplicate_cases {survivors : List Node} {summary summary' : Summary} {candidate : Option Node}
    (h : Steps env.service (deduplicate rt survivors summary) s (.ok (candidate,summary')) es t) :
    Deduplicated rt survivors summary es candidate summary' := by
  rw [deduplicate] at h
  rcases ho : orderSurvivors survivors with ⟨ordered,orderable⟩
  rw [ho] at h
  cases orderable with
  | false =>
    obtain ⟨_,u,xs,ys,h1,h2,rfl⟩ := h.bind_total
    obtain ⟨hv,rfl,rfl⟩ := Steps.pure_iff.mp h2
    cases hv
    rw [List.append_nil]
    exact .unordered (by rw [ho]) (publish_only rt _ h1)
  | true =>
    obtain ⟨summary₁,u,xs,ys,h1,h2,rfl⟩ := h.bind_total
    obtain ⟨hv,rfl,rfl⟩ := Steps.pure_iff.mp h2
    cases hv
    rw [List.append_nil]
    have hcull := terminateDuplicates_cases h1
    rw [show ordered = (orderSurvivors survivors).1 by rw [ho]] at hcull ⊢
    exact .ordered (by rw [ho]) hcull

theorem Deduplicated.calls {survivors : List Node} {summary summary' : Summary} {candidate : Option Node}
    (h : Deduplicated rt survivors summary es candidate summary') :
    ∀ e ∈ es, e.call.onlyRemoves = true ∧ e.call.keepsParameters = true ∧ e.call.scans = false := by
  cases h with
  | unordered _ hes =>
    intro e he
    have hq := Call.notifies_quiet (hes e he)
    exact ⟨Call.quiet_onlyRemoves hq,Call.quiet_keepsParameters hq,Call.notifies_scans (hes e he)⟩
  | ordered _ hcull => exact hcull.calls

theorem Deduplicated.failures_grow {survivors : List Node} {summary summary' : Summary}
    {candidate : Option Node} (h : Deduplicated rt survivors summary es candidate summary') :
    ∃ fs, summary'.failures = summary.failures ++ fs := by
  cases h with
  | unordered _ _ => exact ⟨_,rfl⟩
  | ordered _ hcull => exact hcull.failures_grow

/-! ## Step 3 -/

theorem idleCheck_only (rt : Runtime) (now : DateTime) (threshold : ℤ) (n : Node) (summary : Summary) :
    Only (fun c => inspects c = true) (idleCheck rt now threshold n summary) := by
  refine .bind (networkOut_only _ _ _ _ fun _ => rfl) fun points => ?_
  split
  · refine .bind ((publish_only rt _).total.mono fun _ => inspects_of_notifies) fun _ => ?_
    refine .bind (ofExcept_only _) fun stamp => ?_
    refine .bind (.call ?_) fun _ => .pure _
    simp [inspects]
  · exact .pure _

theorem orphanCheck_only (rt : Runtime) (readable : Bool) (pointer : Option Pointer) (n : Node)
    (summary : Summary) : Only (fun c => c.notifies = true) (orphanCheck rt readable pointer n summary) := by
  rw [orphanCheck]
  split
  · exact .bind (publish_only rt _) fun _ => .pure _
  · exact .pure _

theorem idleStep_only (rt : Runtime) (now : DateTime) (threshold : Option ℤ) (n : Node) (summary : Summary) :
    Only (fun c => inspects c = true) (idleStep rt now threshold n summary) := by
  cases threshold with
  | none => exact .pure _
  | some threshold =>
    rw [idleStep]
    split
    · exact .pure _
    · refine .bind (.attempt (idleCheck_only rt _ _ _ _)) fun r => ?_
      cases r with
      | ok summary => exact .pure _
      | error e => exact .pure _

theorem checkCandidate_only (rt : Runtime) (now : DateTime) (threshold : Option ℤ) (readable : Bool)
    (pointer : Option Pointer) (candidate : Option Node) (summary : Summary) :
    Only (fun c => inspects c = true)
      (checkCandidate rt now threshold readable pointer candidate summary) := by
  cases candidate with
  | none => exact .pure _
  | some n => exact .bind ((orphanCheck_only rt _ _ _ _).mono fun _ => inspects_of_notifies) fun _ =>
      idleStep_only rt _ _ _ _

theorem idleCheck_grows {now : DateTime} {threshold : ℤ} {n : Node} {summary summary' : Summary}
    (h : Steps env.service (idleCheck rt now threshold n summary) s (.ok summary') es t) :
    summary.Grows summary' ∧ summary'.failures = summary.failures := by
  rcases h.bind_cases with ⟨points,u,xs,ys,-,h2,-⟩ | ⟨x,-,hr⟩
  · split at h2
    · rcases h2.bind_cases with ⟨_,v,ys,zs,-,h3,-⟩ | ⟨x,-,hr⟩
      · rcases h3.bind_cases with ⟨stamp,v,ys,zs,-,h4,-⟩ | ⟨x,-,hr⟩
        · rcases h4.bind_cases with ⟨_,v,ys,zs,-,h5,-⟩ | ⟨x,-,hr⟩
          · obtain ⟨hv,-,-⟩ := Steps.pure_iff.mp h5
            cases hv
            exact ⟨⟨rfl,rfl,[],by simp⟩,rfl⟩
          · cases hr
        · cases hr
      · cases hr
    · obtain ⟨hv,-,-⟩ := Steps.pure_iff.mp h2
      cases hv
      exact ⟨.refl _,rfl⟩
  · cases hr

theorem orphanCheck_cases {readable : Bool} {pointer : Option Pointer} {n : Node} {summary summary' : Summary}
    (h : Steps env.service (orphanCheck rt readable pointer n summary) s (.ok summary') es t) :
    summary.Grows summary' ∧ summary'.failures = summary.failures ∧
      (untracked pointer n.2.instanceId = false → es = []) := by
  rw [orphanCheck] at h
  split at h
  · rename_i hu
    obtain ⟨_,v,xs,zs,-,h2,-⟩ := h.bind_total
    obtain ⟨hv,-,-⟩ := Steps.pure_iff.mp h2
    cases hv
    exact ⟨⟨rfl,rfl,[],by simp⟩,rfl,fun hf => by rw [hu] at hf; cases hf⟩
  · obtain ⟨hv,rfl,-⟩ := Steps.pure_iff.mp h
    cases hv
    exact ⟨.refl _,rfl,fun _ => rfl⟩

theorem idleStep_grows {now : DateTime} {threshold : Option ℤ} {n : Node} {summary summary' : Summary}
    (h : Steps env.service (idleStep rt now threshold n summary) s (.ok summary') es t) :
    summary.Grows summary' := by
  cases threshold with
  | none =>
    obtain ⟨hv,-,-⟩ := Steps.pure_iff.mp h
    cases hv
    exact .refl _
  | some threshold =>
    rw [idleStep] at h
    split at h
    · obtain ⟨hv,-,-⟩ := Steps.pure_iff.mp h
      cases hv
      exact .refl _
    · obtain ⟨v,w,xs,ys,h3,h4,-⟩ := h.bind_attempt
      cases v with
      | ok summary₂ =>
        obtain ⟨hv,-,-⟩ := Steps.pure_iff.mp h4
        cases hv
        exact (idleCheck_grows h3).1
      | error e =>
        obtain ⟨hv,-,-⟩ := Steps.pure_iff.mp h4
        cases hv
        exact summary.grows_fail _

theorem checkCandidate_grows {now : DateTime} {threshold : Option ℤ} {readable : Bool} {pointer : Option Pointer}
    {candidate : Option Node} {summary summary' : Summary}
    (h : Steps env.service (checkCandidate rt now threshold readable pointer candidate summary) s
      (.ok summary') es t) : summary.Grows summary' := by
  cases candidate with
  | none =>
    obtain ⟨hv,-,-⟩ := Steps.pure_iff.mp h
    cases hv
    exact .refl _
  | some n =>
    obtain ⟨summary₁,u,xs,ys,h1,h2,-⟩ := h.bind_total
    exact (orphanCheck_cases h1).1.trans (idleStep_grows h2)

/-! ## Step 4 -/

/-- What step 4 writes: its decision, its event, and what it records. -/
inductive Reconciled (rt : Runtime) (decision : Option (Option Pointer)) (summary : Summary) :
    List Event → Summary → Prop
  | unchanged : decision = none → Reconciled rt decision summary [] summary
  | wrote {value : Option Pointer} : decision = some value →
      Reconciled rt decision summary [⟨pointerWrite rt value,none,true⟩] summary
  | failed {value : Option Pointer} {e : ServiceError} {effective : Bool} {failure : Text} :
      decision = some value →
      Reconciled rt decision summary [⟨pointerWrite rt value,some e,effective⟩] (summary.fail failure)

theorem reconcile_cases {pointer : Option Pointer} {candidate : Option Node} {failedRegions : List Text}
    {summary summary' : Summary}
    (h : Steps env.service (reconcile rt pointer candidate failedRegions summary) s (.ok summary') es t) :
    Reconciled rt (reconciled pointer candidate failedRegions) summary es summary' := by
  rw [reconcile] at h
  split at h
  · rename_i hd
    obtain ⟨hv,rfl,-⟩ := Steps.pure_iff.mp h
    cases hv
    exact .unchanged hd
  · rename_i value hd
    obtain ⟨v,u,xs,ys,h1,h2,rfl⟩ := h.bind_attempt
    rcases writePointer_cases h1 with ⟨rfl,rfl⟩ | ⟨e,b,rfl,rfl⟩
    · obtain ⟨hv,rfl,-⟩ := Steps.pure_iff.mp h2
      cases hv
      exact .wrote hd
    · obtain ⟨hv,rfl,-⟩ := Steps.pure_iff.mp h2
      cases hv
      exact .failed hd

theorem Reconciled.grows {decision : Option (Option Pointer)} {summary summary' : Summary}
    (h : Reconciled rt decision summary es summary') : summary.Grows summary' := by
  cases h with
  | unchanged _ => exact .refl _
  | wrote _ => exact .refl _
  | failed _ => exact summary.grows_fail _

theorem Reconciled.calls {decision : Option (Option Pointer)} {summary summary' : Summary}
    (h : Reconciled rt decision summary es summary') : ∀ e ∈ es, ∃ value, e.call = pointerWrite rt value := by
  cases h with
  | unchanged _ => simp
  | wrote _ => exact fun e he => ⟨_,congrArg Event.call (List.mem_singleton.mp he)⟩
  | failed _ => exact fun e he => ⟨_,congrArg Event.call (List.mem_singleton.mp he)⟩

theorem Reconciled.written {decision : Option (Option Pointer)} {summary summary' : Summary}
    (h : Reconciled rt decision summary es summary') {raw : Text} (hraw : raw ∈ written es) :
    ∃ value, decision = some value ∧ raw = encodePointer value := by
  cases h with
  | unchanged _ => cases hraw
  | wrote hd => exact ⟨_,hd,List.mem_singleton.mp hraw⟩
  | failed hd => exact ⟨_,hd,List.mem_singleton.mp hraw⟩

/-! ## The whole sweep -/

/-- A sweep over known regions, phase by phase. -/
structure SweepRun (rt : Runtime) (env : Env) (now : DateTime) (threshold : Option ℤ)
    (pointer : Except Exn (Option Pointer)) (regions : List Text) (w : World) (summary summary' : Summary)
    (es : List Event) where
  scanned : List Scan
  scanEvents : List Event
  reapEvents : List Event
  dedupEvents : List Event
  checkEvents : List Event
  reconcileEvents : List Event
  notifyEvents : List Event
  afterReap : Summary
  afterDedup : Summary
  afterCheck : Summary
  candidate : Option Node
  events : es = scanEvents ++ (reapEvents ++ (dedupEvents ++ (checkEvents ++ (reconcileEvents ++ notifyEvents))))
  scan : List.Forall₂ (ScanEvent w) scanned scanEvents
  scanned_regions : scanned.map Scan.region = regions
  reap : Cull rt .expired ((foundNodes scanned).filter (expired now)) (recordScan regions scanned summary)
    reapEvents afterReap
  dedup : Deduplicated rt ((foundNodes scanned).filter (fun n => !expired now n)) afterReap dedupEvents
    candidate afterDedup
  check : ∃ u v : State, u.world = env.service.replay w (reapEvents ++ dedupEvents) ∧
    Steps env.service (checkCandidate rt now threshold pointer.toBool pointer.toOption.join candidate afterDedup)
      u (.ok afterCheck) checkEvents v
  reconcile : (pointer.toBool = true ∧
        (orderSurvivors ((foundNodes scanned).filter (fun n => !expired now n))).2 = true ∧
        Reconciled rt (reconciled pointer.toOption.join candidate (scanFailedRegions scanned)) afterCheck
          reconcileEvents summary') ∨
      (¬(pointer.toBool = true ∧
        (orderSurvivors ((foundNodes scanned).filter (fun n => !expired now n))).2 = true) ∧
        reconcileEvents = [] ∧ summary' = afterCheck)
  notify : ∃ u v : State, Steps env.service (notifyFailures rt summary') u (.ok ()) notifyEvents v

/-- The phases of such a sweep as executions, one after the other. -/
structure SweepSteps (rt : Runtime) (env : Env) (now : DateTime) (threshold : Option ℤ)
    (pointer : Except Exn (Option Pointer)) (regions : List Text) (s : State) (summary summary' : Summary)
    (es : List Event) where
  scanned : List Scan
  survivors : List Node
  candidate : Option Node
  afterReap : Summary
  afterDedup : Summary
  afterCheck : Summary
  scanEvents : List Event
  reapEvents : List Event
  dedupEvents : List Event
  checkEvents : List Event
  reconcileEvents : List Event
  notifyEvents : List Event
  s₁ : State
  s₂ : State
  s₃ : State
  s₄ : State
  s₅ : State
  s₆ : State
  events : es = scanEvents ++ (reapEvents ++ (dedupEvents ++ (checkEvents ++ (reconcileEvents ++ notifyEvents))))
  scan : Steps env.service (scanAll regions) s (.ok scanned) scanEvents s₁
  reap : Steps env.service (Watchdog.reap rt now (foundNodes scanned) (recordScan regions scanned summary)) s₁
    (.ok (survivors,afterReap)) reapEvents s₂
  dedup : Steps env.service (deduplicate rt survivors afterReap) s₂ (.ok (candidate,afterDedup)) dedupEvents s₃
  check : Steps env.service (checkCandidate rt now threshold pointer.toBool pointer.toOption.join candidate
    afterDedup) s₃ (.ok afterCheck) checkEvents s₄
  reconcile : Steps env.service (reconcileStep rt pointer.toBool (orderSurvivors survivors).2 pointer.toOption.join
    candidate (scanFailedRegions scanned) afterCheck) s₄ (.ok summary') reconcileEvents s₅
  notify : Steps env.service (notifyFailures rt summary') s₅ (.ok ()) notifyEvents s₆

theorem sweepRegions_steps {now : DateTime} {threshold : Option ℤ} {pointer : Except Exn (Option Pointer)}
    {regions : List Text} {summary summary' : Summary}
    (h : Steps env.service (sweepRegions rt now threshold pointer regions summary) s (.ok summary') es t) :
    Nonempty (SweepSteps rt env now threshold pointer regions s summary summary' es) := by
  obtain ⟨scanned,s₁,e₁,ys,h1,h2,rfl⟩ := h.bind_total
  obtain ⟨⟨survivors,a⟩,s₂,e₂,ys,h3,h4,rfl⟩ := h2.bind_total
  obtain ⟨⟨candidate,b⟩,s₃,e₃,ys,h5,h6,rfl⟩ := h4.bind_total
  obtain ⟨c,s₄,e₄,ys,h7,h8,rfl⟩ := h6.bind_total
  obtain ⟨d,s₅,e₅,ys,h9,h10,rfl⟩ := h8.bind_total
  obtain ⟨_,s₆,e₆,ys,h11,h12,rfl⟩ := h10.bind_total
  obtain ⟨hv,rfl,rfl⟩ := Steps.pure_iff.mp h12
  cases hv
  exact ⟨{
    scanned := scanned, survivors := survivors, candidate := candidate, afterReap := a, afterDedup := b
    afterCheck := c, scanEvents := e₁, reapEvents := e₂, dedupEvents := e₃, checkEvents := e₄
    reconcileEvents := e₅, notifyEvents := e₆, s₁ := s₁, s₂ := s₂, s₃ := s₃, s₄ := s₄, s₅ := s₅, s₆ := _
    events := by rw [List.append_nil], scan := h1, reap := h3, dedup := h5, check := h7, reconcile := h9
    notify := h11 }⟩

theorem reconcileStep_only {Q : Call → Prop} (hwrite : ∀ value, Q (pointerWrite rt value)) (readable orderable : Bool)
    (pointer : Option Pointer) (candidate : Option Node) (failedRegions : List Text) (summary : Summary) :
    Only Q (reconcileStep rt readable orderable pointer candidate failedRegions summary) := by
  unfold reconcileStep
  split
  · unfold reconcile
    split
    · exact .pure _
    · refine .bind (.attempt (.call (hwrite _))) fun r => ?_
      cases r with
      | ok _ => exact .pure _
      | error e => exact .pure _
  · exact .pure _

theorem reconcileStep_cases {readable orderable : Bool} {pointer : Option Pointer} {candidate : Option Node}
    {failedRegions : List Text} {summary summary' : Summary}
    (h : Steps env.service (reconcileStep rt readable orderable pointer candidate failedRegions summary) s
      (.ok summary') es t) :
    (readable = true ∧ orderable = true ∧
        Reconciled rt (reconciled pointer candidate failedRegions) summary es summary') ∨
      (¬(readable = true ∧ orderable = true) ∧ es = [] ∧ summary' = summary) := by
  rw [reconcileStep] at h
  split at h
  · rename_i hc
    obtain ⟨hreadable,horderable⟩ := Bool.and_eq_true_iff.mp hc
    exact Or.inl ⟨hreadable,horderable,reconcile_cases h⟩
  · rename_i hc
    obtain ⟨hv,rfl,-⟩ := Steps.pure_iff.mp h
    cases hv
    exact Or.inr ⟨fun hn => hc (Bool.and_eq_true_iff.mpr hn),rfl,rfl⟩

theorem SweepSteps.survivors_eq {now : DateTime} {threshold : Option ℤ} {pointer : Except Exn (Option Pointer)}
    {regions : List Text} {summary summary' : Summary}
    (y : SweepSteps rt env now threshold pointer regions s summary summary' es) :
    y.survivors = (foundNodes y.scanned).filter (fun n => !expired now n) := (reap_cases y.reap).1

/-- The record of the phases. -/
def SweepSteps.run {now : DateTime} {threshold : Option ℤ} {pointer : Except Exn (Option Pointer)}
    {regions : List Text} {summary summary' : Summary}
    (y : SweepSteps rt env now threshold pointer regions s summary summary' es) :
    SweepRun rt env now threshold pointer regions s.world summary summary' es where
  scanned := y.scanned
  scanEvents := y.scanEvents
  reapEvents := y.reapEvents
  dedupEvents := y.dedupEvents
  checkEvents := y.checkEvents
  reconcileEvents := y.reconcileEvents
  notifyEvents := y.notifyEvents
  afterReap := y.afterReap
  afterDedup := y.afterDedup
  afterCheck := y.afterCheck
  candidate := y.candidate
  events := y.events
  scan := (scanAll_cases y.scan).2.2
  scanned_regions := (scanAll_cases y.scan).2.1
  reap := (reap_cases y.reap).2
  dedup := y.survivors_eq ▸ deduplicate_cases y.dedup
  check := ⟨y.s₃,y.s₄,by rw [y.dedup.world,y.reap.world,(scanAll_cases y.scan).1,Service.replay_append],y.check⟩
  reconcile := y.survivors_eq ▸ reconcileStep_cases y.reconcile
  notify := ⟨y.s₅,y.s₆,y.notify⟩

theorem sweepRegions_cases {now : DateTime} {threshold : Option ℤ} {pointer : Except Exn (Option Pointer)}
    {regions : List Text} {summary summary' : Summary}
    (h : Steps env.service (sweepRegions rt now threshold pointer regions summary) s (.ok summary') es t) :
    Nonempty (SweepRun rt env now threshold pointer regions s.world summary summary' es) := by
  obtain ⟨y⟩ := sweepRegions_steps h
  exact ⟨y.run⟩

/-- A sweep from its first call on: threshold, pointer and regions are read in turn,
and without the regions nothing but the report is left. -/
structure SweepTrace (rt : Runtime) (env : Env) (now : DateTime) (w : World) (summary : Summary)
    (es : List Event) where
  thresholdEvent : Event
  pointerEvent : Event
  regionsEvent : Event
  rest : List Event
  threshold : Option ℤ
  pointer : Except Exn (Option Pointer)
  start : Summary
  events : es = thresholdEvent :: pointerEvent :: regionsEvent :: rest
  threshold_call : thresholdEvent.call = thresholdRead rt
  pointer_call : pointerEvent.call = pointerRead rt
  regions_call : regionsEvent.call = .describeRegions rt.controlRegion
  start_grows : Summary.initial.Grows start
  threshold_read : thresholdEvent.succeeded = true →
    threshold = (w.parameters rt.controlRegion ParamName.idleThresholdBytes.path).bind int ∧
      (threshold = none ∨ start = Summary.initial)
  pointer_read : pointer = storedPointer rt w ∨ ∃ x, pointer = .error x
  pointer_known : pointerEvent.succeeded = true → pointer = storedPointer rt w
  run : regionsEvent.succeeded = true → ∃ regions, regions.Perm w.regions ∧
    Nonempty (SweepRun rt env now threshold pointer regions w start summary rest)
  aborted : regionsEvent.succeeded = false → ∀ e ∈ rest, e.call.notifies = true

theorem sweep_cases {now : DateTime} {summary : Summary}
    (h : Steps env.service (sweep rt now) s (.ok summary) es t) :
    Nonempty (SweepTrace rt env now s.world summary es) := by
  obtain ⟨⟨threshold,start⟩,s₁,xs,ys,h1,h2,rfl⟩ := h.bind_total
  obtain ⟨pointer,s₂,ys,zs,h3,h4,rfl⟩ := h2.bind_attempt
  obtain ⟨r,s₃,zs,ws,h5,h6,rfl⟩ := h4.bind_attempt
  obtain ⟨hw1,hgrows,e₁,rfl,hc1,hthreshold⟩ := readThreshold_cases h1
  obtain ⟨hw2,⟨error,effective,rfl,hknown⟩,hpointer⟩ := readPointer_cases h3
  rw [hw1] at hknown hpointer
  have hread : (⟨pointerRead rt,error,effective⟩ : Event).succeeded = true → pointer = storedPointer rt s.world :=
    fun hok => hknown (Option.isNone_iff_eq_none.mp hok)
  obtain ⟨hw3,⟨regions,rfl,hperm,rfl⟩ | ⟨e,b,rfl,rfl⟩⟩ := validRegions_cases h5
  · have hrun := sweepRegions_cases h6
    rw [hw3,hw2,hw1] at hrun
    rw [hw2,hw1] at hperm
    exact ⟨{
      thresholdEvent := e₁, pointerEvent := _, regionsEvent := _, rest := ws, threshold := threshold
      pointer := pointer, start := start, events := rfl, threshold_call := hc1, pointer_call := rfl
      regions_call := rfl, start_grows := hgrows, threshold_read := hthreshold, pointer_read := hpointer
      pointer_known := hread, run := fun _ => ⟨regions,hperm,hrun⟩, aborted := fun hf => by cases hf }⟩
  · obtain ⟨_,u,ws,vs,h7,h8,rfl⟩ := h6.bind_total
    obtain ⟨hv,rfl,rfl⟩ := Steps.pure_iff.mp h8
    cases hv
    exact ⟨{
      thresholdEvent := e₁, pointerEvent := _, regionsEvent := _, rest := ws, threshold := threshold
      pointer := pointer, start := start, events := by rw [List.append_nil]; rfl, threshold_call := hc1
      pointer_call := rfl, regions_call := rfl, start_grows := hgrows, threshold_read := hthreshold
      pointer_read := hpointer, pointer_known := hread, run := fun hf => by cases hf
      aborted := fun _ => notifyFailures_only rt _ h7 }⟩

end

/-! ## The calls of a sweep -/

section
variable {Q : Call → Prop} (hreads : ∀ c, c.reads = true → Q c)
include hreads

theorem readThreshold_only (rt : Runtime) (summary : Summary) : Only Q (readThreshold rt summary) := by
  refine .bind (.attempt (.call (hreads _ rfl))) fun r => ?_
  split
  · exact .pure _
  · split
    · exact .pure _
    · exact .pure _

theorem scanAll_only (regions : List Text) : Only Q (scanAll regions) := by
  induction regions with
  | nil => exact .pure _
  | cons region rest ih =>
    refine .bind (.bind (.attempt (findNodes_only region (hreads _ rfl))) fun r => ?_) fun first => ?_
    · cases r with
      | ok nodes => exact .pure _
      | error e => exact .pure _
    · exact .bind ih fun _ => .pure _

/-- A sweep reads, notifies, stamps, terminates single nodes and writes the pointer. -/
theorem sweep_only (hinspects : ∀ c, inspects c = true → Q c)
    (hterminate : ∀ region instanceId, Q (.terminateInstances region [instanceId]))
    {rt : Runtime} (hwrite : ∀ value, Q (pointerWrite rt value)) (now : DateTime) : Only Q (sweep rt now) := by
  have hpublish : ∀ message, Q (publishCall rt message) := fun _ => hinspects _ rfl
  have hnotify : ∀ summary, Only Q (notifyFailures rt summary) := fun summary =>
    (notifyFailures_only rt summary).mono fun c hc => hinspects c (inspects_of_notifies hc)
  refine .bind (readThreshold_only hreads rt _) fun threshold => ?_
  refine .bind (.attempt (readPointer_only _ _ (hreads _ rfl))) fun pointer => ?_
  refine .bind (.attempt (.call (hreads _ rfl))) fun regions => ?_
  split
  · exact .bind (hnotify _) fun _ => .pure _
  · refine .bind (scanAll_only hreads _) fun scanned => ?_
    refine .bind (reap_only hterminate (fun _ _ => hpublish _) _ _ _) fun reaped => ?_
    refine .bind (deduplicate_only hterminate (fun _ _ => hpublish _) (fun _ => hpublish _) _ _) fun kept => ?_
    refine .bind ((checkCandidate_only rt _ _ _ _ _ _).mono hinspects) fun summary => ?_
    refine .bind (reconcileStep_only hwrite _ _ _ _ _ _) fun summary => ?_
    exact .bind (hnotify _) fun _ => .pure _

end

/-! ## What a run did -/

namespace SweepRun
variable {rt : Runtime} {env : Env} {now : DateTime} {threshold : Option ℤ}
  {pointer : Except Exn (Option Pointer)} {regions : List Text} {w : World} {summary summary' : Summary}
  {es : List Event} (x : SweepRun rt env now threshold pointer regions w summary summary' es)

def found : List Node := foundNodes x.scanned
def expiredNodes : List Node := x.found.filter (expired now)
def survivors : List Node := x.found.filter (fun n => !expired now n)

theorem check_inspects : ∀ e ∈ x.checkEvents, inspects e.call = true := by
  obtain ⟨u,v,-,h⟩ := x.check
  exact checkCandidate_only rt _ _ _ _ _ _ h

theorem notify_notifies : ∀ e ∈ x.notifyEvents, e.call.notifies = true := by
  obtain ⟨u,v,h⟩ := x.notify
  exact notifyFailures_only rt _ h

theorem reconcile_calls : ∀ e ∈ x.reconcileEvents, e.call.terminates = false ∧ e.call.scans = false ∧
    e.call.onlyRemoves = true := by
  rcases x.reconcile with ⟨-,-,h⟩ | ⟨-,h,-⟩
  · intro e he
    obtain ⟨value,hc⟩ := h.calls e he
    rw [hc]
    exact ⟨rfl,rfl,rfl⟩
  · rw [h]
    simp

theorem scannedOk_append (xs ys : List Event) (r : Text) :
    scannedOk (xs ++ ys) r = (scannedOk xs r || scannedOk ys r) := List.any_append

theorem scannedOk_eq_false {xs : List Event} (h : ∀ e ∈ xs, e.call.scans = false) (r : Text) :
    scannedOk xs r = false := by
  rw [scannedOk,List.any_eq_false]
  intro e he hc
  simp only [Bool.and_eq_true,decide_eq_true_eq] at hc
  have hs := h e he
  rw [hc.1] at hs
  cases hs

theorem scannedOk_events (r : Text) : scannedOk es r = scannedOk x.scanEvents r := by
  refine (congrArg (scannedOk · r) x.events).trans ?_
  simp only [scannedOk_append,scannedOk_eq_false (fun e he => (x.reap.calls e he).2.2),
    scannedOk_eq_false (fun e he => (x.dedup.calls e he).2.2),
    scannedOk_eq_false (fun e he => scans_of_inspects (x.check_inspects e he)),
    scannedOk_eq_false (fun e he => (x.reconcile_calls e he).2.1),
    scannedOk_eq_false (fun e he => Call.notifies_scans (x.notify_notifies e he)),Bool.or_false]

theorem scan_terminates : ∀ e ∈ x.scanEvents, e.call.terminates = false := by
  intro e he
  obtain ⟨y,-,hy⟩ := (forall₂_mem x.scan).2 e he
  rw [hy.call]
  rfl

/-- Terminates are attempted in steps 1 and 2 only. -/
theorem attempted_events : attempted es = x.expiredNodes.map Node.key ++ attempted x.dedupEvents := by
  refine (congrArg attempted x.events).trans ?_
  simp only [attempted_append,attempted_eq_nil x.scan_terminates,x.reap.attempted,
    attempted_eq_nil (fun e he => terminates_of_inspects (x.check_inspects e he)),
    attempted_eq_nil (fun e he => (x.reconcile_calls e he).1),
    attempted_eq_nil (fun e he => Call.quiet_terminates (Call.notifies_quiet (x.notify_notifies e he))),
    List.nil_append,List.append_nil]
  rfl

theorem terminated_events : terminated es = terminated x.reapEvents ++ terminated x.dedupEvents := by
  refine (congrArg terminated x.events).trans ?_
  simp only [terminated_append,terminated_eq_nil x.scan_terminates,
    terminated_eq_nil (fun e he => terminates_of_inspects (x.check_inspects e he)),
    terminated_eq_nil (fun e he => (x.reconcile_calls e he).1),
    terminated_eq_nil (fun e he => Call.quiet_terminates (Call.notifies_quiet (x.notify_notifies e he))),
    List.nil_append,List.append_nil]

theorem scan_keepsParameters : ∀ e ∈ x.scanEvents, e.call.keepsParameters = true := by
  intro e he
  obtain ⟨y,-,hy⟩ := (forall₂_mem x.scan).2 e he
  rw [hy.call]
  rfl

/-- Parameters are written in step 4 only. -/
theorem written_events : written es = written x.reconcileEvents := by
  refine (congrArg written x.events).trans ?_
  simp only [written_append,written_eq_nil x.scan_keepsParameters,
    written_eq_nil (fun e he => (x.reap.calls e he).2.1),written_eq_nil (fun e he => (x.dedup.calls e he).2.1),
    written_eq_nil (fun e he => keepsParameters_of_inspects (x.check_inspects e he)),
    written_eq_nil (fun e he => Call.quiet_keepsParameters (Call.notifies_quiet (x.notify_notifies e he))),
    List.nil_append,List.append_nil]

/-- From the end of step 2 on, what is recorded stays recorded. -/
theorem end_grows : x.afterDedup.Grows summary' := by
  obtain ⟨u,v,-,h⟩ := x.check
  refine (checkCandidate_grows h).trans ?_
  rcases x.reconcile with ⟨-,-,h⟩ | ⟨-,-,h⟩
  · exact h.grows
  · exact Summary.grows_of_eq h

section
variable (hregions : regions.Nodup)
include hregions

theorem found_perm : x.found.Perm (w.nodes.filter (fun n => scannedOk es n.1)) := by
  have hnodup : (x.scanned.map Scan.region).Nodup := by rwa [x.scanned_regions]
  have hperm := foundNodes_perm x.scan hnodup
  simp only [x.scannedOk_events]
  exact hperm

theorem found_keys_nodup : (x.found.map Node.key).Nodup :=
  ((x.found_perm hregions).map Node.key).nodup_iff.mpr
    ((nodes_nodup w).sublist (List.filter_sublist.map _))

end

end SweepRun

end ShardVPN.Watchdog
