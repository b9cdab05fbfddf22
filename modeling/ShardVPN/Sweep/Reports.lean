import ShardVPN.Sweep.Stamps
import ShardVPN.Sweep.Isolation

/-! # Failures that are reported

Every handler of the sweep but one records its failure, and the recorded failures are
published at the end. A pointer that cannot be read is logged only, so a sweep in
which nothing else fails stays silent about it.
-/
namespace ShardVPN.Watchdog
open Effect Ec2ops Settings Time

/-- Every call but a message was answered. -/
def Faultless (es : List Event) : Prop := ∀ e ∈ es, e.call.notifies = true ∨ e.succeeded = true

theorem faultless_append {xs ys : List Event} : Faultless (xs ++ ys) ↔ Faultless xs ∧ Faultless ys :=
  List.forall_mem_append

theorem faultless_nil : Faultless [] := fun _ he => by cases he

theorem faultless_of_notifies {es : List Event} (h : ∀ e ∈ es, e.call.notifies = true) : Faultless es :=
  fun e he => Or.inl (h e he)

theorem faultless_singleton {e : Event} (he : e.call.notifies = false) : Faultless [e] ↔ e.succeeded = true := by
  unfold Faultless
  simp [he]

section
variable {rt : Runtime} {env : Env} {s t : State} {es before : List Event} {w : World} {summary summary' : Summary}

theorem fail_failures (summary : Summary) (failure : Text) : (summary.fail failure).failures ≠ [] :=
  List.append_ne_nil_of_right_ne_nil _ (List.cons_ne_nil _ _)

/-! ## Each step records what fails in it -/

theorem Cull.faultless {reason : Reason} {nodes : List Node} (h : Cull rt reason nodes summary es summary') :
    summary'.failures = [] ↔ summary.failures = [] ∧ Faultless es := by
  induction h with
  | nil => simp [faultless_nil]
  | @done n rest summary summary' ps es hps _ ih =>
    have hrecord : (summary.record n.2.instanceId reason).failures = summary.failures := by cases reason <;> rfl
    rw [ih,hrecord,← List.singleton_append,faultless_append,faultless_append,faultless_singleton rfl]
    simp [Event.succeeded,faultless_of_notifies hps]
  | failed _ ih =>
    rw [ih,← List.singleton_append,faultless_append,faultless_singleton rfl]
    simp [fail_failures,Event.succeeded]

theorem recordScan_faultless {scanned : List Scan} (hall : List.Forall₂ (ScanEvent w) scanned es)
    (regions : List Text) : (recordScan regions scanned summary).failures = [] ↔
      summary.failures = [] ∧ Faultless es := by
  have hscans : scanFailures scanned = [] ↔ Faultless es := by
    unfold scanFailures
    rw [List.filterMap_eq_nil_iff]
    constructor
    · intro h e he
      obtain ⟨x,hx,hxe⟩ := (forall₂_mem hall).2 e he
      rw [hxe.succeeded]
      exact Or.inr (Option.isNone_iff_eq_none.mpr (Option.map_eq_none_iff.mp (h x hx)))
    · intro h x hx
      obtain ⟨e,he,hxe⟩ := (forall₂_mem hall).1 x hx
      have hok := h e he
      rw [hxe.call,hxe.succeeded] at hok
      rw [Option.isNone_iff_eq_none.mp (hok.resolve_left (by simp [scanCall,Call.notifies]))]
      rfl
  unfold recordScan
  rw [List.append_eq_nil_iff,hscans]

theorem Deduplicated.faultless {survivors : List Node} {candidate : Option Node}
    (h : Deduplicated rt survivors summary es candidate summary') :
    summary'.failures = [] ↔ summary.failures = [] ∧ (orderSurvivors survivors).2 = true ∧ Faultless es := by
  cases h with
  | unordered ho _ => simp [ho,fail_failures]
  | ordered ho hcull =>
    rw [hcull.faultless]
    simp [ho]

theorem IdleRun.faultless {now : WallClock} {threshold : Option ℤ} {n : Node}
    (h : IdleRun rt env now threshold n before w summary es summary') :
    summary'.failures = [] ↔ summary.failures = [] ∧ Faultless es := by
  cases h with
  | skipped _ => simp [faultless_nil]
  | unread _ herror =>
    rw [faultless_singleton (by rw [Service.event_call]; rfl),Service.event_succeeded,herror]
    simp [fail_failures,Except.toBool]
  | silent _ _ _ hok _ =>
    rw [faultless_singleton (by rw [Service.event_call]; rfl),Service.event_succeeded,hok]
    simp [Except.toBool]
  | alerted _ _ _ hok _ hsummary =>
    have hpublished : ∀ message, Faultless (publishEvents rt env before w message) := by
      refine fun message => faultless_of_notifies fun e he => ?_
      rw [(mem_publishEvents.mp he).2,Service.event_call]
      rfl
    rw [← List.singleton_append,faultless_append,faultless_append,
      faultless_singleton (by rw [Service.event_call]; rfl),
      faultless_singleton (by rw [Service.event_call]; rfl),Service.event_succeeded,hok]
    rcases hsummary with ⟨hstamped,rfl⟩ | ⟨hrefused,failure,rfl⟩
    · simp [hpublished,hstamped,Except.toBool]
    · simp [hrefused,fail_failures]

theorem Reconciled.faultless {decision : Option (Option Pointer)} (h : Reconciled rt decision summary es summary') :
    summary'.failures = [] ↔ summary.failures = [] ∧ Faultless es := by
  cases h with
  | unchanged _ => simp [faultless_nil]
  | wrote _ =>
    rw [faultless_singleton rfl]
    simp [Event.succeeded]
  | failed _ =>
    rw [faultless_singleton rfl]
    simp [fail_failures,Event.succeeded]

theorem checkCandidate_faultless {now : WallClock} {threshold : Option ℤ} {readable : Bool}
    {pointer : Option Pointer} {candidate : Option Node}
    (h : Steps env.service (checkCandidate rt now.toDateTime threshold readable pointer candidate summary) s
      (.ok summary') es t) : summary'.failures = [] ↔ summary.failures = [] ∧ Faultless es := by
  cases candidate with
  | none =>
    obtain ⟨hv,rfl,-⟩ := Steps.pure_iff.mp h
    cases hv
    simp [faultless_nil]
  | some n =>
    obtain ⟨summary₁,xs,ys,rfl,hxs,-,hfailures,hrun⟩ := checkCandidate_run h
    have hpublished : Faultless xs := faultless_of_notifies fun e he => by rw [hxs e he]; rfl
    rw [hrun.faultless,hfailures,faultless_append]
    simp [hpublished]

/-- The failures after step 4 are those of its calls and of the survivors' order. -/
theorem SweepSteps.faultless {now : WallClock} {threshold : Option ℤ} {pointer : Except Exn (Option Pointer)}
    {regions : List Text}
    (y : SweepSteps rt env now.toDateTime threshold pointer regions s summary summary' es) :
    summary'.failures = [] ↔ summary.failures = [] ∧ (orderSurvivors y.survivors).2 = true ∧ Faultless es := by
  have hreconcile : summary'.failures = [] ↔ y.afterCheck.failures = [] ∧ Faultless y.reconcileEvents := by
    rcases reconcileStep_cases y.reconcile with ⟨-,-,h⟩ | ⟨-,hnil,hsame⟩
    · exact h.faultless
    · rw [hnil,congrArg Summary.failures hsame]
      simp [faultless_nil]
  have hnotify : Faultless y.notifyEvents :=
    faultless_of_notifies fun e he => notifyFailures_only rt summary' y.notify e he
  have hreap : y.afterReap.failures = [] ↔
      (recordScan regions y.scanned summary).failures = [] ∧ Faultless y.reapEvents := (reap_cases y.reap).2.faultless
  have hevents : Faultless es ↔ Faultless (y.scanEvents ++ (y.reapEvents ++ (y.dedupEvents ++
      (y.checkEvents ++ (y.reconcileEvents ++ y.notifyEvents))))) := iff_of_eq (congrArg Faultless y.events)
  rw [hreconcile,checkCandidate_faultless y.check,(deduplicate_cases y.dedup).faultless,hreap,
    recordScan_faultless (scanAll_cases y.scan).2.2 regions,hevents]
  simp only [faultless_append,hnotify,and_true,and_assoc]
  tauto

/-! ## The calls before the report -/

/-- A message that is no report of failures, by its first letter. -/
def TellsOtherwise (message : Text) : Prop := message.take 11 ≠ text "shardvpn: s"

theorem tellsOtherwise_append {head rest : Text} (hlength : 11 ≤ head.length)
    (hne : head.take 11 ≠ text "shardvpn: s") : TellsOtherwise (head ++ rest) := by
  unfold TellsOtherwise
  rwa [List.take_append_of_le_length hlength]

theorem tellsOtherwise_terminated (n : Node) (reason : Reason) : TellsOtherwise (terminatedMessage n reason) := by
  unfold terminatedMessage
  cases reason with
  | expired =>
    simp only [List.append_assoc]
    exact tellsOtherwise_append (by decide) (by decide)
  | duplicate =>
    simp only [List.append_assoc]
    exact tellsOtherwise_append (by decide) (by decide)

theorem tellsOtherwise_unordered (survivors : List Node) : TellsOtherwise (unorderedMessage survivors) := by
  unfold unorderedMessage
  simp only [List.append_assoc]
  exact tellsOtherwise_append (by decide) (by decide)

theorem tellsOtherwise_orphan (readable : Bool) (n : Node) : TellsOtherwise (orphanMessage readable n) := by
  unfold orphanMessage
  cases readable with
  | true =>
    simp only [↓reduceIte,List.append_assoc]
    exact tellsOtherwise_append (by decide) (by decide)
  | false =>
    simp only [Bool.false_eq_true,↓reduceIte,List.append_assoc]
    exact tellsOtherwise_append (by decide) (by decide)

theorem tellsOtherwise_idle (n : Node) (bytes : ℤ) : TellsOtherwise (idleMessage n bytes) := by
  unfold idleMessage
  simp only [List.append_assoc]
  exact tellsOtherwise_append (by decide) (by decide)

theorem not_tellsOtherwise_failure (failures : List Text) : ¬TellsOtherwise (failureMessage failures) := by
  unfold TellsOtherwise failureMessage
  rw [List.take_append_of_le_length (by decide)]
  decide

theorem IdleRun.calls {Q : Call → Prop} {now : WallClock} {threshold : Option ℤ} {n : Node}
    (h : IdleRun rt env now threshold n before w summary es summary')
    (hmeasures : ∀ c, measures c = true → Q c) (hstamp : Q (stampCall now.toDateTime n))
    (htold : ∀ message, TellsOtherwise message → Q (publishCall rt message)) : ∀ e ∈ es, Q e.call := by
  rcases h.alert with ⟨-,hread,-⟩ | ⟨bytes,m,-,hm,rfl,-⟩
  · exact fun e he => hmeasures _ (hread e he)
  · intro e he
    rcases mem_alertEvents he with rfl | ⟨-,rfl⟩ | rfl
    · exact hmeasures _ hm
    · rw [Service.event_call]
      exact htold _ (tellsOtherwise_idle n bytes)
    · rw [Service.event_call]
      exact hstamp

/-- What holds of the calls of every step holds of all calls up to the report. -/
theorem SweepSteps.calls {Q : Call → Prop} {now : WallClock} {threshold : Option ℤ}
    {pointer : Except Exn (Option Pointer)} {regions : List Text}
    (y : SweepSteps rt env now.toDateTime threshold pointer regions s summary summary' es)
    (hscan : ∀ region, Q (scanCall region))
    (hterminate : ∀ region instanceId, Q (.terminateInstances region [instanceId]))
    (hwrite : ∀ value, Q (pointerWrite rt value)) (hmeasures : ∀ c, measures c = true → Q c)
    (hstamp : ∀ n, Q (stampCall now.toDateTime n))
    (htold : ∀ message, TellsOtherwise message → Q (publishCall rt message)) :
    ∃ front, es = front ++ y.notifyEvents ∧ ∀ e ∈ front, Q e.call := by
  have hterminated := fun n reason => htold _ (tellsOtherwise_terminated n reason)
  refine ⟨y.scanEvents ++ (y.reapEvents ++ (y.dedupEvents ++ (y.checkEvents ++ y.reconcileEvents))),?_,?_⟩
  · refine y.events.trans ?_
    simp only [List.append_assoc]
  · intro e he
    simp only [List.mem_append] at he
    rcases he with he | he | he | he | he
    · obtain ⟨x,-,hx⟩ := (forall₂_mem (scanAll_cases y.scan).2.2).2 e he
      rw [hx.call]
      exact hscan _
    · exact reap_only hterminate hterminated _ _ _ y.reap e he
    · exact deduplicate_only hterminate hterminated (fun _ => htold _ (tellsOtherwise_unordered _)) _ _ y.dedup e he
    · have hcheck := y.check
      cases hcandidate : y.candidate with
      | none =>
        rw [hcandidate] at hcheck
        rw [(Steps.pure_iff.mp hcheck).2.1] at he
        cases he
      | some n =>
        rw [hcandidate] at hcheck
        obtain ⟨summary₁,xs,ys,hxy,hxs,-,-,hrun⟩ := checkCandidate_run hcheck
        rw [hxy] at he
        rcases List.mem_append.mp he with he | he
        · rw [hxs e he]
          exact htold _ (tellsOtherwise_orphan _ n)
        · exact hrun.calls hmeasures (hstamp n) htold e he
    · exact reconcileStep_only hwrite _ _ _ _ _ _ y.reconcile e he

/-! ## The whole sweep -/

/-- Whether there are several survivors that cannot be ordered. -/
def unresolved (rt : Runtime) (env : Env) (before : List Event) (w : World) (now : DateTime) : Bool :=
  !(orderSurvivors (remaining now (scansSeen rt env before w))).2

/-- A call other than a message fails; that there is no pointer is an answer. -/
def Failed (rt : Runtime) (e : Event) : Prop :=
  e.call.notifies = false ∧ e.succeeded = false ∧
    ¬(e.call = pointerRead rt ∧ ∃ message, e.error = some (.client parameterNotFound message))

/-- Where the pointer is not read, nothing failed iff every call was answered. -/
theorem faultless_iff (hne : ∀ e ∈ es, e.call ≠ pointerRead rt) :
    Faultless es ↔ ∀ e ∈ es, Failed rt e → e.call = pointerRead rt := by
  constructor
  · rintro h e he ⟨hnotifies,hfailed,-⟩
    rcases h e he with hmessage | hok
    · rw [hmessage] at hnotifies
      cases hnotifies
    · rw [hok] at hfailed
      cases hfailed
  · intro h e he
    by_contra hor
    obtain ⟨hnotifies,hfailed⟩ := not_or.mp hor
    refine hne e he (h e he ⟨Bool.eq_false_iff.mpr hnotifies,Bool.eq_false_iff.mpr hfailed,?_⟩)
    exact fun hread => hne e he hread.1

theorem notify_report {u v : State} (h : Steps env.service (notifyFailures rt summary) u (.ok ()) es v) :
    (∀ e ∈ es, e.call = publishCall rt (failureMessage summary.failures)) ∧
      (es = [] ↔ summary.failures = [] ∨ rt.topicArn = []) := by
  refine ⟨notifyFailures_call rt summary h,?_⟩
  unfold notifyFailures at h
  by_cases hfailures : summary.failures = []
  · rw [if_pos hfailures] at h
    exact iff_of_true (Steps.pure_iff.mp h).2.1 (Or.inl hfailures)
  · rw [if_neg hfailures] at h
    rw [publish_events h]
    unfold publishEvents
    by_cases htopic : rt.topicArn = []
    · simp [htopic]
    · simp [htopic,hfailures]

/-- The calls of a sweep up to its report, and the report. -/
theorem sweep_reported {now : WallClock} (h : Steps env.service (sweep rt now.toDateTime) s (.ok summary) es t) :
    ∃ front back, es = front ++ back ∧
      (∀ e ∈ front, ∀ failures, e.call ≠ publishCall rt (failureMessage failures)) ∧
      (∀ e ∈ back, e.call = publishCall rt (failureMessage summary.failures)) ∧
      (back = [] ↔ summary.failures = [] ∨ rt.topicArn = []) := by
  obtain ⟨start,u,rest,hopened,hcases⟩ := sweep_seen h
  have hopening : ∀ e ∈ openingEvents rt env s.trace s.world, ∀ failures,
      e.call ≠ publishCall rt (failureMessage failures) :=
    openingEvents_calls (fun c => ∀ failures, c ≠ publishCall rt (failureMessage failures))
      (by simp [thresholdRead,publishCall]) (by simp [pointerRead,publishCall]) (by simp [publishCall])
  rcases hcases with ⟨e,-,-,hnotify⟩ | ⟨regions,-,-,y,-⟩
  · obtain ⟨hcalls,hnil⟩ := notify_report hnotify
    exact ⟨_,rest,hopened.events,hopening,hcalls,hnil⟩
  · obtain ⟨front,hrest,hfront⟩ := y.calls (Q := fun c => ∀ failures, c ≠ publishCall rt (failureMessage failures))
      (by simp [scanCall,publishCall]) (by simp [publishCall]) (by simp [pointerWrite,publishCall])
      (fun c hc failures => by rintro rfl; cases hc) (by simp [stampCall,publishCall])
      (fun message hmessage failures hc => by
        obtain ⟨-,-,-,rfl⟩ := Call.publish.inj hc
        exact not_tellsOtherwise_failure failures hmessage)
    obtain ⟨hcalls,hnil⟩ := notify_report y.notify
    refine ⟨openingEvents rt env s.trace s.world ++ front,y.notifyEvents,?_,?_,hcalls,hnil⟩
    · rw [List.append_assoc]
      exact hopened.events.trans (congrArg (openingEvents rt env s.trace s.world ++ ·) hrest)
    · exact List.forall_mem_append.mpr ⟨hopening,hfront⟩

/-- A sweep records no failure iff the threshold is an integer, the survivors can be ordered, and no
call but the read of the pointer failed. -/
theorem sweep_failures {now : WallClock} (h : Steps env.service (sweep rt now.toDateTime) s (.ok summary) es t) :
    summary.failures = [] ↔ (storedThreshold rt s.world).isSome = true ∧
      unresolved rt env s.trace s.world now.toDateTime = false ∧ ∀ e ∈ es, Failed rt e → e.call = pointerRead rt := by
  obtain ⟨start,u,rest,hopened,hcases⟩ := sweep_seen h
  have hopening : (∀ e ∈ openingEvents rt env s.trace s.world, Failed rt e → e.call = pointerRead rt) ↔
      (env.service.event s.trace s.world (thresholdRead rt)).succeeded = true ∧
        (env.service.event s.trace s.world (.describeRegions rt.controlRegion)).succeeded = true := by
    have hthreshold : Faultless [env.service.event s.trace s.world (thresholdRead rt)] ↔
        ∀ e ∈ [env.service.event s.trace s.world (thresholdRead rt)], Failed rt e → e.call = pointerRead rt :=
      faultless_iff (by simp [pointerRead_ne])
    have hregions : Faultless [env.service.event s.trace s.world (.describeRegions rt.controlRegion)] ↔
        ∀ e ∈ [env.service.event s.trace s.world (.describeRegions rt.controlRegion)],
          Failed rt e → e.call = pointerRead rt := faultless_iff (by simp [pointerRead])
    rw [faultless_singleton (by rw [Service.event_call]; rfl)] at hthreshold hregions
    rw [hthreshold,hregions]
    simp [openingEvents]
  have hstart : start.failures = [] ↔ (storedThreshold rt s.world).isSome = true ∧
      (env.service.event s.trace s.world (thresholdRead rt)).succeeded = true := by
    rcases thresholdSeen_cases rt env s.trace s.world with ⟨hok,hstored⟩ | ⟨hfailed,hnone⟩
    · rcases hopened.threshold with ⟨hsome,rfl⟩ | ⟨hnone,f,rfl⟩
      · rw [hstored] at hsome
        simp [Summary.initial,hsome,hok]
      · rw [hstored] at hnone
        simp [fail_failures,hnone]
    · rcases hopened.threshold with ⟨hsome,-⟩ | ⟨-,f,rfl⟩
      · rw [hnone] at hsome
        cases hsome
      · simp [fail_failures,hfailed]
  rw [hopened.events]
  simp only [List.forall_mem_append,hopening]
  rcases hcases with ⟨e,hregions,rfl,-⟩ | ⟨regions,hregions,-,y,hscanned⟩
  · have hfailed : (env.service.event s.trace s.world (.describeRegions rt.controlRegion)).succeeded = false := by
      rw [Service.event_succeeded]
      exact congrArg Except.toBool hregions
    simp [fail_failures,hfailed]
  · have hok : (env.service.event s.trace s.world (.describeRegions rt.controlRegion)).succeeded = true := by
      rw [Service.event_succeeded]
      exact congrArg Except.toBool hregions
    have hsurvivors : (orderSurvivors y.survivors).2 = true ↔
        unresolved rt env s.trace s.world now.toDateTime = false := by
      unfold unresolved
      rw [y.survivors_eq,hscanned]
      exact (Bool.not_eq_eq_eq_not (b := false)).symm
    have hrest : ∀ e ∈ rest, e.call ≠ pointerRead rt := by
      obtain ⟨front,hfront,hne⟩ := y.calls (Q := fun c => c ≠ pointerRead rt) (by simp [scanCall,pointerRead])
        (by simp [pointerRead]) (by simp [pointerWrite,pointerRead]) (fun c hc => by rintro rfl; cases hc)
        (by simp [stampCall,pointerRead]) (by simp [publishCall,pointerRead])
      rw [hfront]
      refine List.forall_mem_append.mpr ⟨hne,fun e he => ?_⟩
      rw [notifyFailures_call rt summary y.notify e he]
      simp [publishCall,pointerRead]
    rw [y.faultless,hstart,hsurvivors,faultless_iff hrest,hok]
    tauto

/-! ## Silence -/

/-- A failed call is recorded and reported, and a faultless sweep reports nothing. -/
structure Reports (rt : Runtime) (env : Env) (before : List Event) (w : World) (now : DateTime)
    (summary : Summary) (es : List Event) : Prop where
  failed : (∃ e ∈ es, Failed rt e) → summary.failures ≠ [] ∧
    ∃ e ∈ es, e.call = publishCall rt (failureMessage summary.failures)
  faultless : (∀ e ∈ es, ¬Failed rt e) → (storedThreshold rt w).isSome = true →
    unresolved rt env before w now = false → ∀ e ∈ es, ∀ failures, e.call ≠ publishCall rt (failureMessage failures)

/-- If a call fails, there is a topic, and the read of the pointer is not all that is wrong. -/
def Alarming (rt : Runtime) (env : Env) (before : List Event) (w : World) (now : DateTime) (es : List Event) : Prop :=
  (∃ e ∈ es, Failed rt e) → rt.topicArn ≠ [] ∧ ((∃ e ∈ es, Failed rt e ∧ e.call ≠ pointerRead rt) ∨
    storedThreshold rt w = none ∨ unresolved rt env before w now = true)

end

/-- No failure is silent exactly when the pointer's read is not the only thing that is wrong. -/
theorem sweep_reports_iff (rt : Runtime) (env : Env) (now : WallClock) (s : State) :
    Reports rt env s.trace s.world now.toDateTime (sweepSummary rt now.toDateTime env s)
        (sweepEvents rt now.toDateTime env s) ↔
      Alarming rt env s.trace s.world now.toDateTime (sweepEvents rt now.toDateTime env s) := by
  have h := sweepEvents_steps rt now.toDateTime env s
  have hfailures := sweep_failures h
  obtain ⟨front,back,hes,hfront,hback,hnil⟩ := sweep_reported h
  have hsilent : (∃ e ∈ sweepEvents rt now.toDateTime env s, Failed rt e ∧ e.call ≠ pointerRead rt) ∨
      storedThreshold rt s.world = none ∨ unresolved rt env s.trace s.world now.toDateTime = true ↔
        (sweepSummary rt now.toDateTime env s).failures ≠ [] := by
    rw [ne_eq,hfailures,not_and_or,not_and_or,Option.not_isSome_iff_eq_none,Bool.not_eq_false]
    push Not
    rw [or_comm,or_assoc]
  constructor
  · intro hreports hfailed
    obtain ⟨hrecorded,e,he,hc⟩ := hreports.failed hfailed
    refine ⟨?_,hsilent.mpr hrecorded⟩
    rw [hes] at he
    rcases List.mem_append.mp he with he | he
    · exact absurd hc (hfront e he _)
    · intro htopic
      rw [hnil.mpr (Or.inr htopic)] at he
      cases he
  · intro halarming
    refine ⟨fun hfailed => ?_,fun hfaultless hthreshold hresolved => ?_⟩
    · obtain ⟨htopic,hwrong⟩ := halarming hfailed
      have hrecorded := hsilent.mp hwrong
      refine ⟨hrecorded,?_⟩
      have hne : back ≠ [] := fun hempty => (hnil.mp hempty).elim hrecorded htopic
      obtain ⟨e,he⟩ := List.exists_mem_of_ne_nil back hne
      exact ⟨e,hes ▸ List.mem_append_right _ he,hback e he⟩
    · have hclean := hfailures.mpr ⟨hthreshold,hresolved,fun e he hf => absurd hf (hfaultless e he)⟩
      rw [hes,hnil.mpr (Or.inl hclean),List.append_nil]
      exact hfront

/-- The read of the pointer is refused, and the sweep says nothing. -/
theorem sweep_unreported : ¬Reports Plain.runtime (Plain.refuse (fun c => decide (c = pointerRead Plain.runtime)))
    [] Plain.empty Plain.midnight.toDateTime
    (sweepSummary Plain.runtime Plain.midnight.toDateTime
      (Plain.refuse (fun c => decide (c = pointerRead Plain.runtime))) (Plain.state Plain.empty))
    (sweepEvents Plain.runtime Plain.midnight.toDateTime
      (Plain.refuse (fun c => decide (c = pointerRead Plain.runtime))) (Plain.state Plain.empty)) := by
  have hfacts : (∃ e ∈ sweepEvents Plain.runtime Plain.midnight.toDateTime
        (Plain.refuse (fun c => decide (c = pointerRead Plain.runtime))) (Plain.state Plain.empty),
        e.call.notifies = false ∧ e.error = some Plain.throttled) ∧
      (sweepSummary Plain.runtime Plain.midnight.toDateTime
        (Plain.refuse (fun c => decide (c = pointerRead Plain.runtime))) (Plain.state Plain.empty)).failures = [] := by
    decide +kernel
  obtain ⟨⟨e,he,hnotifies,herror⟩,hsilent⟩ := hfacts
  intro hreports
  refine (hreports.failed ⟨e,he,hnotifies,?_,?_⟩).1 hsilent
  · unfold Event.succeeded
    rw [herror]
    rfl
  · rintro ⟨-,message,hmissing⟩
    rw [herror] at hmissing
    exact absurd (ServiceError.client.inj (Option.some.inj hmissing)).1 (by decide)

end ShardVPN.Watchdog
