import ShardVPN.Sweep.Terminations

/-! # What a sweep sees

A sweep first reads: the threshold, the pointer, the regions and the nodes of each
region. What it sees are the replies to these reads, and what it terminates and what
it writes depends on nothing else.
-/
namespace ShardVPN.Watchdog
open Effect Ec2ops Settings Time

section
variable (rt : Runtime) (env : Env) (before : List Event) (w : World)

def thresholdSeen : Option ℤ :=
  match env.service.reply before w (thresholdRead rt) with
  | .ok raw => int raw
  | .error _ => none

/-- The threshold as it is stored, if its text is an integer. -/
def storedThreshold : Option ℤ := (w.parameters rt.controlRegion ParamName.idleThresholdBytes.path).bind int

/-- A missing parameter is no pointer. -/
def pointerSeen : Except Exn (Option Pointer) :=
  match env.service.reply before w (pointerRead rt) with
  | .ok raw => decodePointer raw
  | .error (.client code _) =>
    if code = parameterNotFound then .ok none else .error (.pointerUnavailable code)
  | .error e => .error (.service e)

def regionsSeen : Except ServiceError (List Text) :=
  env.service.reply before w (.describeRegions rt.controlRegion)

def scanSeen (region : Text) : Scan :=
  match env.service.reply before w (scanCall region) with
  | .ok reservations => ⟨region,reservations.flatten,none⟩
  | .error e => ⟨region,[],some (.service e)⟩

/-- The three reads a sweep begins with. -/
def openingEvents : List Event :=
  [env.service.event before w (thresholdRead rt),env.service.event before w (pointerRead rt),
    env.service.event before w (.describeRegions rt.controlRegion)]

/-- Without the regions nothing is scanned. -/
def scansSeen : List Scan :=
  match regionsSeen rt env before w with
  | .ok regions => regions.map (scanSeen env before w)
  | .error _ => []

end

theorem openingEvents_calls {rt : Runtime} {env : Env} {before : List Event} {w : World} (P : Call → Prop)
    (hthreshold : P (thresholdRead rt)) (hpointer : P (pointerRead rt))
    (hregions : P (.describeRegions rt.controlRegion)) : ∀ e ∈ openingEvents rt env before w, P e.call := by
  simp [openingEvents,hthreshold,hpointer,hregions]

theorem openingEvents_attempted (rt : Runtime) (env : Env) (before : List Event) (w : World) :
    attempted (openingEvents rt env before w) = [] :=
  attempted_eq_nil (openingEvents_calls (fun c => c.terminates = false) rfl rfl rfl)

/-! ## What follows from it -/

def remaining (now : DateTime) (scanned : List Scan) : List Node :=
  (foundNodes scanned).filter (fun n => !expired now n)

/-- The nodes steps 1 and 2 terminate, in order. -/
def doomed (now : DateTime) (scanned : List Scan) : List Node :=
  (foundNodes scanned).filter (expired now) ++ surplus (remaining now scanned)

/-- The node steps 3 and 4 are about. -/
def keptNode (survivors : List Node) : Option Node :=
  if (orderSurvivors survivors).2 then (orderSurvivors survivors).1.head? else none

/-- What step 4 writes once the regions are known. -/
def decision (now : DateTime) (pointer : Except Exn (Option Pointer)) (scanned : List Scan) :
    Option (Option Pointer) :=
  match pointer with
  | .ok pointer =>
    if (orderSurvivors (remaining now scanned)).2 then
      reconciled pointer (keptNode (remaining now scanned)) (scanFailedRegions scanned)
    else none
  | .error _ => none

def decisionSeen (rt : Runtime) (env : Env) (before : List Event) (w : World) (now : DateTime) :
    Option (Option Pointer) :=
  match regionsSeen rt env before w with
  | .ok _ => decision now (pointerSeen rt env before w) (scansSeen rt env before w)
  | .error _ => none

/-- The writes of parameters. -/
def puts (es : List Event) : List Event := es.filter (fun e => !e.call.keepsParameters)

@[simp] theorem puts_append (xs ys : List Event) : puts (xs ++ ys) = puts xs ++ puts ys := List.filter_append xs ys

theorem puts_eq_nil {es : List Event} (h : ∀ e ∈ es, e.call.keepsParameters = true) : puts es = [] := by
  unfold puts
  rw [List.filter_eq_nil_iff]
  intro e he
  simp [h e he]

/-! ## The reads -/

section
variable {rt : Runtime} {env : Env} {s t : State} {es : List Event}

theorem thresholdSeen_eq (rt : Runtime) (env : Env) (before : List Event) (w : World) :
    thresholdSeen rt env before w = (env.service.reply before w (thresholdRead rt)).toOption.bind int := by
  unfold thresholdSeen
  cases env.service.reply before w (thresholdRead rt) <;> rfl

/-- A threshold that was read is the stored one. -/
theorem thresholdSeen_cases (rt : Runtime) (env : Env) (before : List Event) (w : World) :
    ((env.service.event before w (thresholdRead rt)).succeeded = true ∧
        thresholdSeen rt env before w = storedThreshold rt w) ∨
      (env.service.event before w (thresholdRead rt)).succeeded = false ∧ thresholdSeen rt env before w = none := by
  rw [Service.event_succeeded,thresholdSeen_eq]
  cases hreply : env.service.reply before w (thresholdRead rt) with
  | ok raw =>
    left
    unfold storedThreshold
    rw [parameter_of_reply hreply]
    exact ⟨rfl,rfl⟩
  | error e => exact Or.inr ⟨rfl,rfl⟩

theorem pointerSeen_eq (rt : Runtime) (env : Env) (before : List Event) (w : World) :
    pointerSeen rt env before w = pointerOutcome (env.service.reply before w (pointerRead rt)) := by
  unfold pointerSeen
  cases env.service.reply before w (pointerRead rt) with
  | ok raw => rfl
  | error e => cases e <;> rfl

theorem readPointer_seen {r : Except Exn (Option Pointer)}
    (h : Steps env.service (readPointer rt.controlRegion .currentNode) s r es t) :
    r = pointerSeen rt env s.trace s.world ∧ t.world = s.world ∧
      es = [env.service.event s.trace s.world (pointerRead rt)] := by
  obtain ⟨hr,hes,hworld,-⟩ := readPointer_outcome h
  exact ⟨hr.trans (pointerSeen_eq ..).symm,hworld,hes⟩

theorem validRegions_seen {r : Except Exn (List Text)}
    (h : Steps env.service (validRegions rt.controlRegion) s r es t) :
    r = (regionsSeen rt env s.trace s.world).mapError Exn.service ∧ t.world = s.world ∧
      es = [env.service.event s.trace s.world (.describeRegions rt.controlRegion)] :=
  ⟨h.call_reply.2.1,(validRegions_cases h).1,h.call_event⟩

theorem scan_seen {region : Text} {x : Scan} (h : Steps env.service (scan region) s (.ok x) es t) :
    x = scanSeen env s.trace s.world region ∧ es = [env.service.event s.trace s.world (scanCall region)] := by
  obtain ⟨v,u,xs,ys,h1,h2,rfl⟩ := h.bind_attempt
  obtain ⟨hv,rfl,-⟩ := findNodes_outcome h1
  unfold scanSeen scanCall
  cases hreply : env.service.reply s.trace s.world (.describeInstances region nodeFilters) with
  | ok reservations =>
    rw [hreply] at hv
    subst hv
    obtain ⟨hx,rfl,-⟩ := Steps.pure_iff.mp h2
    exact ⟨Except.ok.inj hx,List.append_nil _⟩
  | error e =>
    rw [hreply] at hv
    subst hv
    obtain ⟨hx,rfl,-⟩ := Steps.pure_iff.mp h2
    exact ⟨Except.ok.inj hx,List.append_nil _⟩

theorem scanSeen_append {before xs : List Event} {w : World} {region : Text}
    (h : ∀ e ∈ xs, e.call ≠ scanCall region) :
    scanSeen env (before ++ xs) w region = scanSeen env before w region := by
  unfold scanSeen
  rw [Service.reply_append _ _ h]

/-- Each region is scanned once, so no scan sees the others. -/
theorem scanAll_seen {before xs : List Event} {regions : List Text} {scanned : List Scan}
    (h : Steps env.service (scanAll regions) s (.ok scanned) es t) (ht : s.trace = before ++ xs)
    (hxs : ∀ region ∈ regions, ∀ e ∈ xs, e.call ≠ scanCall region) (hregions : regions.Nodup) :
    scanned = regions.map (scanSeen env before s.world) := by
  induction regions generalizing s t es scanned xs with
  | nil => exact Except.ok.inj (Steps.pure_iff.mp h).1
  | cons region rest ih =>
    obtain ⟨hregion,hrest⟩ := List.nodup_cons.mp hregions
    obtain ⟨x,u,ys,zs,h1,h2,rfl⟩ := h.bind_total
    obtain ⟨others,v,zs,vs,h3,h4,rfl⟩ := h2.bind_total
    obtain ⟨hx,rfl⟩ := scan_seen h1
    have hothers := ih h3 (by rw [h1.2,ht,List.append_assoc]) ?_ hrest
    · rw [Except.ok.inj (Steps.pure_iff.mp h4).1,hx,hothers,(scan_cases h1).1,ht,
        scanSeen_append (hxs region List.mem_cons_self)]
      rfl
    · intro r hr e he
      rcases List.mem_append.mp he with he | he
      · exact hxs r (List.mem_cons_of_mem _ hr) e he
      · rw [List.mem_singleton.mp he,Service.event_call]
        intro hc
        exact hregion (scanCall_injective hc ▸ hr)

/-- A sweep after its reads of the threshold, the pointer and the regions. -/
structure Opened (rt : Runtime) (env : Env) (s : State) (start : Summary) (u : State) (es rest : List Event) :
    Prop where
  events : es = openingEvents rt env s.trace s.world ++ rest
  world : u.world = s.world
  trace : u.trace = s.trace ++ openingEvents rt env s.trace s.world
  threshold : ((thresholdSeen rt env s.trace s.world).isSome = true ∧ start = Summary.initial) ∨
    thresholdSeen rt env s.trace s.world = none ∧ ∃ f, start = Summary.initial.fail f

theorem pointerSeen_append {before xs : List Event} {w : World} (h : ∀ e ∈ xs, e.call ≠ pointerRead rt) :
    pointerSeen rt env (before ++ xs) w = pointerSeen rt env before w := by
  unfold pointerSeen
  rw [Service.reply_append _ _ h]

theorem regionsSeen_append {before xs : List Event} {w : World}
    (h : ∀ e ∈ xs, e.call ≠ .describeRegions rt.controlRegion) :
    regionsSeen rt env (before ++ xs) w = regionsSeen rt env before w := Service.reply_append _ _ h

theorem pointerRead_ne : thresholdRead rt ≠ pointerRead rt := by
  unfold thresholdRead pointerRead
  intro h
  exact absurd (Call.getParameter.inj h).2.1 (by decide)

theorem regionsSeen_perm {before : List Event} {w : World} {regions : List Text}
    (h : regionsSeen rt env before w = .ok regions) : regions.Perm w.regions := by
  obtain rfl := Except.ok.inj (Service.reply_ok h).1
  exact env.regionOrder_perm _ _

/-- A sweep goes on from what it has read. -/
theorem sweep_seen {now : DateTime} {summary : Summary} (h : Steps env.service (sweep rt now) s (.ok summary) es t) :
    ∃ start u rest, Opened rt env s start u es rest ∧
      ((∃ e, regionsSeen rt env s.trace s.world = .error e ∧
          summary = start.fail (text "valid_regions: " ++ rt.str (.service e)) ∧
          Steps env.service (notifyFailures rt summary) u (.ok ()) rest t) ∨
        ∃ regions, regionsSeen rt env s.trace s.world = .ok regions ∧ regions.Nodup ∧
          ∃ y : SweepSteps rt env now (thresholdSeen rt env s.trace s.world) (pointerSeen rt env s.trace s.world)
            regions u start summary rest, y.scanned = scansSeen rt env s.trace s.world) := by
  obtain ⟨⟨threshold,start⟩,s₁,xs₁,ys,k₁,h₁,rfl⟩ := h.bind_total
  obtain ⟨pointer,s₂,xs₂,zs,k₂,h₂,rfl⟩ := h₁.bind_attempt
  obtain ⟨r,s₃,xs₃,rest,k₃,h₃,rfl⟩ := h₂.bind_attempt
  obtain ⟨hw₁,rfl,hseen,hthreshold⟩ := readThreshold_reply k₁
  obtain rfl := hseen.trans (thresholdSeen_eq ..).symm
  obtain ⟨rfl,hw₂,rfl⟩ := readPointer_seen k₂
  obtain ⟨hr,hw₃,rfl⟩ := validRegions_seen k₃
  have ht₁ := k₁.2
  have ht₂ := k₂.2
  have ht₃ := k₃.2
  have hpointer : ∀ e ∈ [env.service.event s.trace s.world (thresholdRead rt)], e.call ≠ pointerRead rt := by
    simp [pointerRead_ne]
  have hregions : ∀ e ∈ [env.service.event s.trace s.world (thresholdRead rt),
      env.service.event s.trace s.world (pointerRead rt)], e.call ≠ .describeRegions rt.controlRegion := by
    simp [thresholdRead,pointerRead]
  rw [hw₁,ht₁,pointerSeen_append hpointer] at h₂ h₃
  rw [hw₁,ht₁,Service.event_append _ _ hpointer] at ht₂
  rw [List.append_assoc,List.singleton_append] at ht₂
  rw [hw₂,hw₁,ht₂,Service.event_append _ _ hregions,List.append_assoc] at ht₃
  rw [hw₂,hw₁,ht₂,regionsSeen_append hregions] at hr
  have hopened : Opened rt env s start s₃ ([env.service.event s.trace s.world (thresholdRead rt)] ++
      ([env.service.event s₁.trace s₁.world (pointerRead rt)] ++
        ([env.service.event s₂.trace s₂.world (.describeRegions rt.controlRegion)] ++ rest))) rest := by
    refine ⟨?_,hw₃.trans (hw₂.trans hw₁),ht₃,hthreshold⟩
    rw [hw₂,hw₁,ht₂,Service.event_append _ _ hregions,ht₁,Service.event_append _ _ hpointer]
    rfl
  cases hseen : regionsSeen rt env s.trace s.world with
  | error e =>
    rw [hseen] at hr
    subst hr
    obtain ⟨_,u,ws,vs,k₄,h₄,rfl⟩ := h₃.bind_total
    obtain ⟨hv,rfl,rfl⟩ := Steps.pure_iff.mp h₄
    cases hv
    rw [List.append_nil] at hopened
    exact ⟨start,s₃,ws,by rwa [List.append_nil],Or.inl ⟨e,rfl,rfl,k₄⟩⟩
  | ok regions =>
    rw [hseen] at hr
    subst hr
    obtain ⟨y⟩ := sweepRegions_steps h₃
    have hnodup : regions.Nodup := (regionsSeen_perm hseen).nodup_iff.mpr s.world.regions_nodup
    refine ⟨start,s₃,rest,hopened,Or.inr ⟨regions,rfl,hnodup,y,?_⟩⟩
    unfold scansSeen
    rw [hseen,scanAll_seen y.scan hopened.trace ?_ hnodup,hopened.world]
    exact fun region _ => openingEvents_calls (fun c => c ≠ scanCall region) (by simp [scanCall,thresholdRead])
      (by simp [scanCall,pointerRead]) (by simp [scanCall])

/-! ## What it does -/

/-- The terminates a sweep attempts depend on its scans only. -/
theorem sweep_attempts {now : DateTime} {summary : Summary}
    (h : Steps env.service (sweep rt now) s (.ok summary) es t) :
    attempted es = (doomed now (scansSeen rt env s.trace s.world)).map Node.key := by
  obtain ⟨start,u,rest,hopened,hcases⟩ := sweep_seen h
  rcases hcases with ⟨e,hregions,-,hnotify⟩ | ⟨regions,hregions,hnodup,y,hscanned⟩
  · have hrest := attempted_eq_nil fun e he =>
      Call.quiet_terminates (Call.notifies_quiet (notifyFailures_only rt _ hnotify e he))
    rw [hopened.events,attempted_append,hrest,openingEvents_attempted]
    unfold scansSeen
    rw [hregions]
    rfl
  · rw [hopened.events,attempted_append,openingEvents_attempted,
      List.nil_append,y.run.attempted_eq,← hscanned]
    rfl

/-- The candidate is the kept node of the survivors. -/
theorem deduplicate_kept {survivors : List Node} {summary summary' : Summary} {candidate : Option Node}
    (h : Deduplicated rt survivors summary es candidate summary') : candidate = keptNode survivors := by
  unfold keptNode
  cases h with
  | unordered ho _ => rw [ho]; rfl
  | ordered ho _ => rw [ho]; rfl

theorem SweepSteps.candidate_eq {now : DateTime} {threshold : Option ℤ} {pointer : Except Exn (Option Pointer)}
    {regions : List Text} {summary summary' : Summary}
    (y : SweepSteps rt env now threshold pointer regions s summary summary' es) :
    y.candidate = keptNode y.survivors := deduplicate_kept (deduplicate_cases y.dedup)

/-- The calls between the reads and step 4 write no parameter. -/
theorem SweepSteps.before_reconcile {now : DateTime} {threshold : Option ℤ}
    {pointer : Except Exn (Option Pointer)} {regions : List Text} {summary summary' : Summary}
    (y : SweepSteps rt env now threshold pointer regions s summary summary' es) :
    ∃ xs, y.s₄.trace = s.trace ++ xs ∧ ∀ e ∈ xs, e.call.keepsParameters = true := by
  refine ⟨y.scanEvents ++ (y.reapEvents ++ (y.dedupEvents ++ y.checkEvents)),?_,?_⟩
  · rw [y.check.2,y.dedup.2,y.reap.2,y.scan.2]
    simp only [List.append_assoc]
  · intro e he
    simp only [List.mem_append] at he
    rcases he with he | he | he | he
    · exact y.run.scan_keepsParameters e he
    · exact (y.run.reap.calls e he).2.1
    · exact (y.run.dedup.calls e he).2.1
    · exact keepsParameters_of_inspects (y.run.check_inspects e he)

theorem pointerWrite_event (before : List Event) (w w' : World) (value : Option Pointer) :
    env.service.event before w (pointerWrite rt value) = env.service.event before w' (pointerWrite rt value) := rfl

theorem reconcile_seen {pointer : Option Pointer} {candidate : Option Node} {failedRegions : List Text}
    {summary summary' : Summary}
    (h : Steps env.service (reconcile rt pointer candidate failedRegions summary) s (.ok summary') es t) :
    es = (reconciled pointer candidate failedRegions).toList.map
      (fun value => env.service.event s.trace s.world (pointerWrite rt value)) := by
  rw [reconcile] at h
  cases hd : reconciled pointer candidate failedRegions with
  | none =>
    rw [hd] at h
    exact (Steps.pure_iff.mp h).2.1
  | some value =>
    rw [hd] at h
    obtain ⟨v,u,xs,ys,h1,h2,rfl⟩ := h.bind_attempt
    have hys : ys = [] := by
      cases v with
      | ok _ => exact (Steps.pure_iff.mp h2).2.1
      | error _ => exact (Steps.pure_iff.mp h2).2.1
    rw [hys,List.append_nil]
    exact h1.call_event

/-- Parameters are written in step 4 only. -/
theorem SweepSteps.puts_eq {now : DateTime} {threshold : Option ℤ} {pointer : Except Exn (Option Pointer)}
    {regions : List Text} {summary summary' : Summary}
    (y : SweepSteps rt env now threshold pointer regions s summary summary' es) :
    puts es = y.reconcileEvents := by
  have hreconcile : ∀ e ∈ y.reconcileEvents, e.call.keepsParameters = false := by
    rcases y.run.reconcile with ⟨-,-,h⟩ | ⟨-,h,-⟩
    · intro e he
      obtain ⟨value,hc⟩ := h.calls e he
      rw [hc]
      rfl
    · intro e he
      have hnil : y.reconcileEvents = [] := h
      rw [hnil] at he
      cases he
  have hscan : puts y.scanEvents = [] := puts_eq_nil y.run.scan_keepsParameters
  have hreap : puts y.reapEvents = [] := puts_eq_nil fun e he => (y.run.reap.calls e he).2.1
  have hdedup : puts y.dedupEvents = [] := puts_eq_nil fun e he => (y.run.dedup.calls e he).2.1
  have hcheck : puts y.checkEvents = [] :=
    puts_eq_nil fun e he => keepsParameters_of_inspects (y.run.check_inspects e he)
  have hnotify : puts y.notifyEvents = [] :=
    puts_eq_nil fun e he => Call.quiet_keepsParameters (Call.notifies_quiet (y.run.notify_notifies e he))
  refine (congrArg puts y.events).trans ?_
  simp only [puts_append,hscan,hreap,hdedup,hcheck,hnotify,List.nil_append,List.append_nil]
  exact List.filter_eq_self.mpr fun e he => by simp [hreconcile e he]

theorem SweepSteps.reconcile_eq {now : DateTime} {threshold : Option ℤ} {pointer : Except Exn (Option Pointer)}
    {regions : List Text} {summary summary' : Summary}
    (y : SweepSteps rt env now threshold pointer regions s summary summary' es) :
    y.reconcileEvents = (decision now pointer y.scanned).toList.map
      (fun value => env.service.event s.trace s.world (pointerWrite rt value)) := by
  have hsurvivors : y.survivors = remaining now y.scanned := y.survivors_eq
  have hreconcile := y.reconcile
  rw [reconcileStep,y.candidate_eq,hsurvivors] at hreconcile
  unfold decision
  cases pointer with
  | error x => exact (Steps.pure_iff.mp hreconcile).2.1
  | ok p =>
    change Steps _ (if (true && (orderSurvivors (remaining now y.scanned)).2) = true then _ else _) _ _ _ _
      at hreconcile
    rw [Bool.true_and] at hreconcile
    dsimp only
    by_cases ho : (orderSurvivors (remaining now y.scanned)).2 = true
    · rw [if_pos ho] at hreconcile ⊢
      obtain ⟨xs,htrace,hxs⟩ := y.before_reconcile
      refine (reconcile_seen hreconcile).trans (List.map_congr_left fun value _ => ?_)
      rw [htrace,Service.event_append _ _ ?_]
      · exact pointerWrite_event _ _ _ _
      · intro e he hc
        have hkeeps := hxs e he
        rw [hc] at hkeeps
        cases hkeeps
    · rw [if_neg ho] at hreconcile ⊢
      exact (Steps.pure_iff.mp hreconcile).2.1

/-- Step 4 writes what was decided, once, and nothing else is written. -/
theorem sweep_puts {now : DateTime} {summary : Summary}
    (h : Steps env.service (sweep rt now) s (.ok summary) es t) :
    puts es = (decisionSeen rt env s.trace s.world now).toList.map
      (fun value => env.service.event s.trace s.world (pointerWrite rt value)) := by
  have hopening : puts (openingEvents rt env s.trace s.world) = [] :=
    puts_eq_nil (openingEvents_calls (fun c => c.keepsParameters = true) rfl rfl rfl)
  obtain ⟨start,u,rest,hopened,hcases⟩ := sweep_seen h
  rcases hcases with ⟨e,hregions,-,hnotify⟩ | ⟨regions,hregions,hnodup,y,hscanned⟩
  · have hrest := puts_eq_nil fun e he =>
      Call.quiet_keepsParameters (Call.notifies_quiet (notifyFailures_only rt _ hnotify e he))
    rw [hopened.events,puts_append,hopening,hrest]
    unfold decisionSeen
    rw [hregions]
    rfl
  · rw [hopened.events,puts_append,hopening,List.nil_append,y.puts_eq,y.reconcile_eq,hscanned,hopened.trace]
    unfold decisionSeen
    rw [hregions]
    refine List.map_congr_left fun value _ => ?_
    rw [Service.event_append _ _ (openingEvents_calls (fun c => c ≠ pointerWrite rt value)
      (by simp [thresholdRead,pointerWrite]) (by simp [pointerRead,pointerWrite]) (by simp [pointerWrite]))]
    exact pointerWrite_event _ _ _ _

end

end ShardVPN.Watchdog
