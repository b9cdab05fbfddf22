import ShardVPN.Request.Warrants
import ShardVPN.Sweep.Reconciliation
import ShardVPN.System.Calls

/-! # What warrants a call of a sweep, and of an invocation

A sweep terminates, stamps and points to nodes that it found, and a request to go down
terminates what it found. A node that was found stays on record with its role, alive or
not, whatever call the program makes, so each of these calls is warranted where it is
made.
-/
namespace ShardVPN.Watchdog
open Effect Time Ec2ops Settings Handler

/-- The instance is on record with the role of a node, in any state. -/
def Registered (w : World) (key : Text × Text) : Prop := ∃ n ∈ w.instances, n.key = key ∧ hasRole n.2 = true

/-- The calls that the nodes found give rise to. -/
inductive Prompted (rt : Runtime) (found : List Node) : Call → Prop
  | tell (message : Text) : Prompted rt found (publishCall rt message)
  | measure (region : Text) (query : MetricQuery) : Prompted rt found (.getMetricStatistics region query)
  | terminate {n : Node} : n ∈ found → Prompted rt found (terminateCall n)
  | stamp {n : Node} (value : Text) : n ∈ found →
      Prompted rt found (.createTags n.1 [n.2.instanceId] [⟨tagAlerted,value⟩])
  | point {n : Node} : n ∈ found → Prompted rt found (pointerWrite rt (some (pointerTo n)))
  | clear : Prompted rt found (pointerWrite rt none)

section
variable {rt : Runtime} {found : List Node}

theorem Prompted.program {c : Call} (h : Prompted rt found c) : System.ProgramCall rt c := by
  cases h with
  | tell message => exact .quiet rfl
  | measure region query => exact .quiet rfl
  | terminate hn => exact .terminate _ _
  | stamp value hn => exact .stamp rfl
  | point hn => exact .writePointer _
  | clear => exact .writePointer _

/-- What every call of the program preserves of the instances. -/
theorem registered_effect (env : Env) {c : Call} (hc : System.ProgramCall rt c) {w : World} {key : Text × Text}
    (h : Registered w key) : Registered (env.effect c w) key := by
  obtain ⟨n,hn,hkey,hrole⟩ := h
  cases hc with
  | quiet hquiet => exact ⟨n,by rwa [(env.effect_quiet hquiet w).instances],hkey,hrole⟩
  | writePointer value => exact ⟨n,hn,hkey,hrole⟩
  | launch => exact ⟨n,List.mem_append_left _ hn,hkey,hrole⟩
  | terminate region instanceId =>
    refine ⟨_,List.mem_map_of_mem hn,?_,?_⟩
    · rw [← hkey]
      dsimp only [Node.key]
      split <;> rfl
    · dsimp only
      split
      · exact hrole
      · exact hrole
  | @stamp region ids t ht =>
    refine ⟨_,List.mem_map_of_mem hn,?_,?_⟩
    · rw [← hkey]
      dsimp only [Node.key]
      split <;> rfl
    · dsimp only
      split
      · rw [List.foldl_cons,List.foldl_nil,hasRole_setTag (by rw [ht]; decide)]
        exact hrole
      · exact hrole

theorem Registered.of_node {w : World} {n : Node} (hn : n ∈ w.nodes) : Registered w n.key := by
  obtain ⟨hmem,hnode⟩ := List.mem_filter.mp hn
  exact ⟨n,hmem,rfl,(Bool.and_eq_true_iff.mp hnode).1⟩

theorem Prompted.warranted {w : World} (hw : ∀ n ∈ found, Registered w n.key) {c : Call} (h : Prompted rt found c) :
    Warranted rt w c := by
  have hnode : ∀ {n}, n ∈ found → ∃ m ∈ w.instances, m.key = n.key ∧ hasRole m.2 = true := fun hn => hw _ hn
  cases h with
  | tell message => exact .tell message
  | measure region query => exact .measure region query
  | @terminate n hn =>
    obtain ⟨⟨region,i⟩,hm,hkey,hrole⟩ := hnode hn
    obtain ⟨rfl,hid⟩ := Prod.mk.inj hkey
    rw [terminateCall,← hid]
    exact .terminate hm hrole
  | @stamp n value hn =>
    obtain ⟨⟨region,i⟩,hm,hkey,hrole⟩ := hnode hn
    obtain ⟨rfl,hid⟩ := Prod.mk.inj hkey
    rw [← hid]
    exact .stamp value hm hrole
  | point hn =>
    obtain ⟨m,hm,hkey,hrole⟩ := hnode hn
    rw [← pointerTo_of_key hkey]
    exact .point hm hrole
  | clear => exact .clear

/-- Calls that the nodes found give rise to, made while these are on record. -/
theorem warrants_of_prompted {env : Env} {w : World} (hw : ∀ n ∈ found, Registered w n.key) {es : List Event}
    (hes : ∀ e ∈ es, Prompted rt found e.call) : Warrants rt env w es := by
  refine Service.permits_of_stable (I := fun v => ∀ n ∈ found, Registered v n.key) ?_ ?_ hw hes
  · intro v c hv hc n hn
    exact registered_effect env hc.program (hv n hn)
  · intro v c hv hc
    exact hc.warranted hv

/-! ## The phases of a sweep -/

abbrev Prompts (rt : Runtime) (found : List Node) {X α : Type} (m : Program X α) : Prop := Only (Prompted rt found) m

theorem publish_prompts (message : Text) : Prompts rt found (publish rt message) :=
  (publish_call rt message).mono fun _ hc => hc ▸ .tell message

theorem notifyFailures_prompts (summary : Summary) : Prompts rt found (notifyFailures rt summary) := by
  unfold notifyFailures
  split
  · exact .pure _
  · exact publish_prompts _

theorem terminateNode_prompts (reason : Reason) {n : Node} (hn : n ∈ found) (summary : Summary) :
    Prompts rt found (terminateNode rt reason n summary) := by
  refine .bind (.bind (.attempt (.call (.terminate hn))) fun r => ?_) fun r => ?_
  · cases r with
    | ok _ => exact .pure _
    | error e => exact .pure _
  · split
    split
    · exact .bind (publish_prompts _) fun _ => .pure _
    · exact .pure _

theorem terminateDuplicates_prompts {nodes : List Node} (hnodes : ∀ n ∈ nodes, n ∈ found) (summary : Summary) :
    Prompts rt found (terminateDuplicates rt nodes summary) := by
  induction nodes generalizing summary with
  | nil => exact .pure _
  | cons n rest ih =>
    refine .bind (terminateNode_prompts _ (hnodes n List.mem_cons_self) _) fun summary => ?_
    exact ih (fun m hm => hnodes m (List.mem_cons_of_mem _ hm)) _

theorem reap_prompts (now : DateTime) {nodes : List Node} (hnodes : ∀ n ∈ nodes, n ∈ found) (summary : Summary) :
    Prompts rt found (reap rt now nodes summary) := by
  induction nodes generalizing summary with
  | nil => exact .pure _
  | cons n rest ih =>
    have hrest : ∀ m ∈ rest, m ∈ found := fun m hm => hnodes m (List.mem_cons_of_mem _ hm)
    unfold reap
    split
    · exact .bind (terminateNode_prompts _ (hnodes n List.mem_cons_self) _) fun _ => ih hrest _
    · exact .bind (ih hrest _) fun _ => .pure _

theorem deduplicate_prompts {survivors : List Node} (hsurvivors : ∀ n ∈ survivors, n ∈ found) (summary : Summary) :
    Prompts rt found (deduplicate rt survivors summary) := by
  cases ho : (orderSurvivors survivors).2 with
  | false =>
    have heq : orderSurvivors survivors = ((orderSurvivors survivors).1,false) := by rw [← ho]
    unfold deduplicate
    rw [heq]
    exact .bind (publish_prompts _) fun _ => .pure _
  | true =>
    have heq : orderSurvivors survivors = ((orderSurvivors survivors).1,true) := by rw [← ho]
    unfold deduplicate
    rw [heq]
    refine .bind (terminateDuplicates_prompts ?_ _) fun _ => .pure _
    intro n hn
    exact hsurvivors n ((orderSurvivors_ordered ho).1.mem_iff.mp (List.mem_of_mem_tail hn))

theorem idleCheck_prompts (now : DateTime) (threshold : ℤ) {n : Node} (hn : n ∈ found) (summary : Summary) :
    Prompts rt found (idleCheck rt now threshold n summary) := by
  refine .bind (networkOut_only _ _ _ _ fun _ => .measure _ _) fun points => ?_
  split
  · refine .bind (publish_prompts _).total fun _ => .bind (ofExcept_only _) fun stamp => ?_
    exact .bind (.call (.stamp _ hn)) fun _ => .pure _
  · exact .pure _

theorem checkCandidate_prompts (now : DateTime) (threshold : Option ℤ) (readable : Bool) (pointer : Option Pointer)
    {candidate : Option Node} (hcandidate : ∀ n ∈ candidate, n ∈ found) (summary : Summary) :
    Prompts rt found (checkCandidate rt now threshold readable pointer candidate summary) := by
  cases candidate with
  | none => exact .pure _
  | some n =>
    refine .bind ?_ fun summary => ?_
    · unfold orphanCheck
      split
      · exact .bind (publish_prompts _) fun _ => .pure _
      · exact .pure _
    · cases threshold with
      | none => exact .pure _
      | some threshold =>
        unfold idleStep
        dsimp only
        split
        · exact .pure _
        · refine .bind (.attempt (idleCheck_prompts _ _ (hcandidate n rfl) _)) fun r => ?_
          cases r with
          | ok summary => exact .pure _
          | error e => exact .pure _

theorem reconcileStep_prompts (readable orderable : Bool) (pointer : Option Pointer) {candidate : Option Node}
    (hcandidate : ∀ n ∈ candidate, n ∈ found) (failedRegions : List Text) (summary : Summary) :
    Prompts rt found (reconcileStep rt readable orderable pointer candidate failedRegions summary) := by
  unfold reconcileStep
  split
  · unfold reconcile
    split
    · exact .pure _
    · rename_i value hvalue
      have hprompted : Prompted rt found (pointerWrite rt value) := by
        cases value with
        | none => exact .clear
        | some p =>
          obtain ⟨n,rfl,-,rfl⟩ := reconciled_adopt.mp hvalue
          exact .point (hcandidate n rfl)
      refine .bind (.attempt (.call hprompted)) fun r => ?_
      cases r with
      | ok _ => exact .pure _
      | error e => exact .pure _
  · exact .pure _

end

/-! ## The whole sweep -/

section
variable {rt : Runtime} {env : Env} {s t : State} {es : List Event}

/-- What the scans found is live where it was found. -/
theorem live_of_found {w : World} {scanned : List Scan} {xs : List Event} (h : List.Forall₂ (ScanEvent w) scanned xs)
    {n : Node} (hn : n ∈ foundNodes scanned) : n ∈ w.nodes := by
  induction h with
  | nil => cases hn
  | cons hx _ ih =>
    rcases List.mem_append.mp hn with hn | hn
    · obtain ⟨i,hi,rfl⟩ := List.mem_map.mp hn
      cases hx with
      | found hperm => exact mem_nodesIn.mp (hperm.mem_iff.mp hi)
      | failed => cases hi
    · exact ih hn

theorem Deduplicated.candidate_mem {survivors : List Node} {a b : Summary} {candidate : Option Node}
    (h : Deduplicated rt survivors a es candidate b) : ∀ n ∈ candidate, n ∈ survivors := by
  intro n hn
  cases h with
  | unordered _ _ => cases hn
  | ordered ho _ => exact (orderSurvivors_ordered ho).1.mem_iff.mp (List.mem_of_mem_head? hn)

/-- After the scans every call is prompted by what they found. -/
theorem SweepSteps.prompted {now : DateTime} {threshold : Option ℤ} {pointer : Except Exn (Option Pointer)}
    {regions : List Text} {summary summary' : Summary}
    (y : SweepSteps rt env now threshold pointer regions s summary summary' es) :
    ∀ e ∈ y.reapEvents ++ (y.dedupEvents ++ (y.checkEvents ++ (y.reconcileEvents ++ y.notifyEvents))),
      Prompted rt (foundNodes y.scanned) e.call := by
  have hsurvivors : ∀ n ∈ y.survivors, n ∈ foundNodes y.scanned := by
    intro n hn
    rw [y.survivors_eq] at hn
    exact (List.mem_filter.mp hn).1
  have hcandidate : ∀ n ∈ y.candidate, n ∈ foundNodes y.scanned := fun n hn =>
    hsurvivors n ((deduplicate_cases y.dedup).candidate_mem n hn)
  intro e he
  simp only [List.mem_append] at he
  rcases he with he | he | he | he | he
  · exact reap_prompts now (fun _ hn => hn) _ y.reap e he
  · exact deduplicate_prompts hsurvivors _ y.dedup e he
  · exact checkCandidate_prompts now _ _ _ hcandidate _ y.check e he
  · exact reconcileStep_prompts _ _ _ hcandidate _ _ y.reconcile e he
  · exact notifyFailures_prompts _ y.notify e he

theorem scanAll_harmless (regions : List Text) : Harmless rt (scanAll regions) := by
  induction regions with
  | nil => exact .pure _
  | cons region rest ih =>
    refine .bind (.bind (.attempt (findNodes_harmless region)) fun r => ?_) fun _ => .bind ih fun _ => .pure _
    cases r with
    | ok nodes => exact .pure _
    | error e => exact .pure _

theorem sweepRegions_warrants {now : DateTime} {threshold : Option ℤ} {pointer : Except Exn (Option Pointer)}
    {regions : List Text} {summary : Summary} {r : Except Empty Summary}
    (h : Steps env.service (sweepRegions rt now threshold pointer regions summary) s r es t) :
    Warrants rt env s.world es := by
  rcases r with x | summary'
  · exact x.elim
  obtain ⟨y⟩ := sweepRegions_steps h
  obtain ⟨hworld,-,hscan⟩ := scanAll_cases y.scan
  have hevents : es = y.scanEvents ++ (y.reapEvents ++ (y.dedupEvents ++ (y.checkEvents ++
      (y.reconcileEvents ++ y.notifyEvents)))) := y.events
  rw [hevents,Warrants,Service.permits_append,← y.scan.world]
  refine ⟨(scanAll_harmless regions).warrants y.scan,warrants_of_prompted ?_ y.prompted⟩
  intro n hn
  rw [hworld]
  exact .of_node (live_of_found hscan hn)

theorem sweep_warrants {now : DateTime} {r : Except Empty Summary} (h : Steps env.service (sweep rt now) s r es t) :
    Warrants rt env s.world es := by
  have hthreshold : Harmless rt (readThreshold rt Summary.initial) := by
    refine .bind (.attempt (.call fun _ => .readParameter ..)) fun r => ?_
    split
    · exact .pure _
    · split
      · exact .pure _
      · exact .pure _
  refine hthreshold.bind_warrants h fun ⟨threshold,summary⟩ s₁ _ _ _ h => ?_
  refine Harmless.bind_warrants (.attempt readPointer_harmless) h fun pointer s₂ _ _ _ h => ?_
  refine Harmless.bind_warrants (.attempt (.call fun _ => .listRegions)) h fun regions s₃ _ _ _ h => ?_
  cases regions with
  | error e =>
    refine Harmless.warrants (.bind ?_ fun _ => .pure _) h
    have hprompts : ∀ summary, Prompts rt [] (notifyFailures rt summary) := fun _ => notifyFailures_prompts _
    exact (hprompts _).mono fun c hc w => hc.warranted (by simp)
  | ok regions => exact sweepRegions_warrants h

/-! ## Going down, and every invocation -/

theorem terminateAll_prompts {region : Text} {is : List Instance} {found : List Node}
    (his : ∀ i ∈ is, ((region,i) : Node) ∈ found) : Prompts rt found (terminateAll region is) := by
  induction is with
  | nil => exact .pure _
  | cons i rest ih =>
    refine .bind (.call (.terminate (his i List.mem_cons_self))) fun _ => ?_
    exact ih fun j hj => his j (List.mem_cons_of_mem _ hj)

theorem terminateRegion_warrants {region : Text} {r : Except Exn Unit}
    (h : Steps env.service (terminateRegion region) s r es t) : Warrants rt env s.world es := by
  refine (findNodes_harmless region).bind_warrants h fun found u _ _ k h => ?_
  obtain ⟨hw,-,⟨nodes,hnodes,hperm,-⟩ | ⟨e,b,hr,-⟩⟩ := findNodes_cases k
  · obtain rfl := Except.ok.inj hnodes
    have hprompts : Prompts rt (found.map fun i => (region,i)) (terminateAll region found) :=
      terminateAll_prompts fun i hi => List.mem_map_of_mem hi
    refine warrants_of_prompted ?_ (hprompts h)
    intro n hn
    obtain ⟨i,hi,rfl⟩ := List.mem_map.mp hn
    rw [hw]
    exact .of_node (mem_nodesIn.mp (hperm.mem_iff.mp hi))
  · cases hr

theorem down_warrants {r : Except Exn Response} (h : Steps env.service (down rt) s r es t) :
    Warrants rt env s.world es := by
  refine readPointer_harmless.bind_warrants h fun pointer u _ _ _ h => ?_
  cases pointer with
  | none =>
    refine Harmless.bind_warrants (defaultClient_only fun _ => .readParameter ..) h fun region v _ _ _ h => ?_
    exact h.permits_bind (fun _ _ _ => terminateRegion_warrants) fun _ _ _ _ _ => Harmless.warrants (.pure _)
  | some pointer =>
    refine Harmless.bind_warrants (ofExcept_only _) h fun region v _ _ _ h => ?_
    refine h.permits_bind (fun _ _ _ => terminateRegion_warrants) fun _ _ x _ _ h => ?_
    exact Harmless.warrants (.bind (.call fun _ => .clear) fun _ => .pure _) h

theorem perform_warrants {body : Dict} {r : Except Exn Response}
    (h : Steps env.service (perform rt body) s r es t) : Warrants rt env s.world es := by
  unfold perform at h
  split at h
  · exact up_warrants h
  split at h
  · exact down_warrants h
  split at h
  · exact status_harmless.warrants h
  · exact Harmless.warrants (.pure _) h

theorem dispatch_warrants {requestId : Text} {body : Dict} {r : Except Empty Response}
    (h : Steps env.service (dispatch rt requestId body) s r es t) : Warrants rt env s.world es := by
  obtain ⟨v,-,h⟩ := dispatch_cases h
  exact perform_warrants h

theorem handleHttp_warrants {requestId : Text} {event : Dict} {r : Except Exn Response}
    (h : Steps env.service (handleHttp rt requestId event) s r es t) : Warrants rt env s.world es := by
  refine Harmless.bind_warrants (.attempt signingSecret_harmless) h fun v u _ _ _ h => ?_
  split at h
  · exact Harmless.warrants (.pure _) h
  split at h
  · exact Harmless.warrants (.pure _) h
  refine Harmless.bind_warrants (.attempt (authenticate_only _)) h fun v x _ _ _ h => ?_
  split at h
  · exact Harmless.warrants (.pure _) h
  · exact Harmless.warrants (.throw _) h
  · split at h
    · exact Harmless.warrants (.pure _) h
    · exact h.permits_total fun _ _ _ => dispatch_warrants

/-- Every call of an invocation is warranted in the world in which it is made. -/
theorem lambdaHandler_warrants {requestId : Text} {event : Dict} {r : Except Exn Reply}
    (h : Steps env.service (lambdaHandler rt requestId event) s r es t) : Warrants rt env s.world es := by
  unfold lambdaHandler at h
  split at h
  · refine Harmless.bind_warrants now_only h fun now u _ _ _ h => ?_
    refine h.permits_bind (fun _ _ _ k => k.permits_total fun _ _ _ => sweep_warrants) fun _ _ _ _ _ h => ?_
    exact Harmless.warrants (.pure _) h
  · refine h.permits_bind (fun _ _ _ => handleHttp_warrants) fun _ _ _ _ _ h => ?_
    exact Harmless.warrants (.pure _) h

end

end ShardVPN.Watchdog
