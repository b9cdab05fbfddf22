import ShardVPN.Program.Specs
import ShardVPN.Program.Watchdog

/-! # The loops that terminate nodes

Both loops of the sweep attempt each of their nodes once, in order. A success is
recorded under the loop's reason, a failure as a failure, and nothing else changes.
-/
namespace ShardVPN.Watchdog
open Effect Ec2ops

def publishCall (rt : Runtime) (message : Text) : Call :=
  .publish rt.controlRegion rt.topicArn (text "shardvpn") message

def terminateCall (n : Node) : Call := .terminateInstances n.1 [n.2.instanceId]

/-- A loop over nodes: the summary before, the events, the summary after. -/
inductive Cull (rt : Runtime) (reason : Reason) : List Node → Summary → List Event → Summary → Prop
  | nil {summary : Summary} : Cull rt reason [] summary [] summary
  | done {n : Node} {rest : List Node} {summary summary' : Summary} {ps es : List Event} :
      (∀ e ∈ ps, e.call.notifies = true) → Cull rt reason rest (summary.record n.2.instanceId reason) es summary' →
      Cull rt reason (n :: rest) summary (⟨terminateCall n,none,true⟩ :: (ps ++ es)) summary'
  | failed {n : Node} {rest : List Node} {summary summary' : Summary} {es : List Event} {e : ServiceError}
      {effective : Bool} :
      Cull rt reason rest (summary.fail (terminateFailure rt n.1 n.2.instanceId reason (.service e))) es summary' →
      Cull rt reason (n :: rest) summary (⟨terminateCall n,some e,effective⟩ :: es) summary'

section
variable {rt : Runtime} {env : Env} {s t : State} {es : List Event}

theorem publish_call (rt : Runtime) (message : Text) :
    Only (fun c => c = publishCall rt message) (publish rt message) := by
  rw [publish]
  split
  · exact .pure _
  · exact .bind (.attempt (.call rfl)) fun _ => .pure _

theorem publish_only (rt : Runtime) (message : Text) : Only (fun c => c.notifies = true) (publish rt message) :=
  (publish_call rt message).mono fun c hc => by
    rw [hc]
    rfl

/-! ### The calls of the loops -/

section
variable {Q : Call → Prop} (hterminate : ∀ region instanceId, Q (.terminateInstances region [instanceId]))
  (htold : ∀ n reason, Q (publishCall rt (terminatedMessage n reason)))
include hterminate htold

theorem terminateNode_only (reason : Reason) (n : Node) (summary : Summary) :
    Only Q (terminateNode rt reason n summary) := by
  refine .bind (.bind (.attempt (.call (hterminate _ _))) fun r => ?_) fun r => ?_
  · cases r with
    | ok _ => exact .pure _
    | error e => exact .pure _
  · split
    split
    · exact .bind ((publish_call rt _).mono fun c hc => hc ▸ htold n reason) fun _ => .pure _
    · exact .pure _

theorem terminateDuplicates_only (nodes : List Node) (summary : Summary) :
    Only Q (terminateDuplicates rt nodes summary) := by
  induction nodes generalizing summary with
  | nil => exact .pure _
  | cons n rest ih => exact .bind (terminateNode_only hterminate htold _ _ _) fun _ => ih _

theorem reap_only (now : Time.DateTime) (nodes : List Node) (summary : Summary) :
    Only Q (reap rt now nodes summary) := by
  induction nodes generalizing summary with
  | nil => exact .pure _
  | cons n rest ih =>
    unfold reap
    split
    · exact .bind (terminateNode_only hterminate htold _ _ _) fun _ => ih _
    · refine .bind (ih _) fun r => ?_
      exact .pure _

end

theorem terminateNode_cases {reason : Reason} {n : Node} {summary summary' : Summary}
    (h : Steps env.service (terminateNode rt reason n summary) s (.ok summary') es t) :
    (∃ ps, (∀ e ∈ ps, e.call.notifies = true) ∧ es = ⟨terminateCall n,none,true⟩ :: ps ∧
        summary' = summary.record n.2.instanceId reason) ∨
      ∃ e effective, es = [⟨terminateCall n,some e,effective⟩] ∧
        summary' = summary.fail (terminateFailure rt n.1 n.2.instanceId reason (.service e)) := by
  obtain ⟨⟨b,summary₁⟩,u,xs,ys,h1,h2,rfl⟩ := h.bind_total
  obtain ⟨v,u',xs,zs,h3,h4,rfl⟩ := h1.bind_attempt
  rcases terminate_cases h3 with ⟨rfl,rfl⟩ | ⟨e,f,rfl,rfl⟩
  · obtain ⟨hv,rfl,rfl⟩ := Steps.pure_iff.mp h4
    cases hv
    obtain ⟨_,w,xs,zs,h5,h6,rfl⟩ := h2.bind_total
    obtain ⟨hv,rfl,rfl⟩ := Steps.pure_iff.mp h6
    cases hv
    refine Or.inl ⟨xs,publish_only rt _ h5,?_,rfl⟩
    rw [List.append_nil,List.append_nil]
    rfl
  · obtain ⟨hv,rfl,rfl⟩ := Steps.pure_iff.mp h4
    cases hv
    obtain ⟨hv,rfl,rfl⟩ := Steps.pure_iff.mp h2
    cases hv
    exact Or.inr ⟨e,f,rfl,rfl⟩

theorem Cull.cons {reason : Reason} {n : Node} {rest : List Node} {summary summary₁ summary' : Summary}
    {xs ys : List Event} (h : Steps env.service (terminateNode rt reason n summary) s (.ok summary₁) xs t)
    (hrest : Cull rt reason rest summary₁ ys summary') : Cull rt reason (n :: rest) summary (xs ++ ys) summary' := by
  rcases terminateNode_cases h with ⟨ps,hps,rfl,rfl⟩ | ⟨e,f,rfl,rfl⟩
  · exact .done hps hrest
  · exact .failed hrest

/-- Step 1: the expired nodes are culled, the others survive in order. -/
theorem reap_cases {now : Time.DateTime} {found survivors : List Node} {summary summary' : Summary}
    (h : Steps env.service (reap rt now found summary) s (.ok (survivors,summary')) es t) :
    survivors = found.filter (fun n => !expired now n) ∧
      Cull rt .expired (found.filter (expired now)) summary es summary' := by
  induction found generalizing s es summary survivors with
  | nil =>
    obtain ⟨hv,rfl,-⟩ := Steps.pure_iff.mp h
    cases hv
    exact ⟨rfl,.nil⟩
  | cons n rest ih =>
    rw [reap] at h
    split at h
    · rename_i hn
      obtain ⟨summary₁,u,xs,ys,h1,h2,rfl⟩ := h.bind_total
      obtain ⟨rfl,hcull⟩ := ih h2
      rw [List.filter_cons_of_pos hn,List.filter_cons_of_neg (by simp [hn])]
      exact ⟨rfl,.cons h1 hcull⟩
    · rename_i hn
      obtain ⟨⟨survivors₁,summary₁⟩,u,xs,ys,h1,h2,rfl⟩ := h.bind_total
      obtain ⟨hv,rfl,rfl⟩ := Steps.pure_iff.mp h2
      cases hv
      obtain ⟨rfl,hcull⟩ := ih h1
      rw [List.filter_cons_of_neg hn,List.filter_cons_of_pos (by simp [hn]),List.append_nil]
      exact ⟨rfl,hcull⟩

/-- Step 2: all of its nodes are culled. -/
theorem terminateDuplicates_cases {nodes : List Node} {summary summary' : Summary}
    (h : Steps env.service (terminateDuplicates rt nodes summary) s (.ok summary') es t) :
    Cull rt .duplicate nodes summary es summary' := by
  induction nodes generalizing s es summary with
  | nil =>
    obtain ⟨hv,rfl,-⟩ := Steps.pure_iff.mp h
    cases hv
    exact .nil
  | cons n rest ih =>
    obtain ⟨summary₁,u,xs,ys,h1,h2,rfl⟩ := h.bind_total
    exact .cons h1 (ih h2)

end

/-! ## What a loop does -/

namespace Cull
variable {rt : Runtime} {reason : Reason} {nodes : List Node} {summary summary' : Summary} {es : List Event}

theorem attempted (h : Cull rt reason nodes summary es summary') : attempted es = nodes.map Node.key := by
  induction h with
  | nil => rfl
  | done hps _ ih =>
    have hquiet := attempted_eq_nil (fun e he => Call.quiet_terminates (Call.notifies_quiet (hps e he)))
    rw [List.map_cons,← ih,← List.singleton_append,attempted_append,attempted_append,hquiet]
    rfl
  | failed _ ih =>
    rw [List.map_cons,← ih,← List.singleton_append,attempted_append]
    rfl

theorem calls (h : Cull rt reason nodes summary es summary') :
    ∀ e ∈ es, e.call.onlyRemoves = true ∧ e.call.keepsParameters = true ∧ e.call.scans = false := by
  induction h with
  | nil => simp
  | done hps _ ih =>
    intro e he
    rcases List.mem_cons.mp he with rfl | he
    · exact ⟨rfl,rfl,rfl⟩
    · rcases List.mem_append.mp he with he | he
      · have hq := Call.notifies_quiet (hps e he)
        exact ⟨Call.quiet_onlyRemoves hq,Call.quiet_keepsParameters hq,Call.notifies_scans (hps e he)⟩
      · exact ih e he
  | failed _ ih =>
    intro e he
    rcases List.mem_cons.mp he with rfl | he
    · exact ⟨rfl,rfl,rfl⟩
    · exact ih e he

/-- The successes are recorded under the loop's reason, and only there. -/
theorem recorded (h : Cull rt reason nodes summary es summary') :
    (reason = .expired → summary'.reaped = summary.reaped ++ (terminated es).map (·.2) ∧
      summary'.duplicates = summary.duplicates) ∧
    (reason = .duplicate → summary'.duplicates = summary.duplicates ++ (terminated es).map (·.2) ∧
      summary'.reaped = summary.reaped) := by
  induction h with
  | nil => simp
  | @done n rest summary summary' ps es hps _ ih =>
    have hquiet := terminated_eq_nil (fun e he => Call.quiet_terminates (Call.notifies_quiet (hps e he)))
    have hhead : terminated (⟨terminateCall n,none,true⟩ :: (ps ++ es)) = n.key :: terminated es := by
      rw [← List.singleton_append,terminated_append,terminated_append,hquiet]
      rfl
    rw [hhead]
    refine ⟨?_,?_⟩
    · rintro rfl
      obtain ⟨h1,h2⟩ := ih.1 rfl
      rw [h1,h2]
      simp [Summary.record,Node.key]
    · rintro rfl
      obtain ⟨h1,h2⟩ := ih.2 rfl
      rw [h1,h2]
      simp [Summary.record,Node.key]
  | @failed n rest summary summary' es e effective _ ih =>
    have hhead : terminated (⟨terminateCall n,some e,effective⟩ :: es) = terminated es := by
      rw [← List.singleton_append,terminated_append]
      rfl
    rw [hhead]
    exact ih

/-- Every attempt that did not succeed is among the failures. -/
theorem failures (h : Cull rt reason nodes summary es summary') :
    ∃ fs, summary'.failures = summary.failures ++ fs ∧ ∀ n ∈ nodes, n.key ∉ terminated es →
      ∃ e, terminateFailure rt n.1 n.2.instanceId reason e ∈ fs := by
  induction h with
  | nil => exact ⟨[],by simp⟩
  | @done n rest summary summary' ps es hps _ ih =>
    obtain ⟨fs,hfs,hall⟩ := ih
    have hhead : ∀ k, k ∉ terminated (⟨terminateCall n,none,true⟩ :: (ps ++ es)) →
        k ≠ n.key ∧ k ∉ terminated es := by
      intro k hk
      rw [← List.singleton_append,terminated_append,terminated_append] at hk
      simp only [List.mem_append,not_or] at hk
      exact ⟨fun he => hk.1 (he ▸ List.mem_singleton_self _),hk.2.2⟩
    have hrecord : (summary.record n.2.instanceId reason).failures = summary.failures := by
      cases reason <;> rfl
    refine ⟨fs,hfs.trans (by rw [hrecord]),?_⟩
    intro m hm hk
    rcases List.mem_cons.mp hm with rfl | hm
    · exact absurd rfl (hhead _ hk).1
    · exact hall m hm (hhead _ hk).2
  | @failed n rest summary summary' es e effective _ ih =>
    obtain ⟨fs,hfs,hall⟩ := ih
    refine ⟨_ :: fs,hfs.trans (List.append_assoc _ _ _),?_⟩
    intro m hm hk
    rcases List.mem_cons.mp hm with rfl | hm
    · exact ⟨_,List.mem_cons_self⟩
    · have hk' : m.key ∉ terminated es := by
        rw [← List.singleton_append,terminated_append] at hk
        exact fun he => hk (List.mem_append_right _ he)
      obtain ⟨x,hx⟩ := hall m hm hk'
      exact ⟨x,List.mem_cons_of_mem _ hx⟩

/-- Where every call succeeds, every node is removed and no failure is recorded. -/
theorem clean (h : Cull rt reason nodes summary es summary') (hes : ∀ e ∈ es, e.succeeded = true) :
    removed es = nodes.map Node.key ∧ summary'.failures = summary.failures := by
  induction h with
  | nil => exact ⟨rfl,rfl⟩
  | @done n rest summary summary' ps es hps _ ih =>
    obtain ⟨hr,hf⟩ := ih (fun e he => hes e (List.mem_cons_of_mem _ (List.mem_append_right _ he)))
    have hquiet := removed_eq_nil fun e he => Call.quiet_terminates (Call.notifies_quiet (hps e he))
    have hrecord : (summary.record n.2.instanceId reason).failures = summary.failures := by
      cases reason <;> rfl
    refine ⟨?_,hf.trans hrecord⟩
    rw [List.map_cons,← hr,← List.singleton_append,removed_append,removed_append,hquiet]
    rfl
  | failed _ _ => exact absurd (hes _ List.mem_cons_self) (by simp [Event.succeeded])

end Cull

end ShardVPN.Watchdog
