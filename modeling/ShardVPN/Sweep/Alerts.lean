import ShardVPN.Sweep.Idle
import ShardVPN.Sweep.Sight

/-! # The idle alert, call by call

Step 3 reads the metric of its candidate, hands the idle message to SNS and stamps the
candidate. No other step makes these calls, so they meet what the environment holds
for them from the start of the sweep.
-/
namespace ShardVPN.Watchdog
open Effect Ec2ops Settings Time

/-- The read of a node's metric over the window that begins at `start`. -/
def metricRead (now start : DateTime) (n : Node) : Call :=
  .getMetricStatistics n.1 (networkQuery n.2.instanceId start now)

def stampCall (now : DateTime) (n : Node) : Call := .createTags n.1 [n.2.instanceId] [⟨tagAlerted,strftime now⟩]

/-- Without a topic nothing is published. -/
def publishEvents (rt : Runtime) (env : Env) (before : List Event) (w : World) (message : Text) : List Event :=
  if rt.topicArn = [] then [] else [env.service.event before w (publishCall rt message)]

/-! ## Telling the messages apart -/

/-- How the idle message begins and ends. -/
def looksIdle (message : Text) : Bool :=
  decide (message.take 11 = text "shardvpn: n") && decide (message.reverse.take 2 = [46,116])

theorem looksIdle_prefix {head rest : Text} (hlength : 11 ≤ head.length)
    (hne : head.take 11 ≠ text "shardvpn: n") : looksIdle (head ++ rest) = false := by
  unfold looksIdle
  rw [List.take_append_of_le_length hlength,decide_eq_false hne,Bool.false_and]

theorem take_reverse_append {front tail : Text} (hlength : 2 ≤ tail.length) :
    (front ++ tail).reverse.take 2 = tail.reverse.take 2 := by
  rw [List.reverse_append,List.take_append_of_le_length (by rwa [List.length_reverse])]

theorem looksIdle_suffix {front tail : Text} (hlength : 2 ≤ tail.length) (hne : tail.reverse.take 2 ≠ [46,116]) :
    looksIdle (front ++ tail) = false := by
  unfold looksIdle
  rw [take_reverse_append hlength,decide_eq_false hne,Bool.and_false]

theorem looksIdle_idleMessage (n : Node) (bytes : ℤ) : looksIdle (idleMessage n bytes) = true := by
  unfold looksIdle idleMessage
  rw [take_reverse_append (by decide)]
  simp only [List.append_assoc]
  rw [List.take_append_of_le_length (by decide)]
  decide

theorem looksIdle_terminatedMessage (n : Node) (reason : Reason) : looksIdle (terminatedMessage n reason) = false := by
  cases reason with
  | expired =>
    unfold terminatedMessage
    simp only [List.append_assoc]
    exact looksIdle_prefix (by decide) (by decide)
  | duplicate =>
    unfold terminatedMessage
    simp only [List.append_assoc]
    exact looksIdle_prefix (by decide) (by decide)

theorem looksIdle_unorderedMessage (survivors : List Node) : looksIdle (unorderedMessage survivors) = false := by
  unfold unorderedMessage
  simp only [List.append_assoc]
  exact looksIdle_prefix (by decide) (by decide)

theorem looksIdle_orphanMessage (readable : Bool) (n : Node) : looksIdle (orphanMessage readable n) = false := by
  unfold orphanMessage
  cases readable with
  | true =>
    simp only [↓reduceIte,List.append_assoc]
    exact looksIdle_prefix (by decide) (by decide)
  | false => exact looksIdle_suffix (by decide) (by decide)

/-- The report of the failures. -/
def failureMessage (failures : List Text) : Text :=
  text "shardvpn: sweep completed with failures: " ++ (failures.intersperse (text "; ")).flatten

theorem looksIdle_failureMessage (failures : List Text) : looksIdle (failureMessage failures) = false :=
  looksIdle_prefix (by decide) (by decide)

/-- The calls that only the idle check makes. -/
def concernsIdle : Call → Bool
  | .getMetricStatistics .. => true
  | .createTags .. => true
  | .publish _ _ _ message => looksIdle message
  | _ => false

theorem mem_of_concernsIdle {xs idle ys : List Event} (hothers : ∀ e ∈ xs ++ ys, concernsIdle e.call = false)
    {e : Event} (he : e ∈ xs ++ (idle ++ ys)) (hc : concernsIdle e.call = true) : e ∈ idle := by
  simp only [List.mem_append] at he
  rcases he with he | he | he
  · rw [hothers e (List.mem_append_left _ he)] at hc
    cases hc
  · exact he
  · rw [hothers e (List.mem_append_right _ he)] at hc
    cases hc

/-! ## The idle check -/

/-- The check of a node: not made, without an answer from CloudWatch, without an alert, or
with one. -/
inductive IdleRun (rt : Runtime) (env : Env) (now : WallClock) (threshold : Option ℤ) (n : Node)
    (before : List Event) (w : World) (summary : Summary) : List Event → Summary → Prop
  | skipped : threshold = none ∨ n.2.state ≠ .running → IdleRun rt env now threshold n before w summary [] summary
  | unread {start : DateTime} {e : ServiceError} {failure : Text} :
      windowStart idleWindowHours now.toDateTime = some start →
      env.service.reply before w (metricRead now.toDateTime start n) = .error e →
      IdleRun rt env now threshold n before w summary
        [env.service.event before w (metricRead now.toDateTime start n)] (summary.fail failure)
  | silent {start : DateTime} {points : List Datapoint} {k : ℤ} : n.2.state = .running → threshold = some k →
      windowStart idleWindowHours now.toDateTime = some start →
      env.service.reply before w (metricRead now.toDateTime start n) = .ok points →
      shouldAlert (idleBytes (points.insertionSort pointLe)) k (tagValue n.2 tagAlerted) now.toDateTime
        (tagValue n.2 tagLaunched) = false →
      IdleRun rt env now threshold n before w summary
        [env.service.event before w (metricRead now.toDateTime start n)] summary
  | alerted {start : DateTime} {points : List Datapoint} {k : ℤ} {summary' : Summary} :
      n.2.state = .running → threshold = some k → windowStart idleWindowHours now.toDateTime = some start →
      env.service.reply before w (metricRead now.toDateTime start n) = .ok points →
      shouldAlert (idleBytes (points.insertionSort pointLe)) k (tagValue n.2 tagAlerted) now.toDateTime
        (tagValue n.2 tagLaunched) = true →
      ((env.service.event before w (stampCall now.toDateTime n)).succeeded = true ∧
          summary' = { summary with alerted := summary.alerted ++ [n.2.instanceId] } ∨
        (env.service.event before w (stampCall now.toDateTime n)).succeeded = false ∧
          ∃ failure, summary' = summary.fail failure) →
      IdleRun rt env now threshold n before w summary
        (env.service.event before w (metricRead now.toDateTime start n) ::
          (publishEvents rt env before w (idleMessage n (idleBytes (points.insertionSort pointLe))) ++
            [env.service.event before w (stampCall now.toDateTime n)])) summary'

section
variable {rt : Runtime} {env : Env} {s t : State} {es : List Event}

theorem publish_events {message : Text} {r : Except Empty Unit}
    (h : Steps env.service (publish rt message) s r es t) :
    es = publishEvents rt env s.trace s.world message := by
  unfold publish at h
  unfold publishEvents
  by_cases htopic : rt.topicArn = []
  · rw [if_pos htopic] at h ⊢
    exact (Steps.pure_iff.mp h).2.1
  · rw [if_neg htopic] at h ⊢
    obtain ⟨v,u,xs,ys,h1,h2,rfl⟩ := h.bind_attempt
    rw [(Steps.pure_iff.mp h2).2.1,List.append_nil]
    exact h1.call_event

theorem mem_publishEvents {before : List Event} {w : World} {message : Text} {e : Event} :
    e ∈ publishEvents rt env before w message ↔
      rt.topicArn ≠ [] ∧ e = env.service.event before w (publishCall rt message) := by
  unfold publishEvents
  by_cases htopic : rt.topicArn = []
  · simp [htopic]
  · simp [htopic]

/-- A message is answered alike in every world, and only the same message comes before it. -/
theorem publishEvents_append {before xs : List Event} {w w' : World} {message : Text}
    (h : ∀ e ∈ xs, e.call ≠ publishCall rt message) :
    publishEvents rt env (before ++ xs) w' message = publishEvents rt env before w message := by
  unfold publishEvents
  rw [Service.event_append _ _ h]
  rfl

theorem stampCall_event {now : DateTime} {n : Node} {before xs : List Event} {w w' : World}
    (h : ∀ e ∈ xs, e.call ≠ stampCall now n) :
    env.service.event (before ++ xs) w' (stampCall now n) = env.service.event before w (stampCall now n) := by
  rw [Service.event_append _ _ h]
  rfl

theorem networkOut_run {now start : DateTime} {n : Node} {r : Except Exn (List Datapoint)}
    (hstart : windowStart idleWindowHours now = some start)
    (h : Steps env.service (networkOut n.1 n.2.instanceId idleWindowHours now) s r es t) :
    es = [env.service.event s.trace s.world (metricRead now start n)] ∧ t.world = s.world ∧
      ((∃ points, env.service.reply s.trace s.world (metricRead now start n) = .ok points ∧
          r = .ok (points.insertionSort pointLe)) ∨
        ∃ e, env.service.reply s.trace s.world (metricRead now start n) = .error e ∧ r = .error (.service e)) := by
  rcases networkOut_outcome h with ⟨hnone,-⟩ | ⟨_,hsome,hr,hes,hworld⟩
  · cases hnone.symm.trans hstart
  · obtain rfl := Option.some.inj (hstart.symm.trans hsome)
    refine ⟨hes,hworld,?_⟩
    unfold metricRead
    cases hreply : env.service.reply s.trace s.world
        (.getMetricStatistics n.1 (networkQuery n.2.instanceId start now)) with
    | ok points =>
      rw [hreply] at hr
      exact Or.inl ⟨points,rfl,hr⟩
    | error e =>
      rw [hreply] at hr
      exact Or.inr ⟨e,rfl,hr⟩

/-- The calls of an alert: the read of the metric, the message and the stamp. -/
theorem mem_alertEvents {before : List Event} {w : World} {message : Text} {now : DateTime} {n : Node} {m e : Event}
    (h : e ∈ m :: (publishEvents rt env before w message ++ [env.service.event before w (stampCall now n)])) :
    e = m ∨ (rt.topicArn ≠ [] ∧ e = env.service.event before w (publishCall rt message)) ∨
      e = env.service.event before w (stampCall now n) := by
  rcases List.mem_cons.mp h with rfl | h
  · exact Or.inl rfl
  rcases List.mem_append.mp h with h | h
  · exact Or.inr (Or.inl (mem_publishEvents.mp h))
  · exact Or.inr (Or.inr (List.mem_singleton.mp h))

/-- An alert hands over its message, whatever becomes of it, and stamps the node. -/
theorem alert_run {now : WallClock} {n : Node} {message : Text} {summary : Summary} {r : Except Exn Summary}
    (h : Steps env.service (do
      (publish rt message).total
      let stamp ← Program.ofExcept (Ttl.rfc3339 now.toDateTime)
      stampTag n.1 n.2.instanceId tagAlerted stamp
      pure { summary with alerted := summary.alerted ++ [n.2.instanceId] } : Program Exn Summary) s r es t) :
    es = publishEvents rt env s.trace s.world message ++
        [env.service.event s.trace s.world (stampCall now.toDateTime n)] ∧
      ((env.service.event s.trace s.world (stampCall now.toDateTime n)).succeeded = true ∧
          r = .ok { summary with alerted := summary.alerted ++ [n.2.instanceId] } ∨
        (env.service.event s.trace s.world (stampCall now.toDateTime n)).succeeded = false ∧ ∃ x, r = .error x) := by
  have hformat : Ttl.rfc3339 now.toDateTime = .ok (strftime now.toDateTime) := by
    rw [Ttl.rfc3339,now.rfc3339.1]
  rw [hformat] at h
  obtain ⟨_,u,ps,zs,h1,h2,rfl⟩ := h.bind_lifted
  have hps := publish_events h1
  rcases h2.bind_cases with ⟨stamp,u',qs,fs,h3,h4,rfl⟩ | ⟨x,h3,-⟩
  · obtain ⟨hstamp,rfl,rfl⟩ := Steps.pure_iff.mp h3
    obtain rfl := Except.ok.inj hstamp
    have hbefore : ∀ e ∈ ps, e.call ≠ stampCall now.toDateTime n := by
      intro e he
      rw [hps] at he
      rw [(mem_publishEvents.mp he).2,Service.event_call]
      simp [publishCall,stampCall]
    have hstamped : env.service.event u'.trace u'.world (stampCall now.toDateTime n) =
        env.service.event s.trace s.world (stampCall now.toDateTime n) := by
      rw [h1.2]
      exact stampCall_event hbefore
    rw [← hstamped,← hps]
    rcases h4.bind_cases with ⟨_,v,fs,gs,h5,h6,rfl⟩ | ⟨x,h5,rfl⟩
    · obtain ⟨rfl,rfl,rfl⟩ := Steps.pure_iff.mp h6
      obtain rfl := h5.call_event
      rw [List.append_nil]
      refine ⟨rfl,Or.inl ⟨?_,rfl⟩⟩
      rw [Service.event_succeeded]
      unfold stampCall
      rw [ok_of_mapError h5.call_reply.2.1]
      rfl
    · obtain rfl := h5.call_event
      obtain ⟨e,he,rfl⟩ := error_of_mapError h5.call_reply.2.1
      refine ⟨rfl,Or.inr ⟨?_,_,rfl⟩⟩
      rw [Service.event_succeeded]
      unfold stampCall
      rw [he]
      rfl
  · cases (Steps.pure_iff.mp h3).1

theorem idleCheck_run {now : WallClock} {threshold : ℤ} {n : Node} {summary : Summary} {r : Except Exn Summary}
    (h : Steps env.service (idleCheck rt now.toDateTime threshold n summary) s r es t)
    (hrunning : n.2.state = .running) :
    (∃ summary', r = .ok summary' ∧ IdleRun rt env now (some threshold) n s.trace s.world summary es summary') ∨
      ∃ x, r = .error x ∧ ∀ failure,
        IdleRun rt env now (some threshold) n s.trace s.world summary es (summary.fail failure) := by
  obtain ⟨start,hstart⟩ := windowStart_clock now
  rcases h.bind_cases with ⟨points,u,xs,ys,h1,h2,rfl⟩ | ⟨x,h1,rfl⟩
  · obtain ⟨rfl,-,⟨raw,hreply,hpoints⟩ | ⟨e,-,he⟩⟩ := networkOut_run hstart h1
    · obtain rfl := Except.ok.inj hpoints
      cases hs : shouldAlert (idleBytes (raw.insertionSort pointLe)) threshold (tagValue n.2 tagAlerted)
          now.toDateTime (tagValue n.2 tagLaunched) with
      | false =>
        rw [hs,if_neg (by decide)] at h2
        obtain ⟨rfl,rfl,rfl⟩ := Steps.pure_iff.mp h2
        rw [List.append_nil]
        exact Or.inl ⟨_,rfl,.silent hrunning rfl hstart hreply hs⟩
      | true =>
        rw [hs,if_pos rfl] at h2
        obtain ⟨hys,hsummary⟩ := alert_run h2
        -- the read of the metric comes before the message and the stamp
        have hpublish : publishEvents rt env u.trace u.world (idleMessage n (idleBytes (raw.insertionSort pointLe))) =
            publishEvents rt env s.trace s.world (idleMessage n (idleBytes (raw.insertionSort pointLe))) := by
          rw [h1.2]
          exact publishEvents_append (by simp [metricRead,publishCall])
        have hstamp : env.service.event u.trace u.world (stampCall now.toDateTime n) =
            env.service.event s.trace s.world (stampCall now.toDateTime n) := by
          rw [h1.2]
          exact stampCall_event (by simp [metricRead,stampCall])
        rw [hpublish,hstamp] at hys
        rw [hstamp] at hsummary
        rw [hys]
        rcases hsummary with ⟨hstamped,rfl⟩ | ⟨hrefused,x,rfl⟩
        · exact Or.inl ⟨_,rfl,.alerted hrunning rfl hstart hreply hs (Or.inl ⟨hstamped,rfl⟩)⟩
        · exact Or.inr ⟨x,rfl,fun failure =>
            .alerted hrunning rfl hstart hreply hs (Or.inr ⟨hrefused,failure,rfl⟩)⟩
    · cases he
  · obtain ⟨rfl,-,⟨raw,-,hpoints⟩ | ⟨e,hreply,-⟩⟩ := networkOut_run hstart h1
    · cases hpoints
    · exact Or.inr ⟨_,rfl,fun failure => .unread hstart hreply⟩

theorem idleStep_run {now : WallClock} {threshold : Option ℤ} {n : Node} {summary summary' : Summary}
    (h : Steps env.service (idleStep rt now.toDateTime threshold n summary) s (.ok summary') es t) :
    IdleRun rt env now threshold n s.trace s.world summary es summary' := by
  cases threshold with
  | none =>
    obtain ⟨hv,rfl,-⟩ := Steps.pure_iff.mp h
    cases hv
    exact .skipped (Or.inl rfl)
  | some k =>
    rw [idleStep] at h
    by_cases hrunning : n.2.state = .running
    · rw [if_neg (not_not.mpr hrunning)] at h
      obtain ⟨v,u,xs,ys,h1,h2,rfl⟩ := h.bind_attempt
      rcases idleCheck_run h1 hrunning with ⟨summary₁,rfl,hrun⟩ | ⟨x,rfl,hrun⟩
      · obtain ⟨hv,rfl,-⟩ := Steps.pure_iff.mp h2
        cases hv
        rwa [List.append_nil]
      · obtain ⟨hv,rfl,-⟩ := Steps.pure_iff.mp h2
        cases hv
        rw [List.append_nil]
        exact hrun _
    · rw [if_pos hrunning] at h
      obtain ⟨hv,rfl,-⟩ := Steps.pure_iff.mp h
      cases hv
      exact .skipped (Or.inr hrunning)

section
variable {before xs : List Event} {w w' : World} {now : WallClock} {threshold : Option ℤ} {n : Node}
  {summary summary' : Summary}

/-- Calls that have nothing to do with the idle check do not change it. -/
theorem IdleRun.of_later (h : IdleRun rt env now threshold n (before ++ xs) w' summary es summary')
    (hxs : ∀ e ∈ xs, concernsIdle e.call = false) (hw : w'.metrics = w.metrics) :
    IdleRun rt env now threshold n before w summary es summary' := by
  have hne : ∀ {c : Call}, concernsIdle c = true → ∀ e ∈ xs, e.call ≠ c := by
    rintro c hc e he rfl
    rw [hxs e he] at hc
    cases hc
  have hanswer : ∀ start m, env.answer (metricRead now.toDateTime start n) m w' =
      env.answer (metricRead now.toDateTime start n) m w := by
    intro start m
    unfold metricRead
    simp only [Env.answer,hw]
  have hreply : ∀ start, env.service.reply (before ++ xs) w' (metricRead now.toDateTime start n) =
      env.service.reply before w (metricRead now.toDateTime start n) := fun start =>
    (Service.reply_append _ _ (hne rfl)).trans (Service.reply_congr rfl (hanswer start))
  have hevent : ∀ start, env.service.event (before ++ xs) w' (metricRead now.toDateTime start n) =
      env.service.event before w (metricRead now.toDateTime start n) := fun start =>
    (Service.event_append _ _ (hne rfl)).trans (Service.event_congr rfl (hanswer start))
  have hstamp : env.service.event (before ++ xs) w' (stampCall now.toDateTime n) =
      env.service.event before w (stampCall now.toDateTime n) := stampCall_event (hne rfl)
  cases h with
  | skipped h => exact .skipped h
  | unread hstart herror =>
    rw [hevent]
    exact .unread hstart ((hreply _).symm.trans herror)
  | silent hrunning hk hstart hok hs =>
    rw [hevent]
    exact .silent hrunning hk hstart ((hreply _).symm.trans hok) hs
  | alerted hrunning hk hstart hok hs hsummary =>
    rw [hevent,hstamp,publishEvents_append (hne (looksIdle_idleMessage _ _))]
    rw [hstamp] at hsummary
    exact .alerted hrunning hk hstart ((hreply _).symm.trans hok) hs hsummary

end

/-! ## The whole sweep -/

theorem Cull.alerted {reason : Reason} {nodes : List Node} {summary summary' : Summary}
    (h : Cull rt reason nodes summary es summary') : summary'.alerted = summary.alerted := by
  induction h with
  | nil => rfl
  | done _ _ ih =>
    rw [ih]
    cases reason <;> rfl
  | failed _ ih => exact ih

theorem Deduplicated.alerted {survivors : List Node} {summary summary' : Summary} {candidate : Option Node}
    (h : Deduplicated rt survivors summary es candidate summary') : summary'.alerted = summary.alerted := by
  cases h with
  | unordered _ _ => rfl
  | ordered _ hcull => exact hcull.alerted

theorem Reconciled.alerted {decision : Option (Option Pointer)} {summary summary' : Summary}
    (h : Reconciled rt decision summary es summary') : summary'.alerted = summary.alerted := by
  cases h <;> rfl

theorem orphanCheck_told {readable : Bool} {pointer : Option Pointer} {n : Node} {summary summary' : Summary}
    (h : Steps env.service (orphanCheck rt readable pointer n summary) s (.ok summary') es t) :
    (∀ e ∈ es, e.call = publishCall rt (orphanMessage readable n)) ∧ summary'.alerted = summary.alerted ∧
      summary'.failures = summary.failures := by
  unfold orphanCheck at h
  cases hu : untracked pointer n.2.instanceId with
  | true =>
    rw [hu,if_pos rfl] at h
    obtain ⟨_,u,xs,ys,h1,h2,rfl⟩ := h.bind_total
    obtain ⟨hv,rfl,-⟩ := Steps.pure_iff.mp h2
    cases hv
    rw [List.append_nil]
    exact ⟨publish_call rt _ h1,rfl,rfl⟩
  | false =>
    rw [hu,if_neg (by decide)] at h
    obtain ⟨hv,rfl,-⟩ := Steps.pure_iff.mp h
    cases hv
    exact ⟨by simp,rfl,rfl⟩

/-- Step 3: the orphan message, if any, and then the idle check. -/
theorem checkCandidate_run {now : WallClock} {threshold : Option ℤ} {readable : Bool} {pointer : Option Pointer}
    {n : Node} {summary summary' : Summary}
    (h : Steps env.service (checkCandidate rt now.toDateTime threshold readable pointer (some n) summary) s
      (.ok summary') es t) :
    ∃ summary₁ xs ys, es = xs ++ ys ∧ (∀ e ∈ xs, e.call = publishCall rt (orphanMessage readable n)) ∧
      summary₁.alerted = summary.alerted ∧ summary₁.failures = summary.failures ∧
      IdleRun rt env now threshold n s.trace s.world summary₁ ys summary' := by
  obtain ⟨summary₁,u,xs,ys,h1,h2,rfl⟩ := h.bind_total
  obtain ⟨hxs,halerted,hfailures⟩ := orphanCheck_told h1
  refine ⟨summary₁,xs,ys,rfl,hxs,halerted,hfailures,?_⟩
  have hrun := idleStep_run h2
  rw [h1.2] at hrun
  refine hrun.of_later ?_ ?_
  · intro e he
    rw [hxs e he]
    exact looksIdle_orphanMessage readable n
  · rw [h1.world,replay_metrics]

theorem notifyFailures_call (rt : Runtime) (summary : Summary) :
    Only (fun c => c = publishCall rt (failureMessage summary.failures)) (notifyFailures rt summary) := by
  unfold notifyFailures
  split
  · exact .pure _
  · exact publish_call rt _

/-- No call before step 3 concerns the idle check, and none after it. -/
theorem SweepSteps.others {now : DateTime} {threshold : Option ℤ} {pointer : Except Exn (Option Pointer)}
    {regions : List Text} {summary summary' : Summary}
    (y : SweepSteps rt env now threshold pointer regions s summary summary' es) :
    (∀ e ∈ y.scanEvents ++ (y.reapEvents ++ y.dedupEvents), concernsIdle e.call = false) ∧
      ∀ e ∈ y.reconcileEvents ++ y.notifyEvents, concernsIdle e.call = false := by
  have hterminated : ∀ n reason, concernsIdle (publishCall rt (terminatedMessage n reason)) = false :=
    looksIdle_terminatedMessage
  refine ⟨?_,?_⟩
  · intro e he
    simp only [List.mem_append] at he
    rcases he with he | he | he
    · obtain ⟨x,-,hx⟩ := (forall₂_mem (scanAll_cases y.scan).2.2).2 e he
      rw [hx.call]
      rfl
    · exact reap_only (Q := fun c => concernsIdle c = false) (fun _ _ => rfl) hterminated _ _ _ y.reap e he
    · exact deduplicate_only (Q := fun c => concernsIdle c = false) (fun _ _ => rfl) hterminated
        looksIdle_unorderedMessage _ _ y.dedup e he
  · intro e he
    rcases List.mem_append.mp he with he | he
    · exact reconcileStep_only (Q := fun c => concernsIdle c = false) (fun _ => rfl) _ _ _ _ _ _ y.reconcile e he
    · rw [notifyFailures_call rt _ y.notify e he]
      exact looksIdle_failureMessage _

/-- The node a sweep looks after. -/
def keptSeen (rt : Runtime) (env : Env) (before : List Event) (w : World) (now : DateTime) : Option Node :=
  keptNode (remaining now (scansSeen rt env before w))

theorem SweepSteps.alerted_before {now : DateTime} {threshold : Option ℤ} {pointer : Except Exn (Option Pointer)}
    {regions : List Text} {summary summary' : Summary}
    (y : SweepSteps rt env now threshold pointer regions s summary summary' es) :
    y.afterDedup.alerted = summary.alerted ∧ summary'.alerted = y.afterCheck.alerted := by
  have hreap : y.afterReap.alerted = summary.alerted := (reap_cases y.reap).2.alerted
  refine ⟨(deduplicate_cases y.dedup).alerted.trans hreap,?_⟩
  rcases reconcileStep_cases y.reconcile with ⟨-,-,h⟩ | ⟨-,-,h⟩
  · exact h.alerted
  · exact congrArg Summary.alerted h

/-- Of the calls of a sweep, the idle check of the kept node makes those that concern it. -/
theorem sweep_idle {now : WallClock} {summary : Summary}
    (h : Steps env.service (sweep rt now.toDateTime) s (.ok summary) es t) :
    ∃ xs idle ys, es = xs ++ (idle ++ ys) ∧ (∀ e ∈ xs ++ ys, concernsIdle e.call = false) ∧
      ((keptSeen rt env s.trace s.world now.toDateTime = none ∧ idle = [] ∧ summary.alerted = []) ∨
        ∃ n a b, keptSeen rt env s.trace s.world now.toDateTime = some n ∧ a.alerted = [] ∧
          summary.alerted = b.alerted ∧
          IdleRun rt env now (thresholdSeen rt env s.trace s.world) n s.trace s.world a idle b) := by
  obtain ⟨start,u,rest,hopened,hcases⟩ := sweep_seen h
  have hstart : start.alerted = [] := by
    rcases hopened.threshold with ⟨-,rfl⟩ | ⟨-,f,rfl⟩ <;> rfl
  rcases hcases with ⟨e,hregions,rfl,hnotify⟩ | ⟨regions,hregions,hnodup,y,hscanned⟩
  · refine ⟨_,[],rest,hopened.events,?_,Or.inl ⟨?_,rfl,hstart⟩⟩
    · refine List.forall_mem_append.mpr ⟨openingEvents_calls (fun c => concernsIdle c = false) rfl rfl rfl,?_⟩
      intro e he
      rw [notifyFailures_call rt _ hnotify e he]
      exact looksIdle_failureMessage _
    · unfold keptSeen scansSeen
      rw [hregions]
      rfl
  · obtain ⟨hbefore,hafter⟩ := y.others
    obtain ⟨hdedup,hend⟩ := y.alerted_before
    have hkept : y.candidate = keptSeen rt env s.trace s.world now.toDateTime := by
      rw [y.candidate_eq,y.survivors_eq,hscanned]
      rfl
    have hcheck := y.check
    have hes : es = openingEvents rt env s.trace s.world ++ (y.scanEvents ++ (y.reapEvents ++ (y.dedupEvents ++
        (y.checkEvents ++ (y.reconcileEvents ++ y.notifyEvents))))) :=
      hopened.events.trans (congrArg (openingEvents rt env s.trace s.world ++ ·) y.events)
    have hearlier : ∀ e ∈ openingEvents rt env s.trace s.world ++
        (y.scanEvents ++ (y.reapEvents ++ y.dedupEvents)), concernsIdle e.call = false :=
      List.forall_mem_append.mpr ⟨openingEvents_calls (fun c => concernsIdle c = false) rfl rfl rfl,hbefore⟩
    rw [hkept] at hcheck
    cases hk : keptSeen rt env s.trace s.world now.toDateTime with
    | none =>
      rw [hk] at hcheck
      obtain ⟨hv,hnil,-⟩ := Steps.pure_iff.mp hcheck
      refine ⟨openingEvents rt env s.trace s.world ++ (y.scanEvents ++ (y.reapEvents ++ y.dedupEvents)),[],
        y.reconcileEvents ++ y.notifyEvents,?_,?_,Or.inl ⟨rfl,rfl,?_⟩⟩
      · rw [hes,hnil]
        simp only [List.append_assoc,List.nil_append]
      · exact List.forall_mem_append.mpr ⟨hearlier,hafter⟩
      · rw [hend,Except.ok.inj hv,hdedup,hstart]
    | some n =>
      rw [hk] at hcheck
      obtain ⟨a,xs,ys,hxy,hxs,halerted,-,hrun⟩ := checkCandidate_run hcheck
      refine ⟨openingEvents rt env s.trace s.world ++ (y.scanEvents ++ (y.reapEvents ++ y.dedupEvents)) ++ xs,ys,
        y.reconcileEvents ++ y.notifyEvents,?_,?_,Or.inr ⟨n,a,_,rfl,halerted.trans (hdedup.trans hstart),hend,?_⟩⟩
      · rw [hes,hxy]
        simp only [List.append_assoc]
      · refine List.forall_mem_append.mpr ⟨List.forall_mem_append.mpr ⟨hearlier,?_⟩,hafter⟩
        intro e he
        rw [hxs e he]
        exact looksIdle_orphanMessage _ n
      · have htrace : y.s₃.trace = s.trace ++
            (openingEvents rt env s.trace s.world ++ (y.scanEvents ++ (y.reapEvents ++ y.dedupEvents))) := by
          rw [y.dedup.2,y.reap.2,y.scan.2,hopened.trace]
          simp only [openingEvents,List.append_assoc]
        rw [htrace] at hrun
        refine hrun.of_later hearlier ?_
        rw [y.dedup.world,replay_metrics,y.reap.world,replay_metrics,y.scan.world,replay_metrics,hopened.world]

end

end ShardVPN.Watchdog
