import ShardVPN.Sweep.Alerts

/-! # Stamps and the messages they stand for

The last-idle-alert stamp tells later sweeps that the owner has been told. Whether an
idle message was accepted in the sweep that sets it depends on the topic and on SNS,
which the stamp does not wait for.
-/
namespace ShardVPN.Watchdog
open Effect Ec2ops Settings Time

/-- What a node sent, if an idle alert about it is due. -/
def alertBytes (env : Env) (before : List Event) (w : World) (now : DateTime) (threshold : Option ℤ) (n : Node) :
    Option ℤ :=
  if n.2.state = .running then do
    let k ← threshold
    let start ← windowStart idleWindowHours now
    let points ← (env.service.reply before w (metricRead now start n)).toOption
    if shouldAlert (idleBytes (points.insertionSort pointLe)) k (tagValue n.2 tagAlerted) now
      (tagValue n.2 tagLaunched) then some (idleBytes (points.insertionSort pointLe))
    else none
  else none

/-- The node a sweep alerts about, with what it sent. -/
def alertSeen (rt : Runtime) (env : Env) (before : List Event) (w : World) (now : DateTime) : Option (Node × ℤ) := do
  let n ← keptSeen rt env before w now
  let bytes ← alertBytes env before w now (thresholdSeen rt env before w) n
  some (n,bytes)

section
variable {rt : Runtime} {env : Env} {s t : State} {es before : List Event} {w : World} {now : WallClock}
  {threshold : Option ℤ} {n : Node} {summary summary' : Summary}

/-- An idle check without an alert at most reads the metric; one with an alert publishes and stamps. -/
theorem IdleRun.alert (h : IdleRun rt env now threshold n before w summary es summary') :
    (alertBytes env before w now.toDateTime threshold n = none ∧ (∀ e ∈ es, measures e.call = true) ∧
        summary'.alerted = summary.alerted) ∨
      ∃ bytes m, alertBytes env before w now.toDateTime threshold n = some bytes ∧ measures m.call = true ∧
        es = m :: (publishEvents rt env before w (idleMessage n bytes) ++
          [env.service.event before w (stampCall now.toDateTime n)]) ∧
        ((env.service.event before w (stampCall now.toDateTime n)).succeeded = true ∧
            summary'.alerted = summary.alerted ++ [n.2.instanceId] ∨
          summary'.alerted = summary.alerted) := by
  unfold alertBytes
  cases h with
  | skipped h =>
    refine Or.inl ⟨?_,by simp,rfl⟩
    rcases h with rfl | h
    · split <;> rfl
    · rw [if_neg h]
  | unread hstart herror =>
    refine Or.inl ⟨?_,?_,rfl⟩
    · rw [hstart]
      simp [herror,Except.toOption]
    · simp [metricRead,measures]
  | silent hrunning hk hstart hok hs =>
    refine Or.inl ⟨?_,?_,rfl⟩
    · rw [if_pos hrunning,hk,hstart]
      change ((env.service.reply before w (metricRead _ _ n)).toOption.bind _) = _
      rw [hok]
      exact if_neg (by simp [hs])
    · simp [metricRead,measures]
  | alerted hrunning hk hstart hok hs hsummary =>
    refine Or.inr ⟨_,_,?_,?_,rfl,?_⟩
    · rw [if_pos hrunning,hk,hstart]
      change ((env.service.reply before w (metricRead _ _ n)).toOption.bind _) = _
      rw [hok]
      exact if_pos hs
    · rw [Service.event_call]
      rfl
    · rcases hsummary with ⟨hstamped,rfl⟩ | ⟨-,failure,rfl⟩
      · exact Or.inl ⟨hstamped,rfl⟩
      · exact Or.inr rfl

/-- The calls of a sweep that concern its alert. -/
theorem sweep_alert (h : Steps env.service (sweep rt now.toDateTime) s (.ok summary) es t) :
    ∃ xs idle ys, es = xs ++ (idle ++ ys) ∧ (∀ e ∈ xs ++ ys, concernsIdle e.call = false) ∧
      ((alertSeen rt env s.trace s.world now.toDateTime = none ∧ (∀ e ∈ idle, measures e.call = true) ∧
          summary.alerted = []) ∨
        ∃ n bytes m, alertSeen rt env s.trace s.world now.toDateTime = some (n,bytes) ∧ measures m.call = true ∧
          idle = m :: (publishEvents rt env s.trace s.world (idleMessage n bytes) ++
            [env.service.event s.trace s.world (stampCall now.toDateTime n)]) ∧
          ((env.service.event s.trace s.world (stampCall now.toDateTime n)).succeeded = true ∧
              summary.alerted = [n.2.instanceId] ∨ summary.alerted = [])) := by
  obtain ⟨xs,idle,ys,hes,hothers,⟨hkept,rfl,halerted⟩ | ⟨n,a,b,hkept,ha,hb,hrun⟩⟩ := sweep_idle h
  · refine ⟨xs,[],ys,hes,hothers,Or.inl ⟨?_,by simp,halerted⟩⟩
    unfold alertSeen
    rw [hkept]
    rfl
  · have halert : alertSeen rt env s.trace s.world now.toDateTime =
        (alertBytes env s.trace s.world now.toDateTime (thresholdSeen rt env s.trace s.world) n).bind
          (fun bytes => some (n,bytes)) := by
      unfold alertSeen
      rw [hkept]
      rfl
    refine ⟨xs,idle,ys,hes,hothers,?_⟩
    rcases hrun.alert with ⟨hnone,hidle,hsame⟩ | ⟨bytes,m,hsome,hm,hidle,hsummary⟩
    · rw [halert,hnone]
      exact Or.inl ⟨rfl,hidle,by rw [hb,hsame,ha]⟩
    · rw [halert,hsome]
      refine Or.inr ⟨n,bytes,m,rfl,hm,hidle,?_⟩
      rw [hb]
      rw [ha,List.nil_append] at hsummary
      exact hsummary

end

/-! ## Marked as sent -/

/-- An idle message about the instance was accepted. -/
def Told (rt : Runtime) (es : List Event) (key : Text × Text) : Prop :=
  ∃ e ∈ es, e.effective = true ∧ ∃ n bytes, Node.key n = key ∧ e.call = publishCall rt (idleMessage n bytes)

/-- Every instance that was stamped or is listed as alerted was told about. -/
structure MarksTruly (rt : Runtime) (summary : Summary) (es : List Event) : Prop where
  stamped : ∀ e ∈ es, e.effective = true → ∀ region instanceId value,
    e.call = .createTags region [instanceId] [⟨tagAlerted,value⟩] → Told rt es (region,instanceId)
  listed : ∀ instanceId ∈ summary.alerted, ∃ region, Told rt es (region,instanceId)

/-- If an alert is due and its stamp will be set, there is a topic and SNS accepts the message. -/
def Heard (rt : Runtime) (env : Env) (before : List Event) (w : World) (now : DateTime) : Prop :=
  ∀ n bytes, alertSeen rt env before w now = some (n,bytes) →
    (env.service.event before w (stampCall now n)).effective = true →
    rt.topicArn ≠ [] ∧ (env.service.event before w (publishCall rt (idleMessage n bytes))).effective = true

section
variable {rt : Runtime} {env : Env} {s t : State} {es : List Event} {now : WallClock} {summary : Summary}

theorem marksTruly_iff (h : Steps env.service (sweep rt now.toDateTime) s (.ok summary) es t) :
    MarksTruly rt summary es ↔ Heard rt env s.trace s.world now.toDateTime := by
  obtain ⟨xs,idle,ys,rfl,hothers,hidle⟩ := sweep_alert h
  rcases hidle with ⟨hnone,hmeasures,halerted⟩ | ⟨n,bytes,m,hsome,hm,rfl,hsummary⟩
  · refine iff_of_true ⟨?_,?_⟩ ?_
    · rintro e he - region instanceId value hc
      have hmeasured := hmeasures e (mem_of_concernsIdle hothers he (by rw [hc]; rfl))
      rw [hc] at hmeasured
      cases hmeasured
    · rw [halerted]
      simp
    · rintro n bytes hsome
      rw [hnone] at hsome
      cases hsome
  · constructor
    · intro hmarks n' bytes' hsome' heffective
      obtain ⟨rfl,rfl⟩ := Prod.mk.inj (Option.some.inj (hsome.symm.trans hsome'))
      obtain ⟨e,he,heffect,n₁,bytes₁,-,hc⟩ := hmarks.stamped _ (by simp) heffective n.1 n.2.instanceId
        (strftime now.toDateTime) (Service.event_call _ _ _)
      have hin := mem_of_concernsIdle hothers he (by rw [hc]; exact looksIdle_idleMessage _ _)
      rcases mem_alertEvents hin with rfl | ⟨htopic,rfl⟩ | rfl
      · rw [hc] at hm
        cases hm
      · exact ⟨htopic,heffect⟩
      · rw [Service.event_call] at hc
        cases hc
    · intro hheard
      have htold : (env.service.event s.trace s.world (stampCall now.toDateTime n)).effective = true →
          Told rt (xs ++ ((m :: (publishEvents rt env s.trace s.world (idleMessage n bytes) ++
            [env.service.event s.trace s.world (stampCall now.toDateTime n)])) ++ ys)) (n.1,n.2.instanceId) := by
        intro heffective
        obtain ⟨htopic,heffect⟩ := hheard n bytes hsome heffective
        have hpublished : env.service.event s.trace s.world (publishCall rt (idleMessage n bytes)) ∈
            publishEvents rt env s.trace s.world (idleMessage n bytes) := mem_publishEvents.mpr ⟨htopic,rfl⟩
        exact ⟨_,by simp [hpublished],heffect,n,bytes,rfl,Service.event_call _ _ _⟩
      refine ⟨?_,?_⟩
      · intro e he heffective region instanceId value hc
        rcases mem_alertEvents (mem_of_concernsIdle hothers he (by rw [hc]; rfl)) with rfl | ⟨-,rfl⟩ | rfl
        · rw [hc] at hm
          cases hm
        · rw [Service.event_call] at hc
          cases hc
        · rw [Service.event_call] at hc
          obtain ⟨rfl,hids,-⟩ := Call.createTags.inj hc
          obtain rfl := List.head_eq_of_cons_eq hids
          exact htold heffective
      · rcases hsummary with ⟨hstamped,hlist⟩ | hlist
        · intro instanceId hid
          rw [hlist,List.mem_singleton] at hid
          rw [hid]
          exact ⟨n.1,htold (Service.event_effective hstamped)⟩
        · rw [hlist]
          simp

end

end ShardVPN.Watchdog
