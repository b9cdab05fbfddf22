import ShardVPN.Cloud.Events
import ShardVPN.Program.Settings

/-! # Specifications of the single calls

One lemma for each function that makes exactly one call: its event, its result, and
the worlds before and after. The pointer in store is what a read that is not
disturbed returns.
-/
namespace ShardVPN
open Effect Ec2ops Settings

section
variable {env : Env} {s t : State} {es : List Event}

theorem call_cases {c : Call} {r : Except Exn (Resp c)} (h : Steps env.service (Program.call c) s r es t) :
    t.proc = s.proc ∧
    ((∃ a n, r = .ok a ∧ es = [⟨c,none,true⟩] ∧ env.answer c n s.world = .ok a) ∨
      ∃ e b n, r = .error (.service e) ∧ es = [⟨c,some e,b⟩] ∧ Failure env.service c n s.world e b) := by
  obtain ⟨hp,⟨a,hr,he,-,ha⟩ | ⟨e,b,hr,he,hf⟩⟩ := h.call_cases
  · exact ⟨hp,Or.inl ⟨a,_,hr,he,ha⟩⟩
  · exact ⟨hp,Or.inr ⟨e,b,_,hr,he,hf⟩⟩

theorem ofExcept_cases {X α : Type} {a r : Except X α} (h : Steps env.service (Program.ofExcept a) s r es t) :
    r = a ∧ es = [] ∧ t = s := by
  cases a with
  | ok a => exact Steps.pure_iff.mp h
  | error x => exact Steps.throw_iff.mp h

theorem ofOption_cases {X α : Type} {x : X} {a : Option α} {r : Except X α}
    (h : Steps env.service (Program.ofOption x a) s r es t) :
    (∀ v, r = .ok v → a = some v) ∧ es = [] ∧ t = s := by
  cases a with
  | some a =>
    obtain ⟨rfl,he,ht⟩ := Steps.pure_iff.mp h
    exact ⟨fun v hv => congrArg some (Except.ok.inj hv),he,ht⟩
  | none =>
    obtain ⟨rfl,he,ht⟩ := Steps.throw_iff.mp h
    exact ⟨fun v hv => (nomatch hv),he,ht⟩

theorem ofExcept_only {X α : Type} {Q : Call → Prop} (r : Except X α) : Only Q (Program.ofExcept r) := by
  cases r with
  | ok a => exact .pure _
  | error x => exact .throw _

theorem ofOption_only {X α : Type} {Q : Call → Prop} (x : X) (a : Option α) : Only Q (Program.ofOption x a) := by
  cases a with
  | some a => exact .pure _
  | none => exact .throw _

theorem now_only {X : Type} {Q : Call → Prop} : Only Q (Program.now : Program X Time.WallClock) :=
  .bind .getProc fun _ => .bind (.setProc _) fun _ => .pure _

theorem now_reply {X : Type} {r : Except X Time.WallClock} (h : Steps env.service Program.now s r es t) :
    r = .ok (s.proc.clock s.proc.ticks) ∧ es = [] ∧
      t = { s with proc := { s.proc with ticks := s.proc.ticks + 1 } } := by
  rcases h.bind_cases with ⟨p,u,xs,ys,h1,h2,rfl⟩ | ⟨x,h1,-⟩
  · obtain ⟨hp,rfl,rfl⟩ := Steps.getProc_iff.mp h1
    obtain rfl := Except.ok.inj hp
    rcases h2.bind_cases with ⟨_,v,xs,zs,h3,h4,rfl⟩ | ⟨x,h3,-⟩
    · obtain ⟨-,rfl,rfl⟩ := Steps.setProc_iff.mp h3
      obtain ⟨rfl,rfl,rfl⟩ := Steps.pure_iff.mp h4
      exact ⟨rfl,rfl,rfl⟩
    · cases (Steps.setProc_iff.mp h3).1
  · cases (Steps.getProc_iff.mp h1).1

theorem cachedSecret_only {Q : Call → Prop} (region : Text) (name : ParamName) (now : ℤ)
    (hQ : Q (.getParameter region name.path true)) : Only Q (cachedSecret region name now) := by
  refine .bind .getProc fun p => ?_
  split
  · exact .pure _
  · exact .bind (.call hQ) fun _ => .bind .getProc fun _ => .bind (.setProc _) fun _ => .pure _

theorem ok_of_mapError {ε ε' α : Type} {f : ε → ε'} {a : α} {r : Except ε α}
    (h : Except.ok a = r.mapError f) : r = .ok a := by
  cases r with
  | ok b => exact congrArg Except.ok (Except.ok.inj h).symm
  | error e => cases h

theorem error_of_mapError {ε ε' α : Type} {f : ε → ε'} {x : ε'} {r : Except ε α}
    (h : Except.error x = r.mapError f) : ∃ e, r = .error e ∧ x = f e := by
  cases r with
  | ok a => cases h
  | error e => exact ⟨e,rfl,Except.error.inj h⟩

/-- A step whose only call does nothing to the world leaves it as it was. -/
theorem world_of_event {X α : Type} {m : Program X α} {r : Except X α} {e : Event}
    (h : Steps env.service m s r [e] t) (he : ∀ w, env.effect e.call w = w) : t.world = s.world := by
  rw [h.world,Service.replay_cons,Service.replay_nil]
  split
  · exact he _
  · rfl

/-- Calls without effect leave the world as it was. -/
theorem world_of_inert {X α : Type} {m : Program X α} (hm : Only (fun c => ∀ w, env.effect c w = w) m)
    {r : Except X α} (h : Steps env.service m s r es t) : t.world = s.world :=
  hm.world_rel (R := fun v w : World => w = v) (fun _ => rfl) (fun _ _ _ h k => k.trans h) (fun _ w hc => hc w) h

/-- A call whose reply is used as it is. -/
theorem call_map_outcome {α : Type} {c : Call} {f : Resp c → α} {r : Except Exn α}
    (h : Steps env.service (Program.call c >>= fun a => pure (f a)) s r es t) :
    r = ((env.service.reply s.trace s.world c).map f).mapError Exn.service ∧
      es = [env.service.event s.trace s.world c] ∧ t.proc = s.proc := by
  rcases h.bind_cases with ⟨a,u,xs,ys,h1,h2,rfl⟩ | ⟨x,h1,hr⟩
  · obtain ⟨hproc,ha,-⟩ := h1.call_reply
    have hevent := h1.call_event
    obtain ⟨hr,rfl,rfl⟩ := Steps.pure_iff.mp h2
    rw [ok_of_mapError ha,List.append_nil]
    exact ⟨hr,hevent,hproc⟩
  · obtain ⟨hproc,hx,-⟩ := h1.call_reply
    obtain ⟨e,he,rfl⟩ := error_of_mapError hx
    rw [he]
    exact ⟨hr,h1.call_event,hproc⟩

/-! ## Nodes -/

theorem findNodes_only {Q : Call → Prop} (region : Text) (hQ : Q (.describeInstances region nodeFilters)) :
    Only Q (findNodes region) :=
  .bind (.call hQ) fun _ => .pure _

/-- A lookup of nodes returns the reply to its call. -/
theorem findNodes_outcome {region : Text} {r : Except Exn (List Instance)}
    (h : Steps env.service (findNodes region) s r es t) :
    r = ((env.service.reply s.trace s.world (.describeInstances region nodeFilters)).map List.flatten).mapError
        Exn.service ∧
      es = [env.service.event s.trace s.world (.describeInstances region nodeFilters)] ∧
      t.world = s.world ∧ t.proc = s.proc := by
  obtain ⟨hr,hes,hproc⟩ := call_map_outcome h
  exact ⟨hr,hes,world_of_inert (findNodes_only region fun _ => rfl) h,hproc⟩

theorem reservations_of_reply {before : List Event} {w : World} {region : Text} {reservations : List (List Instance)}
    (h : env.service.reply before w (.describeInstances region nodeFilters) = .ok reservations) :
    reservations.flatten.Perm (w.nodesIn region) := by
  obtain rfl := Except.ok.inj (Service.reply_ok h).1
  refine (env.reservations_perm _ _ _).trans ?_
  simp only [matchesAll_nodeFilters]
  rfl

theorem findNodes_cases {region : Text} {r : Except Exn (List Instance)}
    (h : Steps env.service (findNodes region) s r es t) : t.world = s.world ∧ t.proc = s.proc ∧
    ((∃ nodes, r = .ok nodes ∧ nodes.Perm (s.world.nodesIn region) ∧
        es = [⟨.describeInstances region nodeFilters,none,true⟩]) ∨
      ∃ e b, r = .error (.service e) ∧ es = [⟨.describeInstances region nodeFilters,some e,b⟩]) := by
  obtain ⟨hr,rfl,hw,hp⟩ := findNodes_outcome h
  refine ⟨hw,hp,?_⟩
  cases hreply : env.service.reply s.trace s.world (.describeInstances region nodeFilters) with
  | ok reservations =>
    rw [hreply] at hr
    rw [(Service.reply_ok hreply).2]
    exact Or.inl ⟨_,hr,reservations_of_reply hreply,rfl⟩
  | error e =>
    obtain ⟨b,-,hevent⟩ := Service.reply_error hreply
    rw [hreply] at hr
    rw [hevent]
    exact Or.inr ⟨e,b,hr,rfl⟩

theorem terminate_cases {region instanceId : Text} {r : Except Exn Unit}
    (h : Steps env.service (terminate region instanceId) s r es t) :
    (r = .ok () ∧ es = [⟨.terminateInstances region [instanceId],none,true⟩]) ∨
      ∃ e b, r = .error (.service e) ∧ es = [⟨.terminateInstances region [instanceId],some e,b⟩] := by
  obtain ⟨-,⟨a,n,hr,he,-⟩ | ⟨e,b,n,hr,he,-⟩⟩ := call_cases h
  · exact Or.inl ⟨hr,he⟩
  · exact Or.inr ⟨e,b,hr,he⟩

theorem networkOut_only {Q : Call → Prop} (region instanceId : Text) (hours : ℕ) (now : Time.DateTime)
    (hQ : ∀ query, Q (.getMetricStatistics region query)) : Only Q (networkOut region instanceId hours now) :=
  .bind (ofOption_only _ _) fun _ => .bind (.call (hQ _)) fun _ => .pure _

/-- The traffic of a node is the reply to one call in order, where the calendar has room for the window. -/
theorem networkOut_outcome {region instanceId : Text} {hours : ℕ} {now : Time.DateTime}
    {r : Except Exn (List Datapoint)} (h : Steps env.service (networkOut region instanceId hours now) s r es t) :
    windowStart hours now = none ∧ r = .error .overflowError ∧ es = [] ∨
      ∃ start, windowStart hours now = some start ∧
        r = ((env.service.reply s.trace s.world (.getMetricStatistics region (networkQuery instanceId start now))).map
          (·.insertionSort pointLe)).mapError Exn.service ∧
        es = [env.service.event s.trace s.world (.getMetricStatistics region (networkQuery instanceId start now))] ∧
        t.world = s.world := by
  have hworld := world_of_inert (networkOut_only region instanceId hours now fun _ _ => rfl) h
  unfold networkOut at h
  cases hstart : windowStart hours now with
  | none =>
    rw [hstart] at h
    rcases h.bind_cases with ⟨start,u,xs,ys,h1,-,-⟩ | ⟨x,h1,hr⟩
    · cases (Steps.throw_iff.mp h1).1
    · obtain ⟨hx,hes,-⟩ := Steps.throw_iff.mp h1
      cases hx
      exact Or.inl ⟨rfl,hr,hes⟩
  | some start =>
    rw [hstart] at h
    rcases h.bind_cases with ⟨_,u,xs,ys,h1,h2,rfl⟩ | ⟨x,h1,-⟩
    · obtain ⟨hv,rfl,rfl⟩ := Steps.pure_iff.mp h1
      obtain rfl := Except.ok.inj hv
      obtain ⟨hr,hes,-⟩ := call_map_outcome h2
      exact Or.inr ⟨_,rfl,hr,hes,hworld⟩
    · cases (Steps.pure_iff.mp h1).1

/-! ## The pointer -/

/-- The text the pointer is stored under, read and decoded. -/
def storedPointer (rt : Runtime) (w : World) : Except Exn (Option Pointer) :=
  match w.parameters rt.controlRegion ParamName.currentNode.path with
  | some raw => decodePointer raw
  | none => .ok none

theorem Same.storedPointer {v w : World} (h : Same v w) (rt : Runtime) :
    storedPointer rt w = ShardVPN.storedPointer rt v := by
  rw [ShardVPN.storedPointer,h.parameters]
  rfl

/-- The read of the pointer parameter. -/
def pointerRead (rt : Runtime) : Call := .getParameter rt.controlRegion ParamName.currentNode.path false

theorem Failure.honest {c : Call} {n : ℕ} {w : World} {code message : Text} {b : Bool}
    (h : Failure env.service c n w (.client code message) b) (hcode : code = parameterNotFound) :
    env.service.answer c n w = .error (.client code message) := by
  cases h with
  | rejected _ ha => exact ha
  | refused hf =>
    have hh := env.fault_honest c n
    rw [show env.fault c n = _ from hf] at hh
    exact absurd hcode hh
  | lost hf =>
    have hh := env.fault_honest c n
    rw [show env.fault c n = _ from hf] at hh
    exact absurd hcode hh

theorem parameter_of_reply {before : List Event} {w : World} {region name raw : Text} {decrypt : Bool}
    (h : env.service.reply before w (.getParameter region name decrypt) = .ok raw) :
    w.parameters region name = some raw := by
  have hanswer := (Service.reply_ok h).1
  simp only [Env.service,Env.answer] at hanswer
  cases hraw : w.parameters region name with
  | some stored =>
    rw [hraw] at hanswer
    exact congrArg some (Except.ok.inj hanswer)
  | none =>
    rw [hraw] at hanswer
    cases hanswer

theorem no_parameter_of_reply {before : List Event} {w : World} {region name message : Text} {decrypt : Bool}
    (h : env.service.reply before w (.getParameter region name decrypt) =
      .error (.client parameterNotFound message)) : w.parameters region name = none := by
  obtain ⟨b,hf,-⟩ := Service.reply_error h
  have hanswer := Failure.honest hf rfl
  simp only [Env.service,Env.answer] at hanswer
  cases hraw : w.parameters region name with
  | some stored =>
    rw [hraw] at hanswer
    cases hanswer
  | none => rfl

theorem getParameter_cases {region name value : Text} {decrypt : Bool}
    (h : Steps env.service (Program.call (.getParameter region name decrypt)) s (.ok value) es t) :
    es = [⟨.getParameter region name decrypt,none,true⟩] ∧ s.world.parameters region name = some value ∧
      t.world = s.world := by
  have hreply := ok_of_mapError h.call_reply.2.1
  refine ⟨?_,parameter_of_reply hreply,world_of_inert (.call fun _ => rfl) h⟩
  rw [h.call_event,(Service.reply_ok hreply).2]

/-- What a read of the pointer returns for the reply to its call. -/
def Settings.pointerOutcome : Except ServiceError Text → Except Exn (Option Pointer)
  | .ok raw => decodePointer raw
  | .error (.client code _) => if code = parameterNotFound then .ok none else .error (.pointerUnavailable code)
  | .error e => .error (.service e)

theorem Settings.pointerOutcome_client (code message : Text) : pointerOutcome (.error (.client code message)) =
    if code = parameterNotFound then .ok none else .error (.pointerUnavailable code) := rfl

theorem readPointer_only {Q : Call → Prop} (region : Text) (name : ParamName)
    (hQ : Q (.getParameter region name.path false)) : Only Q (readPointer region name) := by
  refine .bind (.attempt (.call hQ)) fun r => ?_
  split
  · split
    · exact .pure _
    · exact .throw _
  · exact .throw _
  · exact ofExcept_only _

theorem readPointer_outcome {region : Text} {name : ParamName} {r : Except Exn (Option Pointer)}
    (h : Steps env.service (readPointer region name) s r es t) :
    r = pointerOutcome (env.service.reply s.trace s.world (.getParameter region name.path false)) ∧
      es = [env.service.event s.trace s.world (.getParameter region name.path false)] ∧
      t.world = s.world ∧ t.proc = s.proc := by
  have hworld := world_of_inert (readPointer_only region name fun _ => rfl) h
  obtain ⟨v,u,xs,ys,h1,h2,rfl⟩ := h.bind_attempt
  obtain ⟨hproc,hv,-⟩ := h1.call_reply
  have hrest : r = pointerOutcome (env.service.reply s.trace s.world (.getParameter region name.path false)) ∧
      ys = [] ∧ t = u := by
    cases hreply : env.service.reply s.trace s.world (.getParameter region name.path false) with
    | ok raw =>
      rw [hreply] at hv
      subst hv
      exact ofExcept_cases h2
    | error e =>
      rw [hreply] at hv
      subst hv
      cases e with
      | client code message =>
        rw [pointerOutcome_client]
        dsimp only [Except.mapError] at h2
        by_cases hcode : code = parameterNotFound
        · rw [if_pos hcode] at h2 ⊢
          exact Steps.pure_iff.mp h2
        · rw [if_neg hcode] at h2 ⊢
          exact Steps.throw_iff.mp h2
      | http status reason => exact Steps.throw_iff.mp h2
      | other typeName message isValueError => exact Steps.throw_iff.mp h2
  obtain ⟨hr,rfl,rfl⟩ := hrest
  rw [List.append_nil]
  exact ⟨hr,h1.call_event,hworld,hproc⟩

/-- A reply is decoded to what is stored, or it is an error and the read raises. -/
theorem pointerOutcome_stored {rt : Runtime} {before : List Event} {w : World}
    {reply : Except ServiceError Text} (hreply : env.service.reply before w (pointerRead rt) = reply) :
    pointerOutcome reply = storedPointer rt w ∨
      (∃ e, reply = .error e) ∧ ∃ x, pointerOutcome reply = .error x := by
  cases reply with
  | ok raw =>
    left
    unfold storedPointer
    rw [parameter_of_reply hreply]
    rfl
  | error e =>
    cases e with
    | client code message =>
      rw [pointerOutcome_client]
      by_cases hcode : code = parameterNotFound
      · left
        subst hcode
        unfold storedPointer
        rw [if_pos rfl,no_parameter_of_reply hreply]
      · rw [if_neg hcode]
        exact Or.inr ⟨⟨_,rfl⟩,_,rfl⟩
    | http status reason => exact Or.inr ⟨⟨_,rfl⟩,_,rfl⟩
    | other typeName message isValueError => exact Or.inr ⟨⟨_,rfl⟩,_,rfl⟩

/-- A read of the pointer returns what is stored or raises, and raises only if the
call fails or the stored text is malformed. -/
theorem readPointer_cases {rt : Runtime} {r : Except Exn (Option Pointer)}
    (h : Steps env.service (readPointer rt.controlRegion .currentNode) s r es t) :
    t.world = s.world ∧ (∃ error effective, es = [⟨pointerRead rt,error,effective⟩] ∧
      (error = none → r = storedPointer rt s.world)) ∧ (r = storedPointer rt s.world ∨ ∃ x, r = .error x) := by
  obtain ⟨hr,hes,hw,-⟩ := readPointer_outcome h
  refine ⟨hw,?_⟩
  obtain ⟨error,effective,hevent,hok⟩ := env.service.event_reply s.trace s.world (pointerRead rt)
  have hreply : env.service.reply s.trace s.world (pointerRead rt) =
      env.service.reply s.trace s.world (pointerRead rt) := rfl
  rcases pointerOutcome_stored hreply with hstored | ⟨⟨e,herror⟩,x,hx⟩
  · exact ⟨⟨error,effective,hes.trans (congrArg (fun e => [e]) hevent),fun _ => hr.trans hstored⟩,
      Or.inl (hr.trans hstored)⟩
  · refine ⟨⟨error,effective,hes.trans (congrArg (fun e => [e]) hevent),?_⟩,Or.inr ⟨x,hr.trans hx⟩⟩
    intro hnone
    obtain ⟨raw,hraw⟩ := hok hnone
    cases hraw.symm.trans herror

/-- The write of a pointer value. -/
def pointerWrite (rt : Runtime) (value : Option Pointer) : Call :=
  .putParameter rt.controlRegion ParamName.currentNode.path (encodePointer value) (text "String") true

theorem writePointer_cases {rt : Runtime} {value : Option Pointer} {r : Except Exn Unit}
    (h : Steps env.service (writePointer rt.controlRegion .currentNode value) s r es t) :
    (r = .ok () ∧ es = [⟨pointerWrite rt value,none,true⟩]) ∨
      ∃ e b, r = .error (.service e) ∧ es = [⟨pointerWrite rt value,some e,b⟩] := by
  obtain ⟨-,⟨a,n,hr,he,-⟩ | ⟨e,b,n,hr,he,-⟩⟩ := call_cases h
  · exact Or.inl ⟨hr,he⟩
  · exact Or.inr ⟨e,b,hr,he⟩

theorem storedPointer_write (env : Env) (rt : Runtime) (value : Option Pointer) (w : World) :
    storedPointer rt (env.effect (pointerWrite rt value) w) = decodePointer (encodePointer value) := by
  simp [storedPointer,pointerWrite,Env.effect,World.setParameter]

/-- Where only the pointer is written, every other parameter is kept. -/
theorem replay_parameter (env : Env) (rt : Runtime)
    (hes : ∀ e ∈ es, e.call.keepsParameters = true ∨ ∃ value, e.call = pointerWrite rt value) (w : World)
    {name : ParamName} (hname : name ≠ .currentNode) :
    (env.service.replay w es).parameters rt.controlRegion name.path =
      w.parameters rt.controlRegion name.path := by
  have hpath : name.path ≠ ParamName.currentNode.path := by
    cases name <;> first | exact absurd rfl hname | decide
  refine Service.replay_rel
    (R := fun v w : World => w.parameters rt.controlRegion name.path = v.parameters rt.controlRegion name.path)
    (fun _ => rfl) (fun _ _ _ h k => k.trans h)
    (Q := fun c => c.keepsParameters = true ∨ ∃ value, c = pointerWrite rt value) ?_ hes w
  rintro c v (hc | ⟨value,rfl⟩)
  · exact congrFun (congrFun (env.effect_parameters hc v) _) _
  · simp [Env.service,Env.effect,pointerWrite,World.setParameter,hpath]

end

end ShardVPN
