import ShardVPN.Request.Entry

/-! # The parameters of a request to go up

The configured default is merged in by truthiness before a parameter is checked. A
field is judged as it was sent iff it is absent, null or truthy: the empty text, zero,
false and the empty containers are replaced by the default.
-/
namespace ShardVPN.Handler
open Effect Time Ec2ops Settings

/-- `body.get(key)`. -/
def field (body : Dict) (key : Text) : Json := (body.get key).getD .null

/-- The read of a configured default. -/
def defaultRead (rt : Runtime) (name : ParamName) : Call := .getParameter rt.controlRegion name.path false

/-- Reads of one of the two defaults. -/
def readsDefault : Call → Bool
  | .getParameter _ name false =>
    decide (name = ParamName.defaultRegion.path) || decide (name = ParamName.defaultTtl.path)
  | _ => false

/-- The merge with the default keeps what was sent. -/
def Kept (value : Json) : Prop := value = .null ∨ value.truthy = true

/-- The value that is checked. -/
def merged (value : Json) (default : Text) : Json := if value.truthy then value else .str default

/-- A region was sent that is none of the valid ones. -/
def BadRegion (regions : List Text) (value : Json) : Prop := value ≠ .null ∧ regionOf value regions = none

/-- A TTL was sent that is rejected. -/
def BadTtl (now : DateTime) (value : Json) : Prop :=
  value ≠ .null ∧ ∃ e, Ttl.parseTtl value now = .error e ∧ e.isValueError = true

/-- The merge keeps the region that was sent, and the TTL where the region is valid. -/
def KeepsFields (regions : List Text) (default : Text) (body : Dict) : Prop :=
  Kept (field body (text "region")) ∧
    (regionOf (merged (field body (text "region")) default) regions ≠ none → Kept (field body (text "ttl")))

/-- No tracked node answers the request, and the checks begin in a later state. -/
inductive Checking (rt : Runtime) (env : Env) (s : State) : State → Prop
  | untracked {u : State} {xs : List Event} :
      Steps env.service (readPointer rt.controlRegion .currentNode) s (.ok none) xs u → Checking rt env s u
  | absent {p : Pointer} {d : Dict} {v u : State} {xs ys : List Event} :
      Steps env.service (readPointer rt.controlRegion .currentNode) s (.ok (some p)) xs v →
      Steps env.service (describe rt (some p)) v (.ok d) ys u →
      d.get (text "state") = some (.str (text "absent")) → Checking rt env s u

/-- The clock when the TTL is checked. -/
def expiryClock (u : State) : DateTime := (u.proc.clock u.proc.ticks).toDateTime

/-- A bad parameter is answered by a refusal, and a default is used only for a missing one. -/
structure Validates (rt : Runtime) (regions : List Text) (now : DateTime) (body : Dict) (response : Response)
    (es : List Event) : Prop where
  refused : BadRegion regions (field body (text "region")) ∨ BadTtl now (field body (text "ttl")) →
    response.statusCode = 400 ∧ ∀ e ∈ es, e.call.runs = false
  region_missing : (∃ e ∈ es, e.call = defaultRead rt .defaultRegion) → field body (text "region") = .null
  ttl_missing : (∃ e ∈ es, e.call = defaultRead rt .defaultTtl) → field body (text "ttl") = .null

section
variable {rt : Runtime} {env : Env} {s t : State} {es : List Event}

theorem requested_filter (body : Dict) (key : Text) :
    (body.get key).filter Json.truthy = if (field body key).truthy then some (field body key) else none := by
  unfold field
  cases body.get key with
  | none => rfl
  | some value =>
    change _ = if value.truthy then some value else none
    rfl

/-- A truthy field is taken as it is, any other one is replaced by what is configured. -/
theorem requested_steps {body : Dict} {key : Text} {name : ParamName} {r : Except Exn Json}
    (h : Steps env.service (requested rt body key name) s r es t) :
    (field body key).truthy = true ∧ r = .ok (field body key) ∧ es = [] ∧ t = s ∨
      (field body key).truthy = false ∧
        r = ((env.service.reply s.trace s.world (defaultRead rt name)).map Json.str).mapError Exn.service ∧
        es = [env.service.event s.trace s.world (defaultRead rt name)] ∧ t.world = s.world ∧ t.proc = s.proc := by
  unfold requested at h
  rw [requested_filter] at h
  cases hv : (field body key).truthy with
  | true =>
    rw [hv] at h
    obtain ⟨hr,he,ht⟩ := Steps.pure_iff.mp h
    exact Or.inl ⟨rfl,hr,he,ht⟩
  | false =>
    rw [hv] at h
    right
    rcases h.bind_cases with ⟨raw,u,xs,ys,h1,h2,rfl⟩ | ⟨x,h1,rfl⟩
    · obtain ⟨rfl,rfl,rfl⟩ := Steps.pure_iff.mp h2
      obtain ⟨hp,hraw,-⟩ := h1.call_reply
      have hevent := h1.call_event
      subst hevent
      refine ⟨rfl,?_,List.append_nil _,world_of_event h1 ?_,hp⟩
      · change (Except.ok (Json.str raw) : Except Exn Json) =
          ((env.service.reply s.trace s.world (.getParameter rt.controlRegion name.path false)).map Json.str).mapError _
        rw [ok_of_mapError hraw]
        rfl
      · intro w
        rw [Service.event_call]
        rfl
    · obtain ⟨hp,hraw,-⟩ := h1.call_reply
      have hevent := h1.call_event
      subst hevent
      refine ⟨rfl,?_,rfl,world_of_event h1 ?_,hp⟩
      · obtain ⟨e,he,rfl⟩ := error_of_mapError hraw
        change (Except.error _ : Except Exn Json) =
          ((env.service.reply s.trace s.world (.getParameter rt.controlRegion name.path false)).map Json.str).mapError _
        rw [he]
        rfl
      · intro w
        rw [Service.event_call]
        rfl

/-! ## What comes after the checks -/

theorem defaultRead_reads (rt : Runtime) {name : ParamName} (h : name = .defaultRegion ∨ name = .defaultTtl) :
    readsDefault (defaultRead rt name) = true := by
  rcases h with rfl | rfl
  · rfl
  · rfl

theorem describing_keeps : Describing (fun c => readsDefault c = false) where
  secret _ _ := rfl
  api _ _ := rfl
  metric _ _ := rfl
  scan _ := rfl

theorem prepareLaunch_keeps (region : Text) : Only (fun c => readsDefault c = false) (prepareLaunch rt region) := by
  refine .bind (.call rfl) fun _ => .bind (.call rfl) fun _ => .bind ?_ fun _ => .pure _
  refine .bind (.bind (.call rfl) fun vpcs => ?_) fun vpcId => .bind (.call rfl) fun existing => ?_
  · split
    · exact .throw _
    · exact .pure _
  · split
    · split
      · exact .throw _
      · exact .pure _
    · exact .call rfl

theorem upRegion_keeps (region expiresAt : Text) (now : DateTime) :
    Only (fun c => readsDefault c = false) (upRegion rt region now expiresAt) := by
  refine .bind (.bind (.call rfl) fun _ => .pure _) fun found => ?_
  cases found with
  | nil =>
    refine .bind (.bind .getProc fun _ => .bind (.setProc _) fun _ => .pure _) fun suffix => ?_
    refine .bind (prepareLaunch_keeps region) fun prepared => ?_
    refine .bind (.bind describing_keeps.tailscaleToken fun _ => .bind (ofOption_only _ _) fun _ =>
      .bind (callApi_only rfl) fun _ => ofExcept_only _) fun authkey => ?_
    refine .bind (ofExcept_only _) fun userData => .bind (ofExcept_only _) fun launchedAt => ?_
    exact .bind (.call rfl) fun instanceId => .bind (.call rfl) fun _ => .pure _
  | cons first rest => exact .bind (.call rfl) fun _ => .bind (describing_keeps.describe _) fun _ => .pure _

/-! ## The checks -/

/-- How the checks run once the regions are listed and the region is as it was sent. -/
inductive Checks (rt : Runtime) (regions : List Text) (default : Text) (now : DateTime) (body : Dict) :
    Except Exn Response → List Event → Prop
  | unknown {es : List Event} : regionOf (merged (field body (text "region")) default) regions = none →
      (∀ e ∈ es, e.call.reads = true ∧ e.call ≠ defaultRead rt .defaultTtl) →
      Checks rt regions default now body (.ok (unknownRegion regions)) es
  | defaulted {r : Except Exn Response} {es : List Event} :
      regionOf (merged (field body (text "region")) default) regions ≠ none →
      (field body (text "ttl")).truthy = false → (∃ e ∈ es, e.call = defaultRead rt .defaultTtl) →
      Checks rt regions default now body r es
  | malformed {es : List Event} : regionOf (merged (field body (text "region")) default) regions ≠ none →
      (field body (text "ttl")).truthy = true → (∀ e ∈ es, e.call.reads = true ∧ e.call ≠ defaultRead rt .defaultTtl) →
      Checks rt regions default now body (.ok (failure 400 (text "malformed ttl"))) es
  | accepted {r : Except Exn Response} {es : List Event} :
      regionOf (merged (field body (text "region")) default) regions ≠ none →
      (field body (text "ttl")).truthy = true → ¬BadTtl now (field body (text "ttl")) →
      (∀ e ∈ es, e.call ≠ defaultRead rt .defaultTtl) → Checks rt regions default now body r es

theorem defaultReads_ne (rt : Runtime) : defaultRead rt .defaultTtl ≠ defaultRead rt .defaultRegion := by
  intro h
  have hpath : ParamName.defaultTtl.path = ParamName.defaultRegion.path := (Call.getParameter.inj h).2.1
  revert hpath
  decide

theorem ne_defaultRead {c : Call} (h : readsDefault c = false) {name : ParamName}
    (hname : name = .defaultRegion ∨ name = .defaultTtl) : c ≠ defaultRead rt name := by
  rintro rfl
  rw [defaultRead_reads rt hname] at h
  cases h

theorem requestedExpiry_steps {body : Dict} {now : DateTime} {r : Except Exn Text}
    (h : Steps env.service (requestedExpiry rt body now) s r es t) :
    (field body (text "ttl")).truthy = true ∧ r = Ttl.parseTtl (field body (text "ttl")) now ∧ es = [] ∨
      (field body (text "ttl")).truthy = false ∧
        es = [env.service.event s.trace s.world (defaultRead rt .defaultTtl)] := by
  rcases h.bind_cases with ⟨ttl,u,xs,ys,h1,h2,rfl⟩ | ⟨x,h1,rfl⟩
  · obtain ⟨hr,rfl,-⟩ := ofExcept_cases h2
    rw [List.append_nil]
    rcases requested_steps h1 with ⟨htruthy,hv,rfl,-⟩ | ⟨hfalsy,-,rfl,-⟩
    · obtain rfl := Except.ok.inj hv
      exact Or.inl ⟨htruthy,hr,rfl⟩
    · exact Or.inr ⟨hfalsy,rfl⟩
  · rcases requested_steps h1 with ⟨_,hv,-⟩ | ⟨hfalsy,-,rfl,-⟩
    · cases hv
    · exact Or.inr ⟨hfalsy,rfl⟩

/-- The request once its region is settled. -/
def upExpiry (rt : Runtime) (body : Dict) (region : Text) : Program Exn Response := do
  let now ← Program.now
  match ← (requestedExpiry rt body now.toDateTime).attempt with
  | .error e => if e.isValueError then pure (failure 400 (text "malformed ttl")) else Action.throw e
  | .ok expiresAt => upRegion rt region now.toDateTime expiresAt

/-- The check of the TTL reads the default, refuses what was sent, or accepts it. -/
theorem upExpiry_checks {body : Dict} {region : Text} {r : Except Exn Response}
    (h : Steps env.service (upExpiry rt body region) s r es t) :
    (∀ e ∈ es, e.call ≠ defaultRead rt .defaultRegion) ∧
    ((field body (text "ttl")).truthy = false ∧ (∃ e ∈ es, e.call = defaultRead rt .defaultTtl) ∨
      (field body (text "ttl")).truthy = true ∧ r = .ok (failure 400 (text "malformed ttl")) ∧ es = [] ∨
      (field body (text "ttl")).truthy = true ∧ ¬BadTtl (expiryClock s) (field body (text "ttl")) ∧
        ∀ e ∈ es, e.call ≠ defaultRead rt .defaultTtl) := by
  rcases h.bind_cases with ⟨now,u,xs,ys,h1,h2,rfl⟩ | ⟨x,h1,-⟩
  · obtain ⟨hnow,rfl,rfl⟩ := now_reply h1
    obtain rfl := Except.ok.inj hnow
    rw [List.nil_append]
    obtain ⟨v,w,zs,ws,h3,h4,rfl⟩ := h2.bind_attempt
    have hrest : ∀ e ∈ ws, readsDefault e.call = false := by
      cases v with
      | ok expiresAt => exact upRegion_keeps _ _ _ h4
      | error e =>
        dsimp only at h4
        split at h4
        · obtain ⟨-,rfl,-⟩ := Steps.pure_iff.mp h4
          simp
        · obtain ⟨-,rfl,-⟩ := Steps.throw_iff.mp h4
          simp
    have hregion : ∀ e ∈ ws, e.call ≠ defaultRead rt .defaultRegion :=
      fun e he => ne_defaultRead (hrest e he) (Or.inl rfl)
    rcases requestedExpiry_steps h3 with ⟨htruthy,rfl,rfl⟩ | ⟨hfalsy,rfl⟩
    · rw [List.nil_append]
      refine ⟨hregion,?_⟩
      right
      by_cases hbad : BadTtl (expiryClock s) (field body (text "ttl"))
      · obtain ⟨-,x,hx,hvalue⟩ := hbad
        left
        unfold expiryClock at hx
        rw [hx] at h4
        dsimp only at h4
        rw [if_pos hvalue] at h4
        obtain ⟨rfl,rfl,-⟩ := Steps.pure_iff.mp h4
        exact ⟨htruthy,rfl,rfl⟩
      · exact Or.inr ⟨htruthy,hbad,fun e he => ne_defaultRead (hrest e he) (Or.inr rfl)⟩
    · refine ⟨?_,Or.inl ⟨hfalsy,_,List.mem_append_left _ (List.mem_singleton_self _),Service.event_call _ _ _⟩⟩
      intro e he
      rcases List.mem_append.mp he with he | he
      · rw [List.mem_singleton.mp he,Service.event_call]
        exact defaultReads_ne rt
      · exact hregion e he
  · cases (now_reply h1).1

/-- The request once its region is known. -/
def upSettled (rt : Runtime) (body : Dict) (regions : List Text) (value : Json) : Program Exn Response :=
  match regionOf value regions with
  | none => pure (unknownRegion regions)
  | some region => upExpiry rt body region

theorem upUntracked_eq (body : Dict) : upUntracked rt body = validRegions rt.controlRegion >>= fun regions =>
    requested rt body (text "region") .defaultRegion >>= upSettled rt body regions := rfl

theorem expiryClock_eq {u v : State} (h : v.proc = u.proc) : expiryClock v = expiryClock u := by
  unfold expiryClock
  rw [h]

theorem upSettled_checks {body : Dict} {regions : List Text} {default : Text} {xs : List Event}
    (hxs : ∀ e ∈ xs, e.call.reads = true ∧ e.call ≠ defaultRead rt .defaultTtl) {r : Except Exn Response}
    (h : Steps env.service (upSettled rt body regions (merged (field body (text "region")) default)) s r es t) :
    Checks rt regions default (expiryClock s) body r (xs ++ es) ∧ ∀ e ∈ es, e.call ≠ defaultRead rt .defaultRegion := by
  unfold upSettled at h
  cases hregion : regionOf (merged (field body (text "region")) default) regions with
  | none =>
    rw [hregion] at h
    obtain ⟨rfl,rfl,-⟩ := Steps.pure_iff.mp h
    rw [List.append_nil]
    exact ⟨.unknown hregion hxs,by simp⟩
  | some region =>
    rw [hregion] at h
    have hknown : regionOf (merged (field body (text "region")) default) regions ≠ none := by simp [hregion]
    obtain ⟨hkept,⟨hfalsy,e,he,hcall⟩ | ⟨htruthy,rfl,rfl⟩ | ⟨htruthy,hgood,hes⟩⟩ := upExpiry_checks h
    · exact ⟨.defaulted hknown hfalsy ⟨e,List.mem_append_right xs he,hcall⟩,hkept⟩
    · rw [List.append_nil]
      exact ⟨.malformed hknown htruthy hxs,hkept⟩
    · refine ⟨.accepted hknown htruthy hgood ?_,hkept⟩
      intro e he
      rcases List.mem_append.mp he with he | he
      · exact (hxs e he).2
      · exact hes e he

/-- The region is replaced by its default or checked as it was sent. -/
theorem upRequested_checks {body : Dict} {regions : List Text} {default : Text} {xs : List Event}
    {r : Except Exn Response}
    (hxs : ∀ e ∈ xs, e.call.reads = true ∧ e.call ≠ defaultRead rt .defaultTtl ∧
      e.call ≠ defaultRead rt .defaultRegion)
    (hdefault : field body (text "region") = .null →
      env.service.reply s.trace s.world (defaultRead rt .defaultRegion) = .ok default)
    (h : Steps env.service (requested rt body (text "region") .defaultRegion >>= upSettled rt body regions) s r es t) :
    ¬Kept (field body (text "region")) ∧ (∃ e ∈ es, e.call = defaultRead rt .defaultRegion) ∨
      Kept (field body (text "region")) ∧ Checks rt regions default (expiryClock s) body r (xs ++ es) ∧
        ((field body (text "region")).truthy = true → ∀ e ∈ xs ++ es, e.call ≠ defaultRead rt .defaultRegion) := by
  have hlisted : ∀ e ∈ xs, e.call.reads = true ∧ e.call ≠ defaultRead rt .defaultTtl :=
    fun e he => ⟨(hxs e he).1,(hxs e he).2.1⟩
  have hlost : (field body (text "region")).truthy = false → field body (text "region") ≠ .null →
      ¬Kept (field body (text "region")) := fun hfalsy hne hkept => hkept.elim hne (by simp [hfalsy])
  rcases h.bind_cases with ⟨value,v,ys,zs,h1,h2,rfl⟩ | ⟨x,h1,rfl⟩
  · rcases requested_steps h1 with ⟨htruthy,hvalue,rfl,rfl⟩ | ⟨hfalsy,hvalue,rfl,-,hproc⟩
    · obtain rfl : value = merged (field body (text "region")) default := by
        unfold merged
        rw [if_pos htruthy,Except.ok.inj hvalue]
      obtain ⟨hchecks,hkept⟩ := upSettled_checks hlisted h2
      refine Or.inr ⟨Or.inr htruthy,hchecks,fun _ e he => ?_⟩
      rcases List.mem_append.mp he with he | he
      · exact (hxs e he).2.2
      · exact hkept e he
    · by_cases hnull : field body (text "region") = .null
      · rw [hdefault hnull] at hvalue
        obtain rfl : value = merged (field body (text "region")) default := by
          unfold merged
          rw [if_neg (by simp [hfalsy])]
          exact Except.ok.inj hvalue
        have hreads : ∀ e ∈ xs ++ [env.service.event s.trace s.world (defaultRead rt .defaultRegion)],
            e.call.reads = true ∧ e.call ≠ defaultRead rt .defaultTtl := by
          intro e he
          rcases List.mem_append.mp he with he | he
          · exact hlisted e he
          · rw [List.mem_singleton.mp he,Service.event_call]
            exact ⟨rfl,(defaultReads_ne rt).symm⟩
        have hchecks := (upSettled_checks hreads h2).1
        rw [expiryClock_eq hproc,List.append_assoc] at hchecks
        refine Or.inr ⟨Or.inl hnull,hchecks,fun htruthy => ?_⟩
        rw [hfalsy] at htruthy
        cases htruthy
      · exact Or.inl ⟨hlost hfalsy hnull,_,List.mem_append_left _ (List.mem_singleton_self _),
          Service.event_call _ _ _⟩
  · rcases requested_steps h1 with ⟨-,hvalue,-⟩ | ⟨hfalsy,hvalue,rfl,-,-⟩
    · cases hvalue
    · by_cases hnull : field body (text "region") = .null
      · rw [hdefault hnull] at hvalue
        cases hvalue
      · exact Or.inl ⟨hlost hfalsy hnull,_,List.mem_singleton_self _,Service.event_call _ _ _⟩

/-- Once the regions are listed, the region is replaced by its default or checked as it was sent. -/
theorem upUntracked_checks {body : Dict} {regions : List Text} {default : Text} {r : Except Exn Response}
    (hlist : env.service.reply s.trace s.world (.describeRegions rt.controlRegion) = .ok regions)
    (hdefault : field body (text "region") = .null →
      env.service.reply s.trace s.world (defaultRead rt .defaultRegion) = .ok default)
    (h : Steps env.service (upUntracked rt body) s r es t) :
    ¬Kept (field body (text "region")) ∧ (∃ e ∈ es, e.call = defaultRead rt .defaultRegion) ∨
      Kept (field body (text "region")) ∧ Checks rt regions default (expiryClock s) body r es ∧
        ((field body (text "region")).truthy = true → ∀ e ∈ es, e.call ≠ defaultRead rt .defaultRegion) := by
  rw [upUntracked_eq] at h
  rcases h.bind_cases with ⟨regs,u,xs,ys,k₁,h₁,rfl⟩ | ⟨x,k₁,-⟩
  · obtain ⟨hproc,hregs,-⟩ := k₁.call_reply
    obtain rfl : regs = regions := Except.ok.inj ((ok_of_mapError hregs).symm.trans hlist)
    obtain rfl := k₁.call_event
    have hworld : u.world = s.world := world_of_event k₁ fun w => by
      rw [Service.event_call]
      rfl
    have hlisted : ∀ e ∈ [env.service.event s.trace s.world (.describeRegions rt.controlRegion)],
        e.call.reads = true ∧ e.call ≠ defaultRead rt .defaultTtl ∧ e.call ≠ defaultRead rt .defaultRegion := by
      intro e he
      rw [List.mem_singleton.mp he,Service.event_call]
      exact ⟨rfl,by rintro ⟨⟩,by rintro ⟨⟩⟩
    have hreply : env.service.reply u.trace u.world (defaultRead rt .defaultRegion) =
        env.service.reply s.trace s.world (defaultRead rt .defaultRegion) := by
      rw [hworld,k₁.2]
      exact env.service.reply_append _ fun e he => (hlisted e he).2.2
    rw [← expiryClock_eq hproc]
    rcases upRequested_checks hlisted (fun hnull => hreply.trans (hdefault hnull)) h₁ with
      ⟨hlost,e,he,hcall⟩ | hchecked
    · exact Or.inl ⟨hlost,e,List.mem_append_right _ he,hcall⟩
    · exact Or.inr hchecked
  · obtain ⟨-,hregs,-⟩ := k₁.call_reply
    obtain ⟨e,he,-⟩ := error_of_mapError hregs
    cases hlist.symm.trans he

/-- Where no tracked node answers, the request is the request without one, after some calls. -/
theorem Checking.steps {u : State} (h : Checking rt env s u) {body : Dict} {r : Except Exn Response}
    (hs : Steps env.service (up rt body) s r es t) : ∃ xs ys, es = xs ++ ys ∧
      (∀ e ∈ xs, readsDefault e.call = false ∧ e.call.runs = false) ∧
      Steps env.service (upUntracked rt body) u r ys t := by
  have hpointer : ∀ {p xs v}, Steps env.service (readPointer rt.controlRegion .currentNode) s (.ok p) xs v →
      ∀ e ∈ xs, readsDefault e.call = false ∧ e.call.runs = false := by
    intro p xs v hread e he
    obtain ⟨-,⟨error,effective,rfl,-⟩,-⟩ := readPointer_cases hread
    rw [List.mem_singleton.mp he]
    exact ⟨rfl,rfl⟩
  cases h with
  | untracked hread =>
    rcases hs.bind_cases with ⟨p,v,xs,ys,h1,h2,rfl⟩ | ⟨x,h1,-⟩
    · cases h1.1.symm.trans hread.1
      exact ⟨xs,ys,rfl,hpointer h1,h2⟩
    · cases h1.1.symm.trans hread.1
  | absent hread hdescribe habsent =>
    rcases hs.bind_cases with ⟨p,v,xs,ys,h1,h2,rfl⟩ | ⟨x,h1,-⟩
    · cases h1.1.symm.trans hread.1
      rcases h2.bind_cases with ⟨d,w,zs,ws,h3,h4,rfl⟩ | ⟨x,h3,-⟩
      · cases h3.1.symm.trans hdescribe.1
        rw [if_neg (not_not.mpr habsent)] at h4
        refine ⟨xs ++ zs,ws,(List.append_assoc _ _ _).symm,?_,h4⟩
        intro e he
        rcases List.mem_append.mp he with he | he
        · exact hpointer h1 e he
        · refine ⟨describing_keeps.describe _ h3 e he,?_⟩
          have hquiet := (describe_frugal _).quiet h3 e he
          generalize e.call = c at hquiet
          cases c <;> first | rfl | cases hquiet
      · cases h3.1.symm.trans hdescribe.1
    · cases h1.1.symm.trans hread.1

/-! ## When the checks are faithful -/

/-- Checks that read no default but for a missing region are faithful iff the TTL is kept. -/
theorem Checks.validates_iff {regions : List Text} {default : Text} {now : DateTime} {body : Dict}
    {requestId : Text} {r : Except Exn Response} {xs ys : List Event} (h : Checks rt regions default now body r ys)
    (hxs : ∀ e ∈ xs, readsDefault e.call = false ∧ e.call.runs = false)
    (hkept : Kept (field body (text "region")))
    (hregion : (field body (text "region")).truthy = true → ∀ e ∈ ys, e.call ≠ defaultRead rt .defaultRegion) :
    Validates rt regions now body (answerOf requestId r) (xs ++ ys) ↔
      (regionOf (merged (field body (text "region")) default) regions ≠ none → Kept (field body (text "ttl"))) := by
  have hregionMissing : (∃ e ∈ xs ++ ys, e.call = defaultRead rt .defaultRegion) →
      field body (text "region") = .null := by
    rintro ⟨e,he,hcall⟩
    rcases List.mem_append.mp he with he | he
    · exact absurd hcall (ne_defaultRead (hxs e he).1 (Or.inl rfl))
    · exact hkept.resolve_right fun htruthy => hregion htruthy e he hcall
  have hnoTtl : (∀ e ∈ ys, e.call ≠ defaultRead rt .defaultTtl) →
      ¬∃ e ∈ xs ++ ys, e.call = defaultRead rt .defaultTtl := by
    rintro hys ⟨e,he,hcall⟩
    rcases List.mem_append.mp he with he | he
    · exact ne_defaultRead (hxs e he).1 (Or.inr rfl) hcall
    · exact hys e he hcall
  have hnoRun : (∀ e ∈ ys, e.call.reads = true) → ∀ e ∈ xs ++ ys, e.call.runs = false := by
    intro hys e he
    rcases List.mem_append.mp he with he | he
    · exact (hxs e he).2
    · have hreads := hys e he
      generalize e.call = c at hreads
      cases c <;> first | rfl | cases hreads
  have hgoodRegion : regionOf (merged (field body (text "region")) default) regions ≠ none →
      ¬BadRegion regions (field body (text "region")) := by
    rintro hknown ⟨hne,hnone⟩
    apply hknown
    unfold merged
    rw [if_pos (hkept.resolve_left hne)]
    exact hnone
  cases h with
  | unknown hnone hys =>
    refine iff_of_true ⟨fun _ => ⟨rfl,hnoRun fun e he => (hys e he).1⟩,hregionMissing,fun h => ?_⟩
      (fun hknown => absurd hnone hknown)
    exact absurd h (hnoTtl fun e he => (hys e he).2)
  | malformed hknown htruthy hys =>
    refine iff_of_true ⟨fun _ => ⟨rfl,hnoRun fun e he => (hys e he).1⟩,hregionMissing,fun h => ?_⟩
      (fun _ => Or.inr htruthy)
    exact absurd h (hnoTtl fun e he => (hys e he).2)
  | accepted hknown htruthy hgood hys =>
    refine iff_of_true ⟨?_,hregionMissing,fun h => absurd h (hnoTtl hys)⟩ (fun _ => Or.inr htruthy)
    rintro (hbad | hbad)
    · exact absurd hbad (hgoodRegion hknown)
    · exact absurd hbad hgood
  | defaulted hknown hfalsy hread =>
    constructor
    · rintro ⟨-,-,hmissing⟩ -
      obtain ⟨e,he,hcall⟩ := hread
      exact Or.inl (hmissing ⟨e,List.mem_append_right xs he,hcall⟩)
    · intro hkeptTtl
      have hnull : field body (text "ttl") = .null := (hkeptTtl hknown).resolve_right (by simp [hfalsy])
      refine ⟨?_,hregionMissing,fun _ => hnull⟩
      rintro (hbad | ⟨hne,-⟩)
      · exact absurd hbad (hgoodRegion hknown)
      · exact absurd hnull hne

/-- Bad parameters are refused and defaults used only for missing ones iff no field holds a value that
is falsy without being null. -/
theorem up_validates_iff {u : State} {requestId : Text} {body : Dict} {regions : List Text} {default : Text}
    (hup : asksUp body) (hchecking : Checking rt env s u)
    (hlist : env.service.reply u.trace u.world (.describeRegions rt.controlRegion) = .ok regions)
    (hdefault : field body (text "region") = .null →
      env.service.reply u.trace u.world (defaultRead rt .defaultRegion) = .ok default) :
    ∃ response, ((dispatch rt requestId body).exec env.service s).1 = .ok response ∧
      (Validates rt regions (expiryClock u) body response ((dispatch rt requestId body).events env.service s) ↔
        KeepsFields regions default body) := by
  obtain ⟨r,hr,h⟩ := dispatch_cases ((dispatch rt requestId body).steps_exec env.service s)
  rw [perform_up hup] at h
  obtain ⟨xs,ys,hes,hxs,hys⟩ := hchecking.steps h
  refine ⟨_,hr,?_⟩
  rw [hes]
  rcases upUntracked_checks hlist hdefault hys with ⟨hreplaced,e,he,hcall⟩ | ⟨hkept,hchecks,hregion⟩
  · refine iff_of_false ?_ (fun h => hreplaced h.1)
    rintro ⟨-,hmissing,-⟩
    exact hreplaced (Or.inl (hmissing ⟨e,List.mem_append_right xs he,hcall⟩))
  · rw [hchecks.validates_iff hxs hkept hregion]
    exact ⟨fun h => ⟨hkept,h⟩,fun h => h.2⟩

end

/-! ## The plain account -/

/-- The state of the plain account once the pointer is read. -/
def plainChecks : State :=
  ((readPointer Plain.control .currentNode).exec Plain.clean.service (Plain.state Plain.empty)).2

theorem checking_plain : Checking Plain.runtime Plain.clean (Plain.state Plain.empty) plainChecks := by
  have hread : ((readPointer Plain.control .currentNode).exec Plain.clean.service (Plain.state Plain.empty)).1 =
      .ok none := by decide +kernel
  have hsteps := (readPointer Plain.control .currentNode).steps_exec Plain.clean.service (Plain.state Plain.empty)
  rw [hread] at hsteps
  exact .untracked hsteps

/-- A request for a node that expires in two days. -/
def twoDays : Dict := [(text "action",.str (text "up")),(text "ttl",.str (text "48h"))]

theorem up_validates_plain : ∃ response,
    ((dispatch Plain.runtime [] twoDays).exec Plain.clean.service (Plain.state Plain.empty)).1 = .ok response ∧
      (Validates Plain.runtime [Plain.region0,Plain.region1] (expiryClock plainChecks) twoDays response
        ((dispatch Plain.runtime [] twoDays).events Plain.clean.service (Plain.state Plain.empty)) ↔
        KeepsFields [Plain.region0,Plain.region1] Plain.region0 twoDays) :=
  up_validates_iff rfl checking_plain rfl (fun _ => rfl)

/-- A request with an empty TTL. -/
def emptyTtl : Dict := [(text "action",.str (text "up")),(text "ttl",.str [])]

/-- The empty TTL is replaced by the default, and a node is launched that never expires. -/
theorem up_launches_over_empty_ttl :
    Checking Plain.runtime Plain.clean (Plain.state Plain.empty) plainChecks ∧ asksUp emptyTtl ∧
      BadTtl (expiryClock plainChecks) (field emptyTtl (text "ttl")) ∧
      (((dispatch Plain.runtime [] emptyTtl).exec Plain.clean.service (Plain.state Plain.empty)).1.map
        Response.statusCode = .ok 200) ∧
      ∃ e ∈ (dispatch Plain.runtime [] emptyTtl).events Plain.clean.service (Plain.state Plain.empty),
        e.call.runs = true := by
  refine ⟨checking_plain,rfl,⟨by decide,_,rfl,rfl⟩,?_⟩
  decide +kernel

end ShardVPN.Handler
