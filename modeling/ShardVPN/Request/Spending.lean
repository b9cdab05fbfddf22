import ShardVPN.Request.Minting
import ShardVPN.System.Plain
import ShardVPN.Time.RoundTrip

/-! # What `up` spends, and when

An auth key is minted only after every other part of a launch has succeeded, and the
launch is the very next call.
-/
namespace ShardVPN.Handler
open Effect Time Ec2ops Settings

/-- How a request spends; `C` is what it needs to have succeeded before. -/
inductive Spending (env : Env) (before : List Event) (C : Plan → List Event → Prop) :
    Except Exn Response → List Event → Prop
  | idle {r : Except Exn Response} {es : List Event} : (∀ e ∈ es, spends e.call = false) →
      (∀ response, r = .ok response → response.statusCode = 400 → ∀ e ∈ es, e.call.reads = true) →
      Spending env before C r es
  | unanswered {plan : Plan} {x : Exn} {e : Event} {xs : List Event} : C plan xs →
      (∀ e ∈ xs, spends e.call = false) → mints e.call = true → (∀ key, ¬Answered env (before ++ xs) e key) →
      Spending env before C (.error x) (xs ++ [e])
  | launched {plan : Plan} {key : Json} {r : Except Exn Response} {e f : Event} {xs ys : List Event} : C plan xs →
      (∀ e ∈ xs, spends e.call = false) → mints e.call = true → Answered env (before ++ xs) e key →
      Launches plan key f → (∀ e ∈ ys, spends e.call = false) →
      (∀ response, r = .ok response → response.statusCode ≠ 400) →
      Spending env before C r (xs ++ e :: f :: ys)

/-- Calls without spending before a run are part of it. -/
theorem Spending.prepend {env : Env} {before : List Event} {C C' : Plan → List Event → Prop}
    {r : Except Exn Response} {xs ys : List Event} (h : Spending env (before ++ xs) C' r ys)
    (hxs : ∀ e ∈ xs, spends e.call = false)
    (hreads : (∀ e ∈ xs, e.call.reads = true) ∨ ∀ response, r = .ok response → response.statusCode ≠ 400)
    (hC : ∀ plan zs, C' plan zs → C plan (xs ++ zs)) : Spending env before C r (xs ++ ys) := by
  have hspends : ∀ {zs : List Event}, (∀ e ∈ zs, spends e.call = false) →
      ∀ e ∈ xs ++ zs, spends e.call = false := by
    intro zs hzs e he
    rcases List.mem_append.mp he with he | he
    · exact hxs e he
    · exact hzs e he
  cases h with
  | idle hys hr =>
    refine .idle (hspends hys) ?_
    intro response hresponse hstatus e he
    rcases hreads with hreads | hreads
    · rcases List.mem_append.mp he with he | he
      · exact hreads e he
      · exact hr response hresponse hstatus e he
    · exact absurd hstatus (hreads response hresponse)
  | unanswered hc hzs hm hn =>
    rw [← List.append_assoc]
    rw [List.append_assoc] at hn
    exact .unanswered (hC _ _ hc) (hspends hzs) hm hn
  | launched hc hzs hm ha hl hws hr =>
    rw [← List.append_assoc]
    rw [List.append_assoc] at ha
    exact .launched (hC _ _ hc) (hspends hzs) hm ha hl hws hr

section
variable {rt : Runtime} {env : Env} {s t : State} {es : List Event}

/-! ## Launching -/

theorem Prepared.mono {w : World} {plan : Plan} {xs ys : List Event} (h : Prepared rt env w plan xs)
    (hsub : ∀ e ∈ xs, e ∈ ys) : Prepared rt env w plan ys where
  ami_read := hsub _ h.ami_read
  ami := h.ami
  type_read := hsub _ h.type_read
  instanceType := h.instanceType
  group := by
    obtain ⟨vpcId,hread,hgroup⟩ := h.group
    exact ⟨vpcId,hsub _ hread,hgroup.imp_right fun hcreated => ⟨hsub _ hcreated.1,hcreated.2⟩⟩

/-- A sequence that spends nothing before its rest stops or leaves the spending to it. -/
theorem Spending.bind {α : Type} {C : Plan → List Event → Prop} {m : Program Exn α}
    {f : α → Program Exn Response} {r : Except Exn Response} (h : Steps env.service (m >>= f) s r es t)
    (hm : Only (fun c => spends c = false) m)
    (hreads : Only (fun c => c.reads = true) m ∨ ∀ response, r = .ok response → response.statusCode ≠ 400)
    (hf : ∀ a u xs ys, Steps env.service m s (.ok a) xs u → Steps env.service (f a) u r ys t →
      Spending env u.trace (fun plan zs => C plan (xs ++ zs)) r ys) : Spending env s.trace C r es := by
  rcases h.bind_cases with ⟨a,u,xs,ys,h1,h2,rfl⟩ | ⟨x,h1,rfl⟩
  · have hrest := hf a u xs ys h1 h2
    rw [h1.2] at hrest
    exact hrest.prepend (hm h1) (hreads.imp_left fun hreads => hreads h1) fun _ _ hc => hc
  · exact .idle (hm h1) (by simp)

theorem tokenHex_reads {X : Type} : Only (fun c => c.reads = true) (Program.tokenHex : Program X Text) :=
  .bind .getProc fun _ => .bind (.setProc _) fun _ => .pure _

theorem launchNode_yields (region expiresAt : Text) (now : DateTime) :
    Yields (fun response => response.statusCode = 200) (launchNode rt region now expiresAt) := by
  unfold launchNode
  refine .bind fun _ => .bind fun _ => .bind fun _ => .bind fun _ => .bind fun _ => .bind fun _ => .bind fun _ => ?_
  exact .pure rfl

theorem renderUserdata_ok {key : Json} {hostname : Text} (hkey : key.truthy = true) (hname : hostname ≠ []) :
    renderUserdata key hostname = .ok ⟨key,hostname⟩ := by
  unfold renderUserdata
  simp [hkey,hname]

theorem rfc3339_clock (now : WallClock) : ∃ launchedAt, Ttl.rfc3339 now.toDateTime = .ok launchedAt := by
  unfold Ttl.rfc3339
  rw [now.rfc3339.1]
  exact ⟨_,rfl⟩

/-- From the answer to the mint on: the next call is the launch. -/
theorem launch_spending {region hostname expiresAt ami instanceType sgId : Text} {now : WallClock} {key : Json}
    {r : Except Exn Response} (hkey : key.truthy = true) (hname : hostname ≠ [])
    (h : Steps env.service (do
      let userData ← Program.ofExcept (renderUserdata key hostname)
      let launchedAt ← Program.ofExcept (Ttl.rfc3339 now.toDateTime)
      let instanceId ← launch region ami instanceType sgId userData (launchTags hostname launchedAt expiresAt)
        (text "shardvpn-" ++ hostname)
      writePointer rt.controlRegion .currentNode (some ⟨.str region,.str instanceId⟩)
      pure (respond 200 (launchDocument region instanceId hostname expiresAt))) s r es t) :
    ∃ e ys, es = e :: ys ∧ Launches ⟨region,ami,instanceType,sgId⟩ key e ∧ ∀ e ∈ ys, spends e.call = false := by
  obtain ⟨launchedAt,hlaunched⟩ := rfc3339_clock now
  rw [renderUserdata_ok hkey hname,hlaunched] at h
  change Steps env.service (launch region ami instanceType sgId ⟨key,hostname⟩
    (launchTags hostname launchedAt expiresAt) (text "shardvpn-" ++ hostname) >>= _) s r es t at h
  have hlaunch : ∀ error effective, Launches ⟨region,ami,instanceType,sgId⟩ key
      ⟨.runInstances region ⟨ami,instanceType,1,1,[sgId],⟨key,hostname⟩,text "shardvpn-" ++ hostname,
        text "terminate",text "required",launchTags hostname launchedAt expiresAt⟩,error,effective⟩ :=
    fun error effective => ⟨_,rfl,rfl,by simp [launchTags],rfl,rfl,rfl,rfl,rfl⟩
  rcases h.bind_cases with ⟨instanceId,u,xs,ys,h1,h2,rfl⟩ | ⟨x,h1,rfl⟩
  · obtain ⟨-,⟨a,n,-,rfl,-⟩ | ⟨e,b,n,ha,-,-⟩⟩ := call_cases h1
    · refine ⟨_,ys,rfl,hlaunch _ _,?_⟩
      exact (Only.bind (.call rfl) fun _ => .pure _ : Only (fun c => spends c = false) _) h2
    · cases ha
  · obtain ⟨-,⟨a,n,ha,-,-⟩ | ⟨e,b,n,-,rfl,-⟩⟩ := call_cases h1
    · cases ha
    · exact ⟨_,[],rfl,hlaunch _ _,by simp⟩

theorem launchNode_spending {region expiresAt : Text} {now : WallClock} {r : Except Exn Response}
    (h : Steps env.service (launchNode rt region now.toDateTime expiresAt) s r es t) :
    Spending env s.trace (fun plan xs => plan.region = region ∧ Prepared rt env s.world plan xs) r es := by
  have hok : ∀ response, r = .ok response → response.statusCode ≠ 400 := by
    rintro response rfl
    rw [launchNode_yields region expiresAt now.toDateTime h]
    decide
  have htokenHex : Only (fun c => spends c = false) (Program.tokenHex : Program Exn Text) :=
    tokenHex_frugal.mono fun _ => frugal_spends
  refine Spending.bind h htokenHex (Or.inr hok) fun suffix s₁ _ _ k₁ h => ?_
  have hw₁ : s₁.world = s.world := by rw [k₁.world,replay_reads env (tokenHex_reads k₁)]
  have hprepare : Only (fun c => spends c = false) (prepareLaunch rt region) :=
    (prepareLaunch_frugal region).mono fun _ => frugal_spends
  refine Spending.bind h hprepare (Or.inr hok) fun prepared s₂ xs₂ _ k₂ h => ?_
  obtain ⟨ami,instanceType,sgId⟩ := prepared
  have hprepared := prepareLaunch_cases k₂
  rw [hw₁] at hprepared
  have hplan : ∀ zs, Prepared rt env s.world ⟨region,ami,instanceType,sgId⟩ (xs₂ ++ zs) := fun zs =>
    hprepared.mono fun _ he => List.mem_append_left zs he
  rcases h.bind_cases with ⟨key,s₃,xs₃,ys₃,k₃,h₃,rfl⟩ | ⟨x,k₃,rfl⟩
  · rcases mintKey_cases k₃ with ⟨-,x,hx⟩ | ⟨xs,e,rfl,hxs,hm,⟨key',hkey,htruthy,ha⟩ | ⟨⟨x,hx⟩,-⟩⟩
    · cases hx
    · obtain rfl := Except.ok.inj hkey
      obtain ⟨f,ys,rfl,hlaunch,hys⟩ := launch_spending htruthy (by simp [text]) h₃
      rw [List.append_assoc]
      exact .launched ⟨rfl,(hplan _).mono fun _ he => List.mem_append_right _ he⟩ hxs hm ha hlaunch hys hok
    · cases hx
  · rcases mintKey_cases k₃ with ⟨hxs,-⟩ | ⟨xs,e,rfl,hxs,hm,⟨key,hx,-⟩ | ⟨-,hn⟩⟩
    · exact .idle hxs (by simp)
    · cases hx
    · exact .unanswered ⟨rfl,(hplan _).mono fun _ he => List.mem_append_right _ he⟩ hxs hm hn

/-! ## The whole request -/

theorem Spending.mono {before : List Event} {C C' : Plan → List Event → Prop} {r : Except Exn Response}
    (h : Spending env before C r es) (hC : ∀ plan xs, C plan xs → C' plan xs) : Spending env before C' r es :=
  Spending.prepend (show Spending env (before ++ []) C r es by rwa [List.append_nil]) (by simp) (Or.inl (by simp)) hC

theorem recoverNode_spending {C : Plan → List Event → Prop} {region : Text} {i : Instance} {r : Except Exn Response}
    (h : Steps env.service (recoverNode rt region i) s r es t) : Spending env s.trace C r es := by
  have hspends : Only (fun c => spends c = false) (recoverNode rt region i) :=
    .bind (.call rfl) fun _ => .bind ((describe_frugal _).mono fun _ => frugal_spends) fun _ => .pure _
  have hyields : Yields (fun response => response.statusCode = 200) (recoverNode rt region i) :=
    .bind fun _ => .bind fun _ => .pure rfl
  refine .idle (hspends h) ?_
  rintro response rfl hstatus
  cases (hyields h).symm.trans hstatus

theorem upRegion_spending {region expiresAt : Text} {now : WallClock} {r : Except Exn Response}
    (h : Steps env.service (upRegion rt region now.toDateTime expiresAt) s r es t) :
    Spending env s.trace (fun plan xs => plan.region = region ∧ ScannedEmpty s.world region xs ∧
      Prepared rt env s.world plan xs) r es := by
  refine Spending.bind h ((findNodes_frugal _).mono fun _ => frugal_spends)
    (Or.inl (.bind (.call rfl) fun _ => .pure _)) fun found u xs _ k h => ?_
  obtain ⟨hw,-,⟨nodes,hnodes,hperm,rfl⟩ | ⟨e,b,hr,-⟩⟩ := findNodes_cases k
  · obtain rfl := Except.ok.inj hnodes
    cases found with
    | nil =>
      refine (launchNode_spending h).mono ?_
      rintro plan zs ⟨hregion,hprepared⟩
      rw [hw] at hprepared
      exact ⟨hregion,⟨List.mem_append_left _ List.mem_cons_self,hperm.symm.eq_nil⟩,
        hprepared.mono fun _ he => List.mem_append_right _ he⟩
    | cons first rest => exact recoverNode_spending h
  · cases hr

theorem requested_reads (body : Dict) (key : Text) (default : ParamName) :
    Only (fun c => c.reads = true) (requested rt body key default) := by
  unfold requested
  split
  · exact .pure _
  · exact .bind (.call rfl) fun _ => .pure _

theorem requestedExpiry_reads (body : Dict) (now : DateTime) :
    Only (fun c => c.reads = true) (requestedExpiry rt body now) :=
  .bind (requested_reads _ _ _) fun _ => ofExcept_only _

theorem requestedExpiry_cases {body : Dict} {now : DateTime} {expiresAt : Text}
    (h : Steps env.service (requestedExpiry rt body now) s (.ok expiresAt) es t) :
    ∃ ttl, requestedValue rt s.world body (text "ttl") .defaultTtl = some ttl ∧
      Ttl.parseTtl ttl now = .ok expiresAt := by
  rcases h.bind_cases with ⟨ttl,u,xs,ys,h1,h2,-⟩ | ⟨x,-,hx⟩
  · exact ⟨ttl,requested_cases h1 rfl,(ofExcept_cases h2).1.symm⟩
  · cases hx

/-- Reads leave the world alone and spend nothing. -/
theorem reads_world {X α : Type} {m : Program X α} (hm : Only (fun c => c.reads = true) m) {r : Except X α}
    (h : Steps env.service m s r es t) : t.world = s.world := by
  rw [h.world,replay_reads env (hm h)]

/-- A sequence that only reads before its rest stops or leaves the spending to it. -/
theorem Spending.bind_reads {α : Type} {C : Plan → List Event → Prop} {m : Program Exn α}
    {f : α → Program Exn Response} {r : Except Exn Response} (h : Steps env.service (m >>= f) s r es t)
    (hm : Only (fun c => c.reads = true) m)
    (hf : ∀ a u xs ys, Steps env.service m s (.ok a) xs u → u.world = s.world → Steps env.service (f a) u r ys t →
      Spending env u.trace (fun plan zs => C plan (xs ++ zs)) r ys) : Spending env s.trace C r es :=
  Spending.bind h (hm.mono fun _ => reads_spends) (Or.inl hm) fun a u xs ys h1 h2 =>
    hf a u xs ys h1 (reads_world hm h1) h2

theorem upUntracked_spending {body : Dict} {r : Except Exn Response}
    (h : Steps env.service (upUntracked rt body) s r es t) :
    Spending env s.trace (Sited rt env body s.world) r es := by
  have hregions : Only (fun c => c.reads = true) (validRegions rt.controlRegion) := .call rfl
  refine Spending.bind_reads h hregions fun regions s₁ xs₁ _ k₁ hw₁ h => ?_
  obtain ⟨-,⟨a,n,ha,rfl,hanswer⟩ | ⟨e,b,n,ha,-,-⟩⟩ := call_cases k₁
  · obtain rfl := Except.ok.inj ha
    obtain rfl := Except.ok.inj hanswer
    refine Spending.bind_reads h (requested_reads _ _ _) fun region s₂ xs₂ _ k₂ hw₂ h => ?_
    cases hregion : regionOf region (env.regionOrder n s.world.regions) with
    | none =>
      rw [hregion] at h
      obtain ⟨-,rfl,-⟩ := Steps.pure_iff.mp h
      exact .idle (by simp) (by simp)
    | some target =>
      rw [hregion] at h
      obtain ⟨rfl,hmem⟩ := regionOf_some hregion
      have hresolves := requested_cases k₂ rfl
      rw [hw₁] at hresolves
      refine Spending.bind_reads h now_only fun now s₃ xs₃ _ k₃ hw₃ h => ?_
      refine Spending.bind_reads h (.attempt (requestedExpiry_reads _ _)) fun v s₄ xs₄ _ k₄ hw₄ h => ?_
      cases v with
      | error e =>
        dsimp only at h
        split at h
        · obtain ⟨-,rfl,-⟩ := Steps.pure_iff.mp h
          exact .idle (by simp) (by simp)
        · obtain ⟨-,rfl,-⟩ := Steps.throw_iff.mp h
          exact .idle (by simp) (by simp)
      | ok expiresAt =>
        obtain ⟨v,hv,k₄⟩ := Steps.attempt_iff.mp k₄
        obtain rfl := Except.ok.inj hv
        obtain ⟨ttl,httl,hparsed⟩ := requestedExpiry_cases k₄
        have hw : s₄.world = s.world := by rw [hw₄,hw₃,hw₂,hw₁]
        rw [hw₃,hw₂,hw₁] at httl
        refine (upRegion_spending h).mono ?_
        rintro plan zs ⟨rfl,⟨hscan,hempty⟩,hprepared⟩
        rw [hw] at hempty hprepared
        exact
          { regions_read := by simp
            resolves := hresolves
            valid := (env.regionOrder_perm _ _).mem_iff.mp hmem
            expiry := ⟨ttl,_,_,httl,hparsed⟩
            scanned := ⟨by simp [hscan],hempty⟩
            prepared := hprepared.mono fun e he => by simp [he] }
  · cases ha

/-- A pointer that was read is the stored one; the call fails only where none is stored. -/
theorem readPointer_ok {pointer : Option Pointer}
    (h : Steps env.service (readPointer rt.controlRegion .currentNode) s (.ok pointer) es t) :
    storedPointer rt s.world = .ok pointer ∧ ∃ error effective, es = [⟨pointerRead rt,error,effective⟩] ∧
      (error = none ∨ s.world.parameters rt.controlRegion ParamName.currentNode.path = none) := by
  obtain ⟨-,⟨error,effective,rfl,-⟩,hstored | ⟨x,hx⟩⟩ := readPointer_cases h
  · refine ⟨hstored.symm,error,effective,rfl,?_⟩
    obtain ⟨hr,hes,-⟩ := readPointer_outcome h
    cases hreply : env.service.reply s.trace s.world
        (.getParameter rt.controlRegion ParamName.currentNode.path false) with
    | ok raw =>
      rw [(Service.reply_ok hreply).2] at hes
      cases hes
      exact Or.inl rfl
    | error e =>
      rw [hreply] at hr
      cases e with
      | client code message =>
        rw [pointerOutcome_client] at hr
        by_cases hcode : code = parameterNotFound
        · subst hcode
          exact Or.inr (no_parameter_of_reply hreply)
        · rw [if_neg hcode] at hr
          cases hr
      | http status reason => cases hr
      | other typeName message isValueError => cases hr
  · cases hx

/-- A pointer is described as absent only after a scan that reported no node. -/
theorem describe_absent {p : Pointer} {d : Dict} (h : Steps env.service (describe rt (some p)) s (.ok d) es t)
    (habsent : d.get (text "state") = some (.str (text "absent"))) :
    ∃ region, clientRegion rt p.region = .ok region ∧ s.world.nodesIn region = [] ∧
      es = [⟨.describeInstances region nodeFilters,none,true⟩] := by
  rcases h.bind_cases with ⟨region,u,xs,ys,h1,h2,rfl⟩ | ⟨x,-,hx⟩
  · obtain ⟨hregion,rfl,rfl⟩ := ofExcept_cases h1
    refine ⟨region,hregion.symm,?_⟩
    rcases h2.bind_cases with ⟨nodes,v,xs,ys,h3,h4,rfl⟩ | ⟨x,-,hx⟩
    · obtain ⟨-,-,⟨nodes',hn,hperm,rfl⟩ | ⟨e,b,hn,-⟩⟩ := findNodes_cases h3
      · obtain rfl := Except.ok.inj hn
        cases nodes with
        | nil =>
          obtain ⟨-,rfl,-⟩ := Steps.pure_iff.mp h4
          exact ⟨hperm.symm.eq_nil,rfl⟩
        | cons first rest => exact absurd habsent (document_cases h4 rfl).present
      · cases hn
    · cases hx
  · cases hx

theorem Sited.append {body : Dict} {w : World} {plan : Plan} {ys : List Event} (h : Sited rt env body w plan ys)
    (xs : List Event) : Sited rt env body w plan (xs ++ ys) where
  regions_read := List.mem_append_right xs h.regions_read
  resolves := h.resolves
  valid := h.valid
  expiry := h.expiry
  scanned := ⟨List.mem_append_right xs h.scanned.1,h.scanned.2⟩
  prepared := h.prepared.mono fun _ he => List.mem_append_right xs he

/-- Every request spends in one of the three ways, and only when cleared. -/
theorem up_spending {body : Dict} {r : Except Exn Response} (h : Steps env.service (up rt body) s r es t) :
    Spending env s.trace (Cleared rt env body s.world) r es := by
  refine Spending.bind_reads h (readPointer_only _ _ rfl) fun pointer s₁ xs₁ _ k₁ hw₁ h => ?_
  obtain ⟨hstored,error,effective,rfl,herror⟩ := readPointer_ok k₁
  cases pointer with
  | none =>
    refine (upUntracked_spending h).mono ?_
    intro plan zs hsited
    rw [hw₁] at hsited
    exact ⟨hsited.append _,⟨error,effective,by simp,herror⟩,_,hstored,by simp⟩
  | some p =>
    have hspends : Only (fun c => spends c = false) (describe rt (some p)) :=
      (describe_frugal (some p)).mono fun _ => frugal_spends
    rcases h.bind_cases with ⟨existing,s₂,xs₂,ys₂,k₂,h₂,rfl⟩ | ⟨x,k₂,rfl⟩
    · by_cases hstate : existing.get (text "state") ≠ some (.str (text "absent"))
      · rw [if_pos hstate] at h₂
        obtain ⟨rfl,rfl,-⟩ := Steps.pure_iff.mp h₂
        rw [List.append_nil]
        exact .idle (hspends k₂) (by rintro _ ⟨⟩ ⟨⟩)
      · rw [if_neg hstate] at h₂
        obtain ⟨region,hregion,hempty,rfl⟩ := describe_absent k₂ (not_not.mp hstate)
        have hw₂ : s₂.world = s₁.world := world_of_event k₂ (fun _ => rfl)
        have hspending := upUntracked_spending h₂
        rw [k₂.2] at hspending
        refine hspending.prepend (hspends k₂) (Or.inl (by simp [Call.reads])) ?_
        intro plan zs hsited
        rw [hw₂,hw₁] at hsited
        rw [hw₁] at hempty
        refine ⟨(hsited.append _).append _,⟨error,effective,by simp,herror⟩,_,hstored,?_⟩
        rintro q hq
        obtain rfl := Option.some.inj hq
        exact ⟨region,hregion,by simp,hempty⟩
    · exact .idle (hspends k₂) (by simp)

/-! ## The order of the trace -/

/-- The only element of a kind splits a list in one way. -/
theorem split_unique {α : Type} {p : α → Bool} {xs ys pre post : List α} {a b : α}
    (h : xs ++ a :: ys = pre ++ b :: post) (hxs : ∀ x ∈ xs, p x = false) (hys : ∀ y ∈ ys, p y = false)
    (hb : p b = true) : pre = xs ∧ b = a ∧ post = ys := by
  rcases List.append_eq_append_iff.mp h with ⟨zs,rfl,hzs⟩ | ⟨zs,rfl,hzs⟩
  · cases zs with
    | nil =>
      obtain ⟨rfl,rfl⟩ := List.cons.inj hzs
      simp
    | cons z zs =>
      obtain ⟨rfl,rfl⟩ := List.cons.inj hzs
      rw [hys b (by simp)] at hb
      cases hb
  · cases zs with
    | nil =>
      obtain ⟨rfl,rfl⟩ := List.cons.inj hzs
      simp
    | cons z zs =>
      obtain ⟨rfl,rfl⟩ := List.cons.inj hzs
      rw [hxs b (by simp)] at hb
      cases hb

theorem spends_false {c : Call} (h : spends c = false) : mints c = false ∧ c.runs = false :=
  Bool.or_eq_false_iff.mp h

theorem mints_runs {c : Call} (h : mints c = true) : c.runs = false := by
  cases c <;> first | rfl | cases h

/-- Up to the minting nothing is launched. -/
theorem minted_runs {xs : List Event} {e₀ : Event} (hxs : ∀ e ∈ xs, spends e.call = false)
    (hm : mints e₀.call = true) : ∀ e ∈ xs ++ [e₀], e.call.runs = false := by
  intro e he
  rcases List.mem_append.mp he with he | he
  · exact (spends_false (hxs e he)).2
  · rw [List.mem_singleton.mp he]
    exact mints_runs hm

theorem Launches.runs {plan : Plan} {key : Json} {e : Event} (h : Launches plan key e) :
    mints e.call = false ∧ e.call.runs = true := by
  obtain ⟨request,he,-⟩ := h
  rw [he]
  exact ⟨rfl,rfl⟩

/-- A key is minted at most once, when cleared, and the next call launches with it. -/
def MintsLast (rt : Runtime) (env : Env) (body : Dict) (s : State) (r : Except Exn Response) (es : List Event) :
    Prop :=
  es.countP (fun e => mints e.call) ≤ 1 ∧
  ∀ pre e post, es = pre ++ e :: post → mints e.call = true → ∃ plan, Cleared rt env body s.world plan pre ∧
    ((∃ key f post', Answered env (s.trace ++ pre) e key ∧ post = f :: post' ∧ Launches plan key f) ∨
      (∀ key, ¬Answered env (s.trace ++ pre) e key) ∧ post = [] ∧ ∃ x, r = .error x)

/-- An instance is launched at most once, with the key of the call before. -/
def LaunchesMinted (env : Env) (s : State) (es : List Event) : Prop :=
  es.countP (fun e => e.call.runs) ≤ 1 ∧
  ∀ pre f post, es = pre ++ f :: post → f.call.runs = true →
    ∃ before e plan key, pre = before ++ [e] ∧ mints e.call = true ∧ Answered env (s.trace ++ before) e key ∧
      Launches plan key f

theorem countP_eq_zero {p : Event → Bool} (h : ∀ e ∈ es, p e = false) : es.countP p = 0 :=
  List.countP_eq_zero.mpr fun e he => by simp [h e he]

theorem Spending.mintsLast {body : Dict} {r : Except Exn Response}
    (h : Spending env s.trace (Cleared rt env body s.world) r es) : MintsLast rt env body s r es := by
  cases h with
  | idle hes hr =>
    have hmints : ∀ e ∈ es, mints e.call = false := fun e he => (spends_false (hes e he)).1
    refine ⟨by rw [countP_eq_zero hmints]; decide,?_⟩
    rintro pre e post rfl he
    rw [hmints e (by simp)] at he
    cases he
  | unanswered hc hxs hm hn =>
    rename_i plan x e₀ xs
    have hmints : ∀ e ∈ xs, mints e.call = false := fun e he => (spends_false (hxs e he)).1
    refine ⟨?_,?_⟩
    · rw [List.countP_append,countP_eq_zero hmints]
      simp [hm]
    · intro pre e post hsplit he
      obtain ⟨rfl,rfl,rfl⟩ := split_unique hsplit hmints (by simp) he
      exact ⟨plan,hc,Or.inr ⟨hn,rfl,x,rfl⟩⟩
  | launched hc hxs hm ha hl hys hr =>
    rename_i plan key e₀ f xs ys
    have hmints : ∀ e ∈ xs, mints e.call = false := fun e he => (spends_false (hxs e he)).1
    have hafter : ∀ e ∈ f :: ys, mints e.call = false := by
      intro e he
      rcases List.mem_cons.mp he with rfl | he
      · exact hl.runs.1
      · exact (spends_false (hys e he)).1
    refine ⟨?_,?_⟩
    · rw [List.countP_append,List.countP_cons,countP_eq_zero hmints,countP_eq_zero hafter]
      simp [hm]
    · intro pre e post hsplit he
      obtain ⟨rfl,rfl,rfl⟩ := split_unique hsplit hmints hafter he
      exact ⟨plan,hc,Or.inl ⟨key,f,ys,ha,rfl,hl⟩⟩

theorem Spending.launchesMinted {C : Plan → List Event → Prop} {r : Except Exn Response}
    (h : Spending env s.trace C r es) : LaunchesMinted env s es := by
  cases h with
  | idle hes hr =>
    have hruns : ∀ e ∈ es, e.call.runs = false := fun e he => (spends_false (hes e he)).2
    refine ⟨by rw [countP_eq_zero hruns]; decide,?_⟩
    rintro pre f post rfl hf
    rw [hruns f (by simp)] at hf
    cases hf
  | unanswered hc hxs hm hn =>
    rename_i plan x e₀ xs
    have hruns := minted_runs hxs hm
    refine ⟨by rw [countP_eq_zero hruns]; decide,?_⟩
    intro pre f post hsplit hf
    rw [hruns f (by rw [hsplit]; simp)] at hf
    cases hf
  | launched hc hxs hm ha hl hys hr =>
    rename_i plan key e₀ f₀ xs ys
    have hbefore := minted_runs hxs hm
    have hafter : ∀ e ∈ ys, e.call.runs = false := fun e he => (spends_false (hys e he)).2
    have hassoc : xs ++ e₀ :: f₀ :: ys = (xs ++ [e₀]) ++ f₀ :: ys := by simp
    rw [hassoc]
    refine ⟨?_,?_⟩
    · rw [List.countP_append,List.countP_cons,countP_eq_zero hbefore,countP_eq_zero hafter]
      simp [hl.runs.2]
    · intro pre f post hsplit hf
      obtain ⟨rfl,rfl,rfl⟩ := split_unique hsplit hbefore hafter hf
      exact ⟨xs,e₀,plan,key,rfl,hm,ha,hl⟩

/-- A refused request only reads. -/
theorem Spending.refused {C : Plan → List Event → Prop} {before : List Event} {response : Response}
    (h : Spending env before C (.ok response) es) (hstatus : response.statusCode = 400) :
    ∀ e ∈ es, e.call.reads = true := by
  cases h with
  | idle hes hr => exact hr response rfl hstatus
  | launched hc hxs hm ha hl hys hr => exact absurd hstatus (hr response rfl)

/-- A request to go up spends only when everything else has succeeded, and a refused
one leaves the world as it was. -/
theorem up_spends_last (rt : Runtime) (env : Env) (body : Dict) (s : State) :
    MintsLast rt env body s ((up rt body).exec env.service s).1 ((up rt body).events env.service s) ∧
    LaunchesMinted env s ((up rt body).events env.service s) ∧
    ∀ response, ((up rt body).exec env.service s).1 = .ok response → response.statusCode = 400 →
      (∀ e ∈ (up rt body).events env.service s, e.call.reads = true) ∧
        ((up rt body).exec env.service s).2.world = s.world := by
  have hsteps := (up rt body).steps_exec env.service s
  have hspending := up_spending hsteps
  refine ⟨hspending.mintsLast,hspending.launchesMinted,?_⟩
  intro response hr hstatus
  rw [hr] at hspending
  have hreads := hspending.refused hstatus
  exact ⟨hreads,by rw [hsteps.world,replay_reads env hreads]⟩

end

/-- A time to live that is none. -/
def soon : Dict := [(text "ttl",.str (text "soon"))]

/-- In an empty account one request mints and launches, and one with a bad time to live is refused. -/
theorem up_spends_last_plain :
    (∃ pre e f post plan key, (up Plain.runtime []).events Plain.clean.service (Plain.state Plain.empty) =
        pre ++ e :: f :: post ∧ mints e.call = true ∧ Cleared Plain.runtime Plain.clean [] Plain.empty plan pre ∧
        Launches plan key f) ∧
    (∀ e ∈ (up Plain.runtime soon).events Plain.clean.service (Plain.state Plain.empty), e.call.reads = true) ∧
    ((up Plain.runtime soon).exec Plain.clean.service (Plain.state Plain.empty)).2.world = Plain.empty := by
  constructor
  · have hmint : ∃ e ∈ (up Plain.runtime []).events Plain.clean.service (Plain.state Plain.empty),
        mints e.call = true := by decide +kernel
    have hok : ((up Plain.runtime []).exec Plain.clean.service (Plain.state Plain.empty)).1.toOption.isSome = true := by
      decide +kernel
    obtain ⟨e,he,hmints⟩ := hmint
    obtain ⟨pre,post,hsplit⟩ := List.append_of_mem he
    have hlast := (up_spends_last Plain.runtime Plain.clean [] (Plain.state Plain.empty)).1.2
    obtain ⟨plan,hcleared,⟨key,f,post',-,rfl,hlaunches⟩ | ⟨-,-,x,hx⟩⟩ := hlast pre e post hsplit hmints
    · exact ⟨pre,e,f,post',plan,key,hsplit,hmints,hcleared,hlaunches⟩
    · rw [hx] at hok
      cases hok
  · have hrefused : ((up Plain.runtime soon).exec Plain.clean.service (Plain.state Plain.empty)).1 =
        .ok (failure 400 (text "malformed ttl")) := by decide +kernel
    exact (up_spends_last Plain.runtime Plain.clean soon (Plain.state Plain.empty)).2.2 _ hrefused rfl

end ShardVPN.Handler
