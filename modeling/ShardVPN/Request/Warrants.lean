import ShardVPN.Effect.Permits
import ShardVPN.Request.Entry
import ShardVPN.Request.Launch
import ShardVPN.Sweep.Cull

/-! # What warrants a call of a request

The reads and notifications of the program are warranted in every world. A call that
changes something is warranted by the world in which it is made: a security group is
created where there is none, a node is launched in an empty region, and what is
terminated, stamped or pointed to is there.
-/
namespace ShardVPN.Handler
open Effect Time Ec2ops Settings Watchdog

/-- A security group of the program on a default VPC, closed to the outside. -/
structure Walled (w : World) (region : Text) (g : SecurityGroup) : Prop where
  mem : g ∈ w.groups region
  named : g.groupName = sgName
  closed : g.ipPermissions = 0
  home : ∃ v ∈ w.vpcs region, v.isDefault = true ∧ g.vpcId = v.vpcId

/-- A launch of one node in a region that has none, with the tags of its launch. -/
structure Ordered (rt : Runtime) (w : World) (region : Text) (request : RunInstances) : Prop where
  valid : region ∈ w.regions
  free : w.nodesIn region = []
  single : request.minCount = 1 ∧ request.maxCount = 1
  image : w.parameters region amiParameter = some request.imageId
  typed : w.parameters rt.controlRegion ParamName.instanceType.path = some request.instanceType
  walled : ∃ g, Walled w region g ∧ request.securityGroupIds = [g.groupId]
  ends : request.shutdownBehavior = text "terminate"
  tagged : ∃ l : Launch, l.region = region ∧ request.tags = l.tags ∧ request.userData.hostname = l.hostname

inductive Warranted (rt : Runtime) (w : World) : Call → Prop
  | readParameter (region : Text) (name : ParamName) (decrypt : Bool) :
      Warranted rt w (.getParameter region name.path decrypt)
  | readImage (region : Text) : Warranted rt w (.getParameter region amiParameter false)
  | listRegions : Warranted rt w (.describeRegions rt.controlRegion)
  | scan (region : Text) : Warranted rt w (.describeInstances region nodeFilters)
  | listVpcs (region : Text) : Warranted rt w (.describeVpcs region [⟨text "isDefault",[text "true"]⟩])
  | listGroups (region vpcId : Text) :
      Warranted rt w (.describeSecurityGroups region [⟨text "group-name",[sgName]⟩,⟨text "vpc-id",[vpcId]⟩])
  | measure (region : Text) (query : MetricQuery) : Warranted rt w (.getMetricStatistics region query)
  | fetch (request : Request) : Warranted rt w (.urlopen request Tailscale.timeout)
  | tell (message : Text) : Warranted rt w (publishCall rt message)
  | wall {region : Text} {v : Vpc} : v ∈ w.vpcs region → v.isDefault = true →
      (∀ g ∈ w.groups region, g.groupName = sgName → g.vpcId ≠ v.vpcId) →
      Warranted rt w (.createSecurityGroup region sgName sgDescription v.vpcId)
  | launch {region : Text} {request : RunInstances} : Ordered rt w region request →
      Warranted rt w (.runInstances region request)
  | terminate {n : Node} : n ∈ w.instances → hasRole n.2 = true → Warranted rt w (terminateCall n)
  | stamp {n : Node} (value : Text) : n ∈ w.instances → hasRole n.2 = true →
      Warranted rt w (.createTags n.1 [n.2.instanceId] [⟨tagAlerted,value⟩])
  | point {n : Node} : n ∈ w.instances → hasRole n.2 = true → Warranted rt w (pointerWrite rt (some (pointerTo n)))
  | clear : Warranted rt w (pointerWrite rt none)

/-- Every call of a trace is warranted in its world. -/
abbrev Warrants (rt : Runtime) (env : Env) (w : World) (es : List Event) : Prop :=
  env.service.Permits (Warranted rt) w es

/-- Every call the action can make is warranted in every world. -/
abbrev Harmless (rt : Runtime) {X α : Type} (m : Program X α) : Prop := Only (fun c => ∀ w, Warranted rt w c) m

section
variable {rt : Runtime} {env : Env} {s t : State} {es : List Event}

theorem Harmless.warrants {X α : Type} {m : Program X α} (hm : Harmless rt m) {r : Except X α}
    (h : Steps env.service m s r es t) : Warrants rt env s.world es :=
  hm.permits (fun _ _ hc => hc _) h

/-- A harmless part of a sequence leaves the warrant to the rest. -/
theorem Harmless.bind_warrants {X α β : Type} {m : Program X α} {f : α → Program X β} (hm : Harmless rt m)
    {r : Except X β} (h : Steps env.service (m >>= f) s r es t)
    (hf : ∀ a u xs ys, Steps env.service m s (.ok a) xs u → Steps env.service (f a) u r ys t →
      Warrants rt env u.world ys) : Warrants rt env s.world es :=
  h.permits_bind (fun _ _ _ => hm.warrants) fun a xs u ys => hf a u xs ys

/-! ## Describing and reading -/

theorem harmless_describing : Describing (fun c => ∀ w, Warranted rt w c) where
  secret _ _ _ := .readParameter ..
  api _ _ _ := .fetch _
  metric _ _ _ := .measure ..
  scan _ _ := .scan _

theorem describe_harmless (pointer : Option Pointer) : Harmless rt (describe rt pointer) :=
  harmless_describing.describe _

theorem findNodes_harmless (region : Text) : Harmless rt (findNodes region) := findNodes_only region fun _ => .scan _

theorem readPointer_harmless : Harmless rt (readPointer rt.controlRegion .currentNode) :=
  readPointer_only _ _ fun _ => .readParameter ..

theorem requested_harmless (body : Dict) (key : Text) (default : ParamName) :
    Harmless rt (requested rt body key default) := by
  unfold requested
  split
  · exact .pure _
  · exact .bind (.call fun _ => .readParameter ..) fun _ => .pure _

theorem mintKey_harmless (hostname : Text) : Harmless rt (mintKey rt hostname) :=
  .bind harmless_describing.tailscaleToken fun _ => .bind (ofOption_only _ _) fun _ =>
    .bind (callApi_only fun _ => .fetch _) fun _ => ofExcept_only _

theorem tokenHex_harmless {X : Type} : Harmless rt (Program.tokenHex : Program X Text) :=
  .bind .getProc fun _ => .bind (.setProc _) fun _ => .pure _

theorem status_harmless : Harmless rt (status rt) :=
  .bind readPointer_harmless fun _ => .bind (describe_harmless _) fun _ => .pure _

theorem signingSecret_harmless : Harmless rt (signingSecret rt) :=
  (signingSecret_only rt).mono fun _ hc _ => hc ▸ .readParameter ..

/-! ## The security group -/

theorem mem_defaultVpcs {w : World} {region : Text} {v : Vpc} {n : ℕ} {vpcs : List Vpc}
    (h : env.answer (.describeVpcs region [⟨text "isDefault",[text "true"]⟩]) n w = .ok vpcs) (hv : v ∈ vpcs) :
    v ∈ w.vpcs region ∧ v.isDefault = true := by
  obtain rfl := Except.ok.inj h
  obtain ⟨hmem,hmatch⟩ := List.mem_filter.mp hv
  refine ⟨hmem,?_⟩
  by_contra hdefault
  simp [matchesAll,Vpc.filterValues,hdefault,text] at hmatch

theorem defaultVpcId_cases {region vpcId : Text} (h : Steps env.service (defaultVpcId region) s (.ok vpcId) es t) :
    t.world = s.world ∧ ∃ v ∈ s.world.vpcs region, v.isDefault = true ∧ vpcId = v.vpcId := by
  have hworld : t.world = s.world := by rw [h.world,replay_reads env (defaultVpcId_reads region h)]
  refine ⟨hworld,?_⟩
  obtain ⟨vpcs,u,xs,ys,h1,h2,-⟩ := h.bind_ok
  obtain ⟨-,⟨a,n,ha,-,hanswer⟩ | ⟨e,b,n,ha,-,-⟩⟩ := call_cases h1
  · obtain rfl := Except.ok.inj ha
    cases vpcs with
    | nil => cases (Steps.throw_iff.mp h2).1
    | cons v rest =>
      obtain rfl := Except.ok.inj (Steps.pure_iff.mp h2).1
      obtain ⟨hmem,hdefault⟩ := mem_defaultVpcs hanswer List.mem_cons_self
      exact ⟨v,hmem,hdefault,rfl⟩
  · cases ha

/-- The groups of the program on a VPC, as a lookup finds them. -/
theorem mem_existing {w : World} {region vpcId : Text} {g : SecurityGroup} :
    g ∈ (w.groups region).filter (fun g => matchesAll g.filterValues
      [⟨text "group-name",[sgName]⟩,⟨text "vpc-id",[vpcId]⟩]) ↔
      g ∈ w.groups region ∧ g.groupName = sgName ∧ g.vpcId = vpcId := by
  have hne : text "vpc-id" ≠ text "group-name" := by decide
  simp [List.mem_filter,matchesAll,SecurityGroup.filterValues,hne]

theorem ensureSecurityGroup_walled {region sgId : Text}
    (h : Steps env.service (ensureSecurityGroup region) s (.ok sgId) es t) :
    ∃ g, Walled t.world region g ∧ sgId = g.groupId := by
  obtain ⟨vpcId,s₁,_,_,k₁,h,-⟩ := h.bind_ok
  obtain ⟨hw₁,v,hv,hdefault,rfl⟩ := defaultVpcId_cases k₁
  obtain ⟨existing,s₂,_,_,k₂,h,-⟩ := h.bind_ok
  obtain ⟨-,⟨a,n,ha,rfl,hanswer⟩ | ⟨e,b,n,ha,-,-⟩⟩ := call_cases k₂
  · have hw₂ : s₂.world = s₁.world := world_of_event k₂ (fun _ => rfl)
    obtain rfl := Except.ok.inj ha
    have hexisting := Except.ok.inj hanswer
    cases existing with
    | nil =>
      have hworld := h.world
      obtain ⟨-,⟨a,n,ha,rfl,hcreated⟩ | ⟨e,b,n,ha,-,-⟩⟩ := call_cases h
      · obtain rfl := Except.ok.inj ha
        refine ⟨⟨env.groupId s₂.world,sgName,sgDescription,v.vpcId,0⟩,⟨?_,rfl,rfl,v,?_,hdefault,rfl⟩,?_⟩
        · rw [hworld]
          simp [Env.service,Env.effect,World.addGroup]
        · rw [hworld]
          simpa [Env.service,Env.effect,World.addGroup,hw₂,hw₁] using hv
        · exact (Except.ok.inj hcreated).symm
      · cases ha
    | cons group rest =>
      dsimp only at h
      by_cases hrules : group.ipPermissions ≠ 0
      · rw [if_pos hrules] at h
        cases (Steps.throw_iff.mp h).1
      · rw [if_neg hrules] at h
        obtain ⟨hid,-,rfl⟩ := Steps.pure_iff.mp h
        have hmem : group ∈ group :: rest := List.mem_cons_self
        rw [← hexisting,mem_existing] at hmem
        obtain ⟨hmem,hname,hvpc⟩ := hmem
        refine ⟨group,⟨by rwa [hw₂],hname,not_not.mp hrules,v,?_,hdefault,hvpc⟩,Except.ok.inj hid⟩
        rwa [hw₂,hw₁]
  · cases ha

/-- A group is created only on a default VPC on which the program has none. -/
theorem ensureSecurityGroup_warrants {region : Text} {r : Except Exn Text}
    (h : Steps env.service (ensureSecurityGroup region) s r es t) : Warrants rt env s.world es := by
  have hvpcs : Harmless rt (defaultVpcId region) := by
    refine .bind (.call fun _ => .listVpcs _) fun vpcs => ?_
    split
    · exact .throw _
    · exact .pure _
  refine hvpcs.bind_warrants h fun vpcId s₁ _ _ k₁ h => ?_
  obtain ⟨hw₁,v,hv,hdefault,rfl⟩ := defaultVpcId_cases k₁
  refine h.permits_bind (fun _ _ _ k => k.permits_call (.listGroups _ _)) fun existing _ s₂ _ k₂ h => ?_
  obtain ⟨-,⟨a,n,ha,rfl,hanswer⟩ | ⟨e,b,n,ha,-,-⟩⟩ := call_cases k₂
  · have hw₂ : s₂.world = s₁.world := world_of_event k₂ (fun _ => rfl)
    obtain rfl := Except.ok.inj ha
    have hexisting := Except.ok.inj hanswer
    cases existing with
    | nil =>
      refine h.permits_call (.wall ?_ hdefault ?_)
      · rwa [hw₂,hw₁]
      · intro g hg hname hvpc
        rw [hw₂] at hg
        have hmem := mem_existing.mpr ⟨hg,hname,hvpc⟩
        rw [hexisting] at hmem
        cases hmem
    | cons group rest =>
      dsimp only at h
      split at h
      · exact Harmless.warrants (.throw _) h
      · exact Harmless.warrants (.pure _) h
  · cases ha

/-! ## Going up -/

/-- What a launch is prepared with, in the world after. -/
structure Fit (rt : Runtime) (w : World) (region ami instanceType sgId : Text) : Prop where
  image : w.parameters region amiParameter = some ami
  typed : w.parameters rt.controlRegion ParamName.instanceType.path = some instanceType
  walled : ∃ g, Walled w region g ∧ sgId = g.groupId

theorem prepareLaunch_warrants {region : Text} {r : Except Exn (Text × Text × Text)}
    (h : Steps env.service (prepareLaunch rt region) s r es t) : Warrants rt env s.world es := by
  refine Harmless.bind_warrants (.call fun _ => .readImage _) h fun ami s₁ _ _ _ h => ?_
  refine Harmless.bind_warrants (.call fun _ => .readParameter ..) h fun instanceType s₂ _ _ _ h => ?_
  refine h.permits_bind (fun _ _ _ => ensureSecurityGroup_warrants) fun sgId _ s₃ _ _ h => ?_
  exact Harmless.warrants (.pure _) h

theorem prepareLaunch_fit {region ami instanceType sgId : Text}
    (h : Steps env.service (prepareLaunch rt region) s (.ok (ami,instanceType,sgId)) es t) :
    Fit rt t.world region ami instanceType sgId := by
  have hsame : Same s.world t.world := Quiet.same (prepareLaunch_frugal region).quiet h
  have hprepared := prepareLaunch_cases h
  obtain ⟨_,s₁,_,_,-,h,-⟩ := h.bind_ok
  obtain ⟨_,s₂,_,_,-,h,-⟩ := h.bind_ok
  obtain ⟨_,s₃,_,_,k₃,h,-⟩ := h.bind_ok
  obtain ⟨hvalue,-,rfl⟩ := Steps.pure_iff.mp h
  cases hvalue
  refine ⟨?_,?_,ensureSecurityGroup_walled k₃⟩
  · rw [hsame.parameters]
    exact hprepared.ami
  · rw [hsame.parameters]
    exact hprepared.instanceType

theorem point_warranted {w : World} {n : Node} (hn : n ∈ w.nodes) :
    Warranted rt w (pointerWrite rt (some (pointerTo n))) := by
  obtain ⟨hmem,hnode⟩ := List.mem_filter.mp hn
  exact .point hmem (Bool.and_eq_true_iff.mp hnode).1

/-- A launched node is there to be pointed to. -/
theorem launched_warrants {region ami instanceType sgId hostname launchedAt expiresAt clientToken : Text}
    {userData : UserData} {r : Except Exn Response} (h : Steps env.service (do
      let instanceId ← launch region ami instanceType sgId userData (launchTags hostname launchedAt expiresAt)
        clientToken
      writePointer rt.controlRegion .currentNode (some ⟨.str region,.str instanceId⟩)
      pure (respond 200 (launchDocument region instanceId hostname expiresAt))) s r es t)
    (hordered : Ordered rt s.world region ⟨ami,instanceType,1,1,[sgId],userData,clientToken,text "terminate",
      text "required",launchTags hostname launchedAt expiresAt⟩) : Warrants rt env s.world es := by
  refine h.permits_bind (fun _ _ _ k => k.permits_call (.launch hordered)) fun instanceId _ u _ k h => ?_
  obtain ⟨i,hnode,rfl,-⟩ := launch_leaves k
  have hpoint : Warranted rt u.world (pointerWrite rt (some (pointerTo (region,i)))) := point_warranted hnode
  exact h.permits_bind (fun _ _ _ k => k.permits_call hpoint) fun _ _ v _ _ h => Harmless.warrants (.pure _) h

theorem launchNode_warrants {region expiresAt : Text} {ttl : Json} {now : WallClock} {r : Except Exn Response}
    (hvalid : region ∈ s.world.regions) (hfree : s.world.nodesIn region = [])
    (hparsed : Ttl.parseTtl ttl now.toDateTime = .ok expiresAt)
    (h : Steps env.service (launchNode rt region now.toDateTime expiresAt) s r es t) :
    Warrants rt env s.world es := by
  refine tokenHex_harmless.bind_warrants h fun suffix s₁ _ _ k₁ h => ?_
  have hsame := Quiet.same tokenHex_frugal.quiet k₁
  refine h.permits_bind (fun _ _ _ => prepareLaunch_warrants) fun ⟨ami,instanceType,sgId⟩ _ s₂ _ k₂ h => ?_
  have hsame := hsame.trans (Quiet.same (prepareLaunch_frugal region).quiet k₂)
  have hfit := prepareLaunch_fit k₂
  refine (mintKey_harmless _).bind_warrants h fun authkey s₃ _ _ k₃ h => ?_
  refine Harmless.bind_warrants (ofExcept_only _) h fun userData s₄ _ _ k₄ h => ?_
  refine Harmless.bind_warrants (ofExcept_only _) h fun launchedAt s₅ _ _ k₅ h => ?_
  have hworld : s₅.world = s₂.world := by
    rw [(ofExcept_cases k₅).2.2,(ofExcept_cases k₄).2.2]
    refine world_of_inert ?_ k₃
    have hinert : Describing (fun c => ∀ w, env.effect c w = w) :=
      ⟨fun _ _ _ => rfl,fun _ _ _ => rfl,fun _ _ _ => rfl,fun _ _ => rfl⟩
    exact .bind hinert.tailscaleToken fun _ => .bind (ofOption_only _ _) fun _ =>
      .bind (callApi_only fun _ => rfl) fun _ => ofExcept_only _
  have hlaunched : launchedAt = strftime now.toDateTime := by
    have hok := (ofExcept_cases k₅).1
    unfold Ttl.rfc3339 at hok
    rw [now.rfc3339.1] at hok
    exact Except.ok.inj hok
  have huser : userData.hostname = text "shardvpn-" ++ region ++ text "-" ++ suffix := by
    have hok := (ofExcept_cases k₄).1
    unfold renderUserdata at hok
    split at hok
    · cases hok
    · split at hok
      · cases hok
      · rw [Except.ok.inj hok]
  subst hlaunched
  obtain ⟨g,hwalled,rfl⟩ := hfit.walled
  refine launched_warrants h ?_
  rw [hworld]
  exact ⟨by rwa [hsame.regions],by rwa [hsame.nodesIn],⟨rfl,rfl⟩,hfit.image,hfit.typed,⟨g,hwalled,rfl⟩,rfl,
    ⟨region,suffix,ttl,now,expiresAt,[],hparsed⟩,rfl,rfl,huser⟩

theorem upRegion_warrants {region expiresAt : Text} {ttl : Json} {now : WallClock} {r : Except Exn Response}
    (hvalid : region ∈ s.world.regions) (hparsed : Ttl.parseTtl ttl now.toDateTime = .ok expiresAt)
    (h : Steps env.service (upRegion rt region now.toDateTime expiresAt) s r es t) : Warrants rt env s.world es := by
  refine (findNodes_harmless region).bind_warrants h fun found u _ _ k h => ?_
  obtain ⟨hw,-,⟨nodes,hnodes,hperm,-⟩ | ⟨e,b,hr,-⟩⟩ := findNodes_cases k
  · obtain rfl := Except.ok.inj hnodes
    rw [← hw] at hvalid hperm
    cases found with
    | nil => exact launchNode_warrants hvalid hperm.symm.eq_nil hparsed h
    | cons first rest =>
      have hfirst : (region,first) ∈ u.world.nodes := mem_nodesIn.mp (hperm.mem_iff.mp List.mem_cons_self)
      have hpoint : Warranted rt u.world (pointerWrite rt (some (pointerTo (region,first)))) := point_warranted hfirst
      refine h.permits_bind (fun _ _ _ k => k.permits_call hpoint) fun _ _ v _ _ h => ?_
      exact (describe_harmless _).bind_warrants h fun _ _ _ _ _ => Harmless.warrants (.pure _)
  · cases hr

theorem upUntracked_warrants {body : Dict} {r : Except Exn Response}
    (h : Steps env.service (upUntracked rt body) s r es t) : Warrants rt env s.world es := by
  refine Harmless.bind_warrants (.call fun _ => .listRegions) h fun regions s₁ _ _ k₁ h => ?_
  refine (requested_harmless _ _ _).bind_warrants h fun region s₂ _ _ k₂ h => ?_
  have hsame : Same s.world s₂.world := by
    refine (Quiet.same (.call rfl) k₁).trans (Quiet.same (requested_frugal _ _ _).quiet k₂)
  cases hregion : regionOf region regions with
  | none =>
    rw [hregion] at h
    exact Harmless.warrants (.pure _) h
  | some target =>
    rw [hregion] at h
    obtain ⟨-,⟨a,n,ha,-,hanswer⟩ | ⟨e,b,n,ha,-,-⟩⟩ := call_cases k₁
    · obtain rfl := Except.ok.inj ha
      obtain rfl := Except.ok.inj hanswer
      have hvalid := (env.regionOrder_perm _ _).mem_iff.mp (regionOf_some hregion).2
      refine Harmless.bind_warrants now_only h fun now s₃ _ _ k₃ h => ?_
      have hexpiry : Harmless rt (requestedExpiry rt body now.toDateTime) :=
        .bind (requested_harmless _ _ _) fun _ => ofExcept_only _
      refine Harmless.bind_warrants (.attempt hexpiry) h fun v s₄ _ _ k₄ h => ?_
      have hsame := (hsame.trans (Quiet.same now_only k₃)).trans
        (Quiet.same (.attempt (requestedExpiry_quiet _ _)) k₄)
      obtain ⟨v,hv,k₄⟩ := Steps.attempt_iff.mp k₄
      obtain rfl := Except.ok.inj hv
      cases v with
      | error e =>
        dsimp only at h
        split at h
        · exact Harmless.warrants (.pure _) h
        · exact Harmless.warrants (.throw _) h
      | ok expiresAt =>
        obtain ⟨ttl,-,hparsed⟩ := requestedExpiry_cases k₄
        exact upRegion_warrants (by rwa [hsame.regions]) hparsed h
    · cases ha

theorem up_warrants {body : Dict} {r : Except Exn Response} (h : Steps env.service (up rt body) s r es t) :
    Warrants rt env s.world es := by
  refine readPointer_harmless.bind_warrants h fun pointer u _ _ _ h => ?_
  cases pointer with
  | none => exact upUntracked_warrants h
  | some pointer =>
    refine (describe_harmless _).bind_warrants h fun existing v _ _ _ h => ?_
    split at h
    · exact Harmless.warrants (.pure _) h
    · exact upUntracked_warrants h

end

end ShardVPN.Handler
