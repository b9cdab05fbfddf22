import ShardVPN.Request.Up

/-! # What a launch needs

Image, instance type, security group and auth key, each with the evidence that it was
obtained. The evidence is a set of events, so it survives whatever calls come after it.
-/
namespace ShardVPN.Handler
open Effect Time Ec2ops Settings

/-- Requests for an auth key, and launches. -/
def spends (c : Call) : Bool := mints c || c.runs

/-- What a launch is prepared with. -/
structure Plan where
  region : Text
  ami : Text
  instanceType : Text
  sgId : Text

/-- A group without ingress rules was found or created. -/
def GroupObtained (env : Env) (w : World) (region sgId : Text) (es : List Event) : Prop :=
  ∃ vpcId, ⟨.describeSecurityGroups region [⟨text "group-name",[sgName]⟩,⟨text "vpc-id",[vpcId]⟩],none,true⟩ ∈ es ∧
    ((∃ group ∈ w.groups region, group.groupId = sgId ∧ group.ipPermissions = 0) ∨
      ⟨.createSecurityGroup region sgName sgDescription vpcId,none,true⟩ ∈ es ∧ sgId = env.groupId w)

/-- Image, instance type and security group were obtained. -/
structure Prepared (rt : Runtime) (env : Env) (w : World) (plan : Plan) (es : List Event) : Prop where
  ami_read : ⟨.getParameter plan.region amiParameter false,none,true⟩ ∈ es
  ami : w.parameters plan.region amiParameter = some plan.ami
  type_read : ⟨.getParameter rt.controlRegion ParamName.instanceType.path false,none,true⟩ ∈ es
  instanceType : w.parameters rt.controlRegion ParamName.instanceType.path = some plan.instanceType
  group : GroupObtained env w plan.region plan.sgId es

/-- A scan that reported no live node. -/
def ScannedEmpty (w : World) (region : Text) (es : List Event) : Prop :=
  ⟨.describeInstances region nodeFilters,none,true⟩ ∈ es ∧ w.nodesIn region = []

/-- The pointer was read, and no live node was reported where it points. -/
def PointerCleared (rt : Runtime) (w : World) (es : List Event) : Prop :=
  (∃ error effective, ⟨pointerRead rt,error,effective⟩ ∈ es ∧
    (error = none ∨ w.parameters rt.controlRegion ParamName.currentNode.path = none)) ∧
  ∃ pointer, storedPointer rt w = .ok pointer ∧
    ∀ p, pointer = some p → ∃ region, clientRegion rt p.region = .ok region ∧ ScannedEmpty w region es

/-- The region was validated and found empty, the TTL parsed, and the launch prepared. -/
structure Sited (rt : Runtime) (env : Env) (body : Dict) (w : World) (plan : Plan) (es : List Event) : Prop where
  regions_read : ⟨.describeRegions rt.controlRegion,none,true⟩ ∈ es
  resolves : Resolves rt w body plan.region
  valid : plan.region ∈ w.regions
  expiry : ∃ ttl now expiresAt, requestedValue rt w body (text "ttl") .defaultTtl = some ttl ∧
    Ttl.parseTtl ttl now = .ok expiresAt
  scanned : ScannedEmpty w plan.region es
  prepared : Prepared rt env w plan es

/-- Everything a launch needs besides the key has succeeded. -/
structure Cleared (rt : Runtime) (env : Env) (body : Dict) (w : World) (plan : Plan) (es : List Event) : Prop
    extends Sited rt env body w plan es where
  pointer : PointerCleared rt w es

/-- The key in the answer to a request for one. -/
def answeredKey (body : Bytes) : Option Json :=
  match loadsBytes body with
  | .ok response => (Tailscale.required response (text "key") (text "no key in auth key response")).toOption
  | .error _ => none

/-- After the events `before`, the request `e` was answered with a key. -/
def Answered (env : Env) (before : List Event) (e : Event) (key : Json) : Prop :=
  ∃ request body, e = ⟨.urlopen request Tailscale.timeout,none,true⟩ ∧
    env.http request (Action.occurrences e.call before) = .ok body ∧ answeredKey body = some key

/-- One launch of what was planned, with the key and the role tag. -/
def Launches (plan : Plan) (key : Json) (e : Event) : Prop :=
  ∃ request, e.call = .runInstances plan.region request ∧ request.userData.authkey = key ∧
    ⟨tagRole,roleValue⟩ ∈ request.tags ∧ request.imageId = plan.ami ∧ request.instanceType = plan.instanceType ∧
    request.securityGroupIds = [plan.sgId] ∧ request.minCount = 1 ∧ request.maxCount = 1

theorem reads_spends {c : Call} (h : c.reads = true) : spends c = false := by
  cases c <;> first | rfl | cases h

theorem frugal_spends {c : Call} (h : c.quiet = true ∧ mints c = false) : spends c = false := by
  unfold spends
  rw [h.2,Bool.false_or]
  cases c <;> first | rfl | cases h.1

section
variable {rt : Runtime} {env : Env} {s t : State} {es : List Event}

/-! ## Preparing a launch -/

theorem defaultVpcId_reads (region : Text) : Only (fun c => c.reads = true) (defaultVpcId region) := by
  refine .bind (.call rfl) fun vpcs => ?_
  split
  · exact .throw _
  · exact .pure _

theorem ensureSecurityGroup_cases {region sgId : Text}
    (h : Steps env.service (ensureSecurityGroup region) s (.ok sgId) es t) :
    GroupObtained env s.world region sgId es := by
  rcases h.bind_cases with ⟨vpcId,s₁,xs₁,ys₁,k₁,h₁,rfl⟩ | ⟨x,-,hx⟩
  · have hw₁ : s₁.world = s.world := by rw [k₁.world,replay_reads env (defaultVpcId_reads region k₁)]
    rcases h₁.bind_cases with ⟨existing,s₂,xs₂,ys₂,k₂,h₂,rfl⟩ | ⟨x,-,hx⟩
    · obtain ⟨-,⟨a,n,ha,rfl,hanswer⟩ | ⟨e,b,n,ha,-,-⟩⟩ := call_cases k₂
      · have hw₂ : s₂.world = s₁.world := world_of_event k₂ (fun _ => rfl)
        obtain rfl := Except.ok.inj ha
        refine ⟨vpcId,by simp,?_⟩
        cases existing with
        | nil =>
          obtain ⟨-,⟨a,n,ha,rfl,hcreated⟩ | ⟨e,b,n,ha,-,-⟩⟩ := call_cases h₂
          · obtain rfl := Except.ok.inj ha
            refine Or.inr ⟨by simp,?_⟩
            rw [← hw₁,← hw₂]
            exact (Except.ok.inj hcreated).symm
          · cases ha
        | cons group rest =>
          dsimp only at h₂
          by_cases hrules : group.ipPermissions ≠ 0
          · rw [if_pos hrules] at h₂
            cases (Steps.throw_iff.mp h₂).1
          · rw [if_neg hrules] at h₂
            obtain rfl := Except.ok.inj (Steps.pure_iff.mp h₂).1
            have hmem : group ∈ group :: rest := List.mem_cons_self
            rw [← Except.ok.inj hanswer,hw₁] at hmem
            exact Or.inl ⟨group,(List.mem_filter.mp hmem).1,rfl,not_not.mp hrules⟩
      · cases ha
    · cases hx
  · cases hx

theorem prepareLaunch_cases {region ami instanceType sgId : Text}
    (h : Steps env.service (prepareLaunch rt region) s (.ok (ami,instanceType,sgId)) es t) :
    Prepared rt env s.world ⟨region,ami,instanceType,sgId⟩ es := by
  rcases h.bind_cases with ⟨_,s₁,xs₁,ys₁,k₁,h₁,rfl⟩ | ⟨x,-,hx⟩
  · obtain ⟨rfl,hami,hw₁⟩ := getParameter_cases k₁
    rcases h₁.bind_cases with ⟨_,s₂,xs₂,ys₂,k₂,h₂,rfl⟩ | ⟨x,-,hx⟩
    · obtain ⟨rfl,htype,hw₂⟩ := getParameter_cases k₂
      rcases h₂.bind_cases with ⟨_,s₃,xs₃,ys₃,k₃,h₃,rfl⟩ | ⟨x,-,hx⟩
      · cases (Steps.pure_iff.mp h₃).1
        obtain ⟨vpcId,hread,hgroup⟩ := ensureSecurityGroup_cases k₃
        rw [hw₁] at htype
        rw [hw₂,hw₁] at hgroup
        refine ⟨by simp,hami,by simp,htype,vpcId,by simp [hread],?_⟩
        exact hgroup.imp_right fun hcreated => ⟨by simp [hcreated.1],hcreated.2⟩
      · cases hx
    · cases hx
  · cases hx

/-! ## Minting -/

theorem callApi_cases {request : Request} {r : Except Exn Json}
    (h : Steps env.service (Tailscale.callApi request) s r es t) :
    (∃ body, es = [⟨.urlopen request Tailscale.timeout,none,true⟩] ∧
      env.http request (Action.occurrences (.urlopen request Tailscale.timeout) s.trace) = .ok body ∧
      ((∃ value, loadsBytes body = .ok value ∧ r = .ok value) ∨
        ∃ e x, loadsBytes body = .error e ∧ r = .error x)) ∨
      ∃ e b x, es = [⟨.urlopen request Tailscale.timeout,some e,b⟩] ∧ r = .error x := by
  obtain ⟨v,u,xs,ys,h1,h2,rfl⟩ := h.bind_attempt
  obtain ⟨-,⟨body,rfl,rfl,-,hbody⟩ | ⟨e,b,rfl,rfl,-⟩⟩ := h1.call_cases
  · left
    dsimp only at h2
    cases hload : loadsBytes body with
    | ok value =>
      rw [hload] at h2
      obtain ⟨hr,rfl,-⟩ := Steps.pure_iff.mp h2
      exact ⟨body,rfl,hbody,Or.inl ⟨value,hload,hr⟩⟩
    | error e =>
      rw [hload] at h2
      obtain ⟨hr,rfl,-⟩ := Steps.throw_iff.mp h2
      exact ⟨body,rfl,hbody,Or.inr ⟨e,_,hload,hr⟩⟩
  · right
    cases e <;> obtain ⟨hr,rfl,-⟩ := Steps.throw_iff.mp h2 <;> exact ⟨_,_,_,rfl,hr⟩

theorem required_truthy {response key : Json} {name message : Text}
    (h : Tailscale.required response name message = .ok key) : key.truthy = true := by
  unfold Tailscale.required at h
  cases hget : Tailscale.get response name with
  | error e =>
    rw [hget] at h
    cases h
  | ok value =>
    rw [hget] at h
    cases value with
    | none => cases h
    | some value =>
      dsimp only at h
      split at h
      · rename_i htruthy
        rwa [← Except.ok.inj h]
      · cases h

theorem mints_urlopen {request : Request} {timeout : ℕ}
    (h : request.url = Tailscale.api ++ text "/tailnet/-/keys") : mints (.urlopen request timeout) = true :=
  decide_eq_true h

theorem answered_iff {before : List Event} {request : Request} {body : Bytes} {key : Json}
    (hbody : env.http request (Action.occurrences (.urlopen request Tailscale.timeout) before) = .ok body) :
    Answered env before ⟨.urlopen request Tailscale.timeout,none,true⟩ key ↔ answeredKey body = some key := by
  constructor
  · rintro ⟨request',body',he,hbody',hkey⟩
    cases he
    rwa [Except.ok.inj (hbody.symm.trans hbody')]
  · intro hkey
    exact ⟨request,body,rfl,hbody,hkey⟩

/-- A request for a key that was made is the last call, and its answer is the outcome. -/
theorem mintAuthKey_cases {token : Json} {tag description : Text} {expirySeconds : ℕ} {r : Except Exn Json}
    (h : Steps env.service (Tailscale.mintAuthKey token tag expirySeconds description) s r es t) :
    (es = [] ∧ ∃ x, r = .error x) ∨ ∃ e, es = [e] ∧ mints e.call = true ∧
      ((∃ key, r = .ok key ∧ key.truthy = true ∧ Answered env s.trace e key) ∨
        (∃ x, r = .error x) ∧ ∀ key, ¬Answered env s.trace e key) := by
  rcases h.bind_cases with ⟨data,s₁,xs₁,ys₁,k₁,h₁,rfl⟩ | ⟨x,k₁,rfl⟩
  · obtain ⟨-,rfl,rfl⟩ := ofOption_cases k₁
    right
    rcases h₁.bind_cases with ⟨response,s₂,xs₂,ys₂,k₂,h₂,rfl⟩ | ⟨x,k₂,rfl⟩
    · obtain ⟨rfl,rfl,rfl⟩ := ofExcept_cases h₂
      rcases callApi_cases k₂ with ⟨body,rfl,hbody,⟨value,hload,hr⟩ | ⟨e,x,-,hr⟩⟩ | ⟨e,b,x,-,hr⟩
      · obtain rfl := Except.ok.inj hr
        refine ⟨_,rfl,mints_urlopen rfl,?_⟩
        simp only [answered_iff hbody,answeredKey,hload]
        cases hkey : Tailscale.required response (text "key") (text "no key in auth key response") with
        | ok key => exact Or.inl ⟨key,rfl,required_truthy hkey,rfl⟩
        | error x => exact Or.inr ⟨⟨x,rfl⟩,by simp [Except.toOption]⟩
      · cases hr
      · cases hr
    · rcases callApi_cases k₂ with ⟨body,rfl,hbody,⟨value,-,hr⟩ | ⟨e,x,hload,-⟩⟩ | ⟨e,b,x,rfl,-⟩
      · cases hr
      · refine ⟨_,rfl,mints_urlopen rfl,Or.inr ⟨⟨_,rfl⟩,?_⟩⟩
        simp [answered_iff hbody,answeredKey,hload]
      · refine ⟨_,rfl,mints_urlopen rfl,Or.inr ⟨⟨_,rfl⟩,?_⟩⟩
        rintro key ⟨request,body,he,-⟩
        cases he
  · exact Or.inl ⟨(ofOption_cases k₁).2.1,x,rfl⟩

/-- Minting a key stops before the request for one or with it. -/
theorem mintKey_cases {hostname : Text} {r : Except Exn Json} (h : Steps env.service (mintKey rt hostname) s r es t) :
    ((∀ e ∈ es, spends e.call = false) ∧ ∃ x, r = .error x) ∨
      ∃ xs e, es = xs ++ [e] ∧ (∀ e ∈ xs, spends e.call = false) ∧ mints e.call = true ∧
        ((∃ key, r = .ok key ∧ key.truthy = true ∧ Answered env (s.trace ++ xs) e key) ∨
          (∃ x, r = .error x) ∧ ∀ key, ¬Answered env (s.trace ++ xs) e key) := by
  have htoken : Only (fun c => spends c = false) (tailscaleToken rt) :=
    tailscaleToken_frugal.mono fun _ => frugal_spends
  rcases h.bind_cases with ⟨token,u,xs,ys,h1,h2,rfl⟩ | ⟨x,h1,rfl⟩
  · rcases mintAuthKey_cases h2 with ⟨rfl,hr⟩ | ⟨e,rfl,hm,hkey⟩
    · rw [List.append_nil]
      exact Or.inl ⟨htoken h1,hr⟩
    · rw [h1.2] at hkey
      exact Or.inr ⟨xs,e,rfl,htoken h1,hm,hkey⟩
  · exact Or.inl ⟨htoken h1,x,rfl⟩

end

end ShardVPN.Handler
