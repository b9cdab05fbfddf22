import ShardVPN.Pointer.Codec
import ShardVPN.Request.Describe

/-! # What `up` does

A request to go up ends in one of five ways: a tracked node answers it, it is
declined before anything is changed, it finds a node in the target region and writes
the pointer to it, its launch fails, or it launches a node and writes the pointer.
-/
namespace ShardVPN.Handler
open Effect Time Ec2ops Settings

/-- What `body.get(key) or get_parameter(…)` stands for. -/
def requestedValue (rt : Runtime) (w : World) (body : Dict) (key : Text) (default : ParamName) : Option Json :=
  match (body.get key).filter Json.truthy with
  | some value => some value
  | none => (w.parameters rt.controlRegion default.path).map Json.str

/-- The target region of a request. -/
def Resolves (rt : Runtime) (w : World) (body : Dict) (region : Text) : Prop :=
  requestedValue rt w body (text "region") .defaultRegion = some (.str region)

/-- No node is live where the pointer points. -/
def Untracked (rt : Runtime) (w : World) : Prop := ∀ p, storedPointer rt w = .ok (some p) →
  ∃ region, clientRegion rt p.region = .ok region ∧ w.nodesIn region = []

/-- A success that reports a region and an instance. -/
def Reports (response : Response) (region instanceId : Json) : Prop :=
  ∃ document, response = respond 200 document ∧ document.get (text "region") = some region ∧
    document.get (text "instance_id") = some instanceId

/-- The target of a launch or a recovery. -/
structure Target (rt : Runtime) (body : Dict) (w : World) (region : Text) : Prop where
  untracked : Untracked rt w
  resolves : Resolves rt w body region
  valid : region ∈ w.regions

/-- How a request to go up runs from a world. -/
inductive UpRun (rt : Runtime) (env : Env) (body : Dict) (w : World) : Except Exn Response → List Event → Prop
  | tracked {p : Pointer} {region : Text} {i : Instance} {response : Response} {es : List Event} :
      (∀ e ∈ es, e.call.quiet = true) → storedPointer rt w = .ok (some p) →
      clientRegion rt p.region = .ok region → Selected w region p i →
      Reports response p.region (.str i.instanceId) → UpRun rt env body w (.ok response) es
  | declined {r : Except Exn Response} {es : List Event} : (∀ e ∈ es, e.call.quiet = true) →
      (∀ response, r = .ok response → response.statusCode = 400) → UpRun rt env body w r es
  | recovered {region : Text} {i : Instance} {r : Except Exn Response} {e : Event} {xs ys : List Event} :
      Target rt body w region → i ∈ w.nodesIn region →
      (∀ e ∈ xs, e.call.quiet = true) → e.call = pointerWrite rt (some (pointerTo (region,i))) →
      (∀ e ∈ ys, e.call.quiet = true) → (e.succeeded = true → e.effective = true) →
      (∀ response, r = .ok response → e.succeeded = true ∧
        Reports response (.str region) (.str i.instanceId)) → UpRun rt env body w r (xs ++ e :: ys)
  | failed {region : Text} {request : RunInstances} {x : Exn} {e : Event} {xs : List Event} :
      Target rt body w region → w.nodesIn region = [] → (∀ e ∈ xs, e.call.quiet = true) →
      e.call = .runInstances region request → hasRole (env.launched w request) = true → e.succeeded = false →
      UpRun rt env body w (.error x) (xs ++ [e])
  | launched {region : Text} {request : RunInstances} {r : Except Exn Response} {e : Event} {xs : List Event} :
      Target rt body w region → w.nodesIn region = [] → (∀ e ∈ xs, e.call.quiet = true) →
      hasRole (env.launched w request) = true →
      e.call = pointerWrite rt (some (pointerTo (region,env.launched (env.service.replay w xs) request))) →
      (e.succeeded = true → e.effective = true) →
      (∀ response, r = .ok response → e.succeeded = true ∧ Reports response (.str region)
        (.str (env.launched (env.service.replay w xs) request).instanceId)) →
      UpRun rt env body w r (xs ++ [⟨.runInstances region request,none,true⟩,e])

theorem Same.requestedValue {v w : World} (h : Same v w) (rt : Runtime) (body : Dict) (key : Text)
    (default : ParamName) : requestedValue rt w body key default = Handler.requestedValue rt v body key default := by
  rw [Handler.requestedValue,Handler.requestedValue,h.parameters]

theorem Same.untracked {v w : World} (h : Same v w) {rt : Runtime} (hw : Untracked rt w) : Untracked rt v := by
  intro p hp
  obtain ⟨region,hregion,hnil⟩ := hw p (by rw [h.storedPointer]; exact hp)
  rw [h.nodesIn] at hnil
  exact ⟨region,hregion,hnil⟩

theorem Target.of_same {rt : Runtime} {body : Dict} {v w : World} {region : Text} (h : Same v w)
    (ht : Target rt body w region) : Target rt body v region where
  untracked := Same.untracked h ht.untracked
  resolves := by
    rw [Resolves,← Same.requestedValue h]
    exact ht.resolves
  valid := h.regions ▸ ht.valid

/-- Quiet calls before a run are part of it. -/
theorem UpRun.prepend {rt : Runtime} {env : Env} {body : Dict} {w : World} {r : Except Exn Response}
    {xs es : List Event} (hxs : ∀ e ∈ xs, e.call.quiet = true)
    (h : UpRun rt env body (env.service.replay w xs) r es) : UpRun rt env body w r (xs ++ es) := by
  have hsame := replay_quiet env hxs w
  have hquiet : ∀ {ys : List Event}, (∀ e ∈ ys, e.call.quiet = true) → ∀ e ∈ xs ++ ys, e.call.quiet = true := by
    intro ys hys e he
    rcases List.mem_append.mp he with he | he
    · exact hxs e he
    · exact hys e he
  cases h with
  | tracked hes hp hregion hs hreports =>
    refine .tracked (hquiet hes) (by rw [← hsame.storedPointer]; exact hp) hregion ?_ hreports
    rw [Selected,← hsame.nodesIn]
    exact hs
  | declined hes hr => exact .declined (hquiet hes) hr
  | recovered ht hi hys he hzs heff hr =>
    rw [← List.append_assoc]
    exact .recovered (ht.of_same hsame) (by rw [← hsame.nodesIn]; exact hi) (hquiet hys) he hzs heff hr
  | failed ht hn hys he hrole hf =>
    rw [← List.append_assoc]
    exact .failed (ht.of_same hsame) (by rw [← hsame.nodesIn]; exact hn) (hquiet hys) he hrole hf
  | launched ht hn hys hrole he heff hr =>
    rw [← Service.replay_append] at he hr
    rw [← List.append_assoc]
    exact .launched (ht.of_same hsame) (by rw [← hsame.nodesIn]; exact hn) (hquiet hys) hrole he heff hr

section
variable {rt : Runtime} {env : Env} {s t : State} {es : List Event}

theorem requested_cases {body : Dict} {key : Text} {default : ParamName} {r : Except Exn Json}
    (h : Steps env.service (requested rt body key default) s r es t) {value : Json} (hr : r = .ok value) :
    requestedValue rt s.world body key default = some value := by
  subst hr
  rw [requested] at h
  rw [requestedValue]
  cases hv : (body.get key).filter Json.truthy with
  | some v =>
    rw [hv] at h
    exact congrArg some (Except.ok.inj (Steps.pure_iff.mp h).1).symm
  | none =>
    rw [hv] at h
    rcases h.bind_cases with ⟨raw,u,xs,ys,h1,h2,-⟩ | ⟨x,-,hx⟩
    · obtain ⟨-,hraw,-⟩ := getParameter_cases h1
      dsimp only
      rw [hraw,Option.map_some]
      exact congrArg some (Except.ok.inj (Steps.pure_iff.mp h2).1).symm
    · cases hx

theorem hasRole_launchTags (env : Env) (w : World) {request : RunInstances} {hostname launchedAt expiresAt : Text}
    (h : request.tags = launchTags hostname launchedAt expiresAt) : hasRole (env.launched w request) = true := by
  have hne : text "Name" ≠ tagRole := by decide
  rw [hasRole,Env.launched,h]
  simp [launchTags,hne]

/-- The document of a launch has the keys of the absent one, in its order. -/
theorem launchDocument_eq (region instanceId hostname expiresAt : Text) :
    launchDocument region instanceId hostname expiresAt =
      [(text "state",.str (text "pending")),(text "region",.str region),(text "instance_id",.str instanceId),
        (text "public_ip",.null),(text "tailnet",.str (text "unknown")),(text "hostname",.str hostname),
        (text "age",.str (text "0m")),
        (text "expires_at",if expiresAt = Ttl.never then .null else .str expiresAt),(text "idle_for",.null)] := rfl

theorem launchDocument_reports (region instanceId hostname expiresAt : Text) :
    Reports (respond 200 (launchDocument region instanceId hostname expiresAt)) (.str region) (.str instanceId) := by
  rw [launchDocument_eq]
  exact ⟨_,rfl,rfl,rfl⟩

/-- A quiet part either ends the run or leaves it to the rest. -/
theorem UpRun.bind_quiet {α : Type} {body : Dict} {m : Program Exn α} {f : α → Program Exn Response} (hm : Quiet m)
    {r : Except Exn Response} (h : Steps env.service (m >>= f) s r es t)
    (hf : ∀ a u xs ys, Steps env.service m s (.ok a) xs u → Steps env.service (f a) u r ys t →
      UpRun rt env body u.world r ys) : UpRun rt env body s.world r es := by
  rcases h.bind_cases with ⟨a,u,xs,ys,h1,h2,rfl⟩ | ⟨x,h1,rfl⟩
  · refine .prepend (hm h1) ?_
    rw [← h1.world]
    exact hf a u xs ys h1 h2
  · exact .declined (hm h1) (by simp)

/-- From the launch on. -/
theorem launch_cases {body : Dict} {region hostname launchedAt expiresAt ami instanceType sgId clientToken : Text}
    {userData : UserData} {r : Except Exn Response} (ht : Target rt body s.world region)
    (hn : s.world.nodesIn region = []) (h : Steps env.service (do
      let instanceId ← launch region ami instanceType sgId userData (launchTags hostname launchedAt expiresAt)
        clientToken
      writePointer rt.controlRegion .currentNode (some ⟨.str region,.str instanceId⟩)
      pure (respond 200 (launchDocument region instanceId hostname expiresAt))) s r es t) :
    UpRun rt env body s.world r es := by
  rcases h.bind_cases with ⟨instanceId,u,xs,ys,h1,h2,rfl⟩ | ⟨x,h1,rfl⟩
  · obtain ⟨-,⟨a,n,ha,rfl,hanswer⟩ | ⟨e,b,n,ha,-,-⟩⟩ := call_cases h1
    · obtain rfl := Except.ok.inj ha
      obtain rfl := Except.ok.inj hanswer
      rcases h2.bind_cases with ⟨_,v,ys,zs,h3,h4,rfl⟩ | ⟨x,h3,rfl⟩
      · obtain ⟨rfl,rfl,rfl⟩ := Steps.pure_iff.mp h4
        rcases writePointer_cases h3 with ⟨-,rfl⟩ | ⟨e,b,hr,-⟩
        · change UpRun _ _ _ _ _ ([] ++ [_,_])
          refine .launched ht hn (by simp) (hasRole_launchTags env _ rfl) rfl (fun _ => rfl) ?_
          rintro _ ⟨⟩
          exact ⟨rfl,launchDocument_reports _ _ _ _⟩
        · cases hr
      · rcases writePointer_cases h3 with ⟨hr,-⟩ | ⟨e,b,-,rfl⟩
        · cases hr
        · change UpRun _ _ _ _ _ ([] ++ [_,_])
          exact .launched ht hn (by simp) (hasRole_launchTags env _ rfl) rfl (by simp [Event.succeeded]) (by simp)
    · cases ha
  · obtain ⟨-,⟨a,n,ha,-,-⟩ | ⟨e,b,n,-,rfl,-⟩⟩ := call_cases h1
    · cases ha
    · change UpRun _ _ _ _ _ ([] ++ [_])
      exact .failed ht hn (by simp) rfl (hasRole_launchTags env _ rfl) rfl

theorem launchNode_cases {body : Dict} {region expiresAt : Text} {now : DateTime} {r : Except Exn Response}
    (ht : Target rt body s.world region) (hn : s.world.nodesIn region = [])
    (h : Steps env.service (launchNode rt region now expiresAt) s r es t) : UpRun rt env body s.world r es := by
  have hnext : ∀ {v w : World}, Same v w → Target rt body v region ∧ v.nodesIn region = [] →
      Target rt body w region ∧ w.nodesIn region = [] := by
    rintro v w hsame ⟨ht,hn⟩
    exact ⟨ht.of_same hsame.symm,by rw [hsame.nodesIn]; exact hn⟩
  refine UpRun.bind_quiet tokenHex_frugal.quiet h fun suffix s₁ _ _ k₁ h => ?_
  have hs := hnext (Quiet.same tokenHex_frugal.quiet k₁) ⟨ht,hn⟩
  refine UpRun.bind_quiet (prepareLaunch_frugal _).quiet h fun prepared s₂ _ _ k₂ h => ?_
  have hs := hnext (Quiet.same (prepareLaunch_frugal _).quiet k₂) hs
  refine UpRun.bind_quiet (mintKey_quiet _) h fun authkey s₃ _ _ k₃ h => ?_
  have hs := hnext (Quiet.same (mintKey_quiet _) k₃) hs
  refine UpRun.bind_quiet (ofExcept_only _) h fun userData s₄ _ _ k₄ h => ?_
  have hs := hnext (Quiet.same (ofExcept_only _) k₄) hs
  refine UpRun.bind_quiet (ofExcept_only _) h fun launchedAt s₅ _ _ k₅ h => ?_
  have hs := hnext (Quiet.same (ofExcept_only _) k₅) hs
  exact launch_cases hs.1 hs.2 h

theorem recoverNode_cases {body : Dict} {region : Text} {i : Instance} {r : Except Exn Response}
    (ht : Target rt body s.world region) (hi : i ∈ s.world.nodesIn region)
    (h : Steps env.service (recoverNode rt region i) s r es t) : UpRun rt env body s.world r es := by
  rcases h.bind_cases with ⟨_,u,xs,ys,h1,h2,rfl⟩ | ⟨x,h1,rfl⟩
  · rcases writePointer_cases h1 with ⟨-,rfl⟩ | ⟨e,b,hr,-⟩
    · have hnodes : u.world.nodesIn region = s.world.nodesIn region := by
        rw [h1.world]
        rfl
      have hi' : i ∈ u.world.nodesIn region := by rwa [hnodes]
      rcases h2.bind_cases with ⟨document,v,ys,zs,h3,h4,rfl⟩ | ⟨x,h3,rfl⟩
      · obtain ⟨rfl,rfl,-⟩ := Steps.pure_iff.mp h4
        change UpRun _ _ _ _ _ ([] ++ _ :: _)
        refine .recovered ht hi (by simp) rfl (by simpa using (describe_frugal _).quiet h3) (fun _ => rfl) ?_
        rintro _ ⟨⟩
        refine ⟨rfl,document,rfl,?_⟩
        obtain ⟨region',hregion,⟨hnil,-⟩ | ⟨j,hj,hd⟩⟩ := describe_cases h3 rfl
        · obtain rfl : region = region' := clientRegion_str hregion
          rw [hnil] at hi'
          cases hi'
        · obtain rfl : region = region' := clientRegion_str hregion
          obtain rfl := hj.2 i hi' rfl
          exact ⟨hd.region,hd.instanceId⟩
      · change UpRun _ _ _ _ _ ([] ++ _ :: _)
        exact .recovered ht hi (by simp) rfl ((describe_frugal _).quiet h3) (fun _ => rfl) (by simp)
    · cases hr
  · rcases writePointer_cases h1 with ⟨hr,-⟩ | ⟨e,b,-,rfl⟩
    · cases hr
    · change UpRun _ _ _ _ _ ([] ++ _ :: [])
      exact .recovered ht hi (by simp) rfl (by simp) (by simp [Event.succeeded]) (by simp)

theorem upRegion_cases {body : Dict} {region expiresAt : Text} {now : DateTime} {r : Except Exn Response}
    (ht : Target rt body s.world region)
    (h : Steps env.service (upRegion rt region now expiresAt) s r es t) : UpRun rt env body s.world r es := by
  refine UpRun.bind_quiet (findNodes_frugal _).quiet h fun found u _ _ k h => ?_
  obtain ⟨hw,-,⟨nodes,hnodes,hperm,-⟩ | ⟨e,b,hr,-⟩⟩ := findNodes_cases k
  · obtain rfl := Except.ok.inj hnodes
    rw [← hw] at ht hperm
    cases found with
    | nil => exact launchNode_cases ht hperm.symm.eq_nil h
    | cons first rest => exact recoverNode_cases ht (hperm.mem_iff.mp List.mem_cons_self) h
  · cases hr

theorem requestedExpiry_quiet (body : Dict) (now : DateTime) : Quiet (requestedExpiry rt body now) :=
  .bind (requested_frugal _ _ _).quiet fun _ => ofExcept_only _

theorem regionOf_some {region : Json} {regions : List Text} {r : Text} (h : regionOf region regions = some r) :
    region = .str r ∧ r ∈ regions := by
  cases region with
  | str t =>
    rw [regionOf] at h
    split at h
    · cases h
      exact ⟨rfl,by assumption⟩
    · cases h
  | _ => cases h

theorem upUntracked_cases {body : Dict} {r : Except Exn Response} (hu : Untracked rt s.world)
    (h : Steps env.service (upUntracked rt body) s r es t) : UpRun rt env body s.world r es := by
  have hregions_quiet : Quiet (validRegions rt.controlRegion) := .call rfl
  refine UpRun.bind_quiet hregions_quiet h fun regions s₁ _ _ k₁ h => ?_
  obtain ⟨-,⟨a,n,ha,-,hanswer⟩ | ⟨e,b,n,ha,-,-⟩⟩ := call_cases k₁
  · obtain rfl := Except.ok.inj ha
    obtain rfl := Except.ok.inj hanswer
    have hsame₁ := Quiet.same hregions_quiet k₁
    refine UpRun.bind_quiet (requested_frugal _ _ _).quiet h fun region s₂ _ _ k₂ h => ?_
    have hsame₂ := hsame₁.trans (Quiet.same (requested_frugal _ _ _).quiet k₂)
    cases hregion : regionOf region (env.regionOrder n s.world.regions) with
    | none =>
      rw [hregion] at h
      obtain ⟨rfl,rfl,-⟩ := Steps.pure_iff.mp h
      refine .declined (by simp) ?_
      rintro _ ⟨⟩
      rfl
    | some target =>
      rw [hregion] at h
      obtain ⟨rfl,hmem⟩ := regionOf_some hregion
      have hresolves := requested_cases k₂ rfl
      refine UpRun.bind_quiet now_only h fun now s₃ _ _ k₃ h => ?_
      have hsame₃ := hsame₂.trans (Quiet.same now_only k₃)
      refine UpRun.bind_quiet (.attempt (requestedExpiry_quiet _ _)) h fun v s₄ _ _ k₄ h => ?_
      have hsame₄ := hsame₃.trans (Quiet.same (.attempt (requestedExpiry_quiet _ _)) k₄)
      have ht : Target rt body s.world target := by
        refine ⟨hu,?_,(env.regionOrder_perm _ _).mem_iff.mp hmem⟩
        rw [Resolves,← Same.requestedValue hsame₁]
        exact hresolves
      cases v with
      | error e =>
        dsimp only at h
        split at h
        · obtain ⟨rfl,rfl,-⟩ := Steps.pure_iff.mp h
          refine .declined (by simp) ?_
          rintro _ ⟨⟩
          rfl
        · obtain ⟨rfl,rfl,-⟩ := Steps.throw_iff.mp h
          exact .declined (by simp) (by simp)
      | ok expiresAt => exact upRegion_cases (ht.of_same hsame₄.symm) h
  · cases ha

/-- Every request to go up runs in one of the five ways. -/
theorem up_cases {body : Dict} {r : Except Exn Response} (h : Steps env.service (up rt body) s r es t) :
    UpRun rt env body s.world r es := by
  refine UpRun.bind_quiet (readPointer_frugal _ _).quiet h fun pointer s₁ _ _ k₁ h => ?_
  obtain ⟨hw,-,hstored | ⟨x,hx⟩⟩ := readPointer_cases k₁
  · rw [← hw] at hstored
    cases pointer with
    | none =>
      refine upUntracked_cases ?_ h
      intro p hp
      rw [← hstored] at hp
      cases hp
    | some p =>
      rcases h.bind_cases with ⟨existing,s₂,xs,ys,k₂,h₂,rfl⟩ | ⟨x,k₂,rfl⟩
      · obtain ⟨region,hregion,hcases⟩ := describe_cases k₂ rfl
        have hsame₂ := Quiet.same (describe_frugal _).quiet k₂
        rcases hcases with ⟨hnil,rfl⟩ | ⟨i,hi,hd⟩
        · rw [if_neg (by decide)] at h₂
          refine .prepend ((describe_frugal _).quiet k₂) ?_
          rw [← k₂.world]
          refine upUntracked_cases (Same.untracked hsame₂.symm ?_) h₂
          intro q hq
          rw [← hstored] at hq
          obtain rfl : p = q := Option.some.inj (Except.ok.inj hq)
          exact ⟨region,hregion,hnil⟩
        · rw [if_pos hd.present] at h₂
          obtain ⟨rfl,rfl,-⟩ := Steps.pure_iff.mp h₂
          rw [List.append_nil]
          exact .tracked ((describe_frugal _).quiet k₂) hstored.symm hregion hi ⟨existing,rfl,hd.region,hd.instanceId⟩
      · exact .declined ((describe_frugal _).quiet k₂) (by simp)
  · cases hx

end

/-! ## The nodes it leaves -/

section
variable {rt : Runtime} (env : Env) {w : World} {p : Option Pointer} {e : Event} {xs : List Event}

theorem nodes_recovered {ys : List Event} (hxs : ∀ e ∈ xs, e.call.quiet = true) (he : e.call = pointerWrite rt p)
    (hys : ∀ e ∈ ys, e.call.quiet = true) : (env.service.replay w (xs ++ e :: ys)).nodes = w.nodes := by
  refine replay_keepsNodes env ?_ w
  intro f hf
  rcases List.mem_append.mp hf with hf | hf
  · exact Call.quiet_keepsNodes (hxs f hf)
  · rcases List.mem_cons.mp hf with rfl | hf
    · rw [he]
      rfl
    · exact Call.quiet_keepsNodes (hys f hf)

theorem nodes_launched {region : Text} {request : RunInstances} (hxs : ∀ e ∈ xs, e.call.quiet = true)
    (hrole : hasRole (env.launched w request) = true) (he : e.call = pointerWrite rt p) :
    (env.service.replay w (xs ++ [⟨.runInstances region request,none,true⟩,e])).nodes =
      w.nodes ++ [(region,env.launched (env.service.replay w xs) request)] := by
  have hwrite : ∀ f ∈ [e], f.call.keepsNodes = true := by
    simp [he,pointerWrite,Call.keepsNodes]
  rw [Service.replay_append,← List.singleton_append,Service.replay_append,replay_keepsNodes env hwrite,
    ← (replay_quiet env hxs w).nodes]
  exact nodes_run env region request (env.service.replay w xs) hrole

end

end ShardVPN.Handler
