import ShardVPN.Program.Handler
import ShardVPN.Program.Specs

/-! # Calls without effect, and the document of a node

Most of a request reads: the Tailscale client, the metrics, the requested values, the
preparation of a launch. Describing a pointer selects the node it names when that one
is live, and otherwise any node of its region.
-/
namespace ShardVPN.Handler
open Effect Time Ec2ops Settings

/-- Requests for an auth key. -/
def mints : Call → Bool
  | .urlopen request _ => request.url = Tailscale.api ++ text "/tailnet/-/keys"
  | _ => false

theorem urls_ne : Tailscale.api ++ text "/oauth/token" ≠ Tailscale.api ++ text "/tailnet/-/keys" ∧
    Tailscale.api ++ text "/tailnet/-/devices" ≠ Tailscale.api ++ text "/tailnet/-/keys" := by decide +kernel

theorem frugal_urlopen {request : Request} {timeout : ℕ}
    (h : request.url ≠ Tailscale.api ++ text "/tailnet/-/keys") :
    (Call.urlopen request timeout).quiet = true ∧ mints (.urlopen request timeout) = false :=
  ⟨rfl,decide_eq_false h⟩

/-- Every call the action can make is quiet. -/
abbrev Quiet {X α : Type} (m : Program X α) : Prop := Only (fun c => c.quiet = true) m

/-- Every call the action can make is quiet and mints no key. -/
abbrev Frugal {X α : Type} (m : Program X α) : Prop := Only (fun c => c.quiet = true ∧ mints c = false) m

theorem Frugal.quiet {X α : Type} {m : Program X α} (h : Frugal m) : Quiet m := h.mono fun _ => And.left

section
variable {rt : Runtime}

theorem defaultClient_only {Q : Call → Prop} (hQ : Q (.getParameter rt.controlRegion ParamName.defaultRegion.path false)) :
    Only Q (defaultClient rt) := .bind (.call hQ) fun _ => ofExcept_only _

theorem defaultClient_cases {env : Env} {s t : State} {es : List Event} {region : Text}
    (h : Steps env.service (defaultClient rt) s (.ok region) es t) :
    s.world.parameters rt.controlRegion ParamName.defaultRegion.path = some region := by
  obtain ⟨default,u,xs,ys,h1,h2,-⟩ := h.bind_ok
  obtain ⟨-,hdefault,-⟩ := getParameter_cases h1
  rw [← clientRegion_str (ofExcept_cases h2).1.symm]
  exact hdefault

theorem callApi_only {Q : Call → Prop} {request : Request} (hQ : Q (.urlopen request Tailscale.timeout)) :
    Only Q (Tailscale.callApi request) := by
  refine .bind (.attempt (.call hQ)) fun r => ?_
  split
  · exact .throw _
  · exact .throw _
  · split
    · exact .pure _
    · exact .throw _

/-- The calls that describe a node are of a kind. -/
structure Describing (Q : Call → Prop) : Prop where
  secret : ∀ region (name : ParamName), Q (.getParameter region name.path true)
  api : ∀ request : Request, request.url ≠ Tailscale.api ++ text "/tailnet/-/keys" →
    Q (.urlopen request Tailscale.timeout)
  metric : ∀ region query, Q (.getMetricStatistics region query)
  scan : ∀ region, Q (.describeInstances region nodeFilters)

section
variable {Q : Call → Prop}

theorem Describing.tailscaleToken (h : Describing Q) : Only Q (Handler.tailscaleToken rt) := by
  refine .bind now_only fun _ => .bind (cachedSecret_only _ _ _ (h.secret _ _)) fun clientId => ?_
  refine .bind now_only fun _ => .bind (cachedSecret_only _ _ _ (h.secret _ _)) fun clientSecret => ?_
  exact .bind (ofOption_only _ _) fun _ => .bind (callApi_only (h.api _ urls_ne.1)) fun _ => ofExcept_only _

theorem Describing.lookupDevice (h : Describing Q) (hostname : Option Text) :
    Only Q (Handler.lookupDevice rt hostname) := by
  refine .bind h.tailscaleToken fun _ => .bind (callApi_only (h.api _ urls_ne.2)) fun _ => ?_
  exact .bind (ofExcept_only _) fun _ => .bind (ofExcept_only _) fun _ => .bind (ofExcept_only _) fun _ => .pure _

theorem Describing.tailnetOnline (h : Describing Q) (i : Instance) : Only Q (Handler.tailnetOnline rt i) := by
  refine .bind (.attempt (h.lookupDevice _)) fun r => ?_
  split
  · exact .pure _
  · exact .pure _
  · exact .throw _

theorem Describing.idleFor (h : Describing Q) (region : Text) (i : Instance) (now : DateTime) :
    Only Q (Handler.idleFor region i now) := by
  rw [Handler.idleFor]
  split
  · refine .bind (.attempt ?_) fun r => ?_
    · exact .bind (ofOption_only _ _) fun _ => .bind (.call (h.metric _ _)) fun _ => .pure _
    split
    · exact .pure _
    · exact .pure _
  · exact .pure _

theorem Describing.document (h : Describing Q) (pointer : Pointer) (region : Text) (i : Instance) :
    Only Q (Handler.document rt pointer region i) :=
  .bind now_only fun _ => .bind (h.tailnetOnline _) fun _ => .bind (h.idleFor _ _ _) fun _ => .pure _

theorem Describing.describe (h : Describing Q) (pointer : Option Pointer) : Only Q (Handler.describe rt pointer) := by
  cases pointer with
  | none => exact .pure _
  | some pointer =>
    refine .bind (ofExcept_only _) fun region => .bind (.bind (.call (h.scan _)) fun _ => .pure _) fun nodes => ?_
    split
    · exact .pure _
    · exact h.document _ _ _

end

theorem frugal_describing : Describing (fun c => c.quiet = true ∧ mints c = false) where
  secret _ _ := ⟨rfl,rfl⟩
  api _ := frugal_urlopen
  metric _ _ := ⟨rfl,rfl⟩
  scan _ := ⟨rfl,rfl⟩

theorem tailscaleToken_frugal : Frugal (tailscaleToken rt) := frugal_describing.tailscaleToken

theorem describe_frugal (pointer : Option Pointer) : Frugal (describe rt pointer) := frugal_describing.describe _

theorem findNodes_frugal (region : Text) : Frugal (findNodes region) := findNodes_only region ⟨rfl,rfl⟩

theorem readPointer_frugal (region : Text) (name : ParamName) : Frugal (readPointer region name) :=
  readPointer_only region name ⟨rfl,rfl⟩

theorem requested_frugal (body : Dict) (key : Text) (default : ParamName) :
    Frugal (requested rt body key default) := by
  rw [requested]
  split
  · exact .pure _
  · exact .bind (.call ⟨rfl,rfl⟩) fun _ => .pure _

theorem prepareLaunch_frugal (region : Text) : Frugal (prepareLaunch rt region) := by
  refine .bind (.call ⟨rfl,rfl⟩) fun _ => .bind (.call ⟨rfl,rfl⟩) fun _ => .bind ?_ fun _ => .pure _
  refine .bind (.bind (.call ⟨rfl,rfl⟩) fun vpcs => ?_) fun vpcId => .bind (.call ⟨rfl,rfl⟩) fun existing => ?_
  · split
    · exact .throw _
    · exact .pure _
  · split
    · split
      · exact .throw _
      · exact .pure _
    · exact .call ⟨rfl,rfl⟩

theorem mintKey_quiet (hostname : Text) : Quiet (mintKey rt hostname) :=
  .bind tailscaleToken_frugal.quiet fun _ => .bind (ofOption_only _ _) fun _ => .bind (callApi_only rfl) fun _ =>
    ofExcept_only _

theorem tokenHex_frugal {X : Type} : Frugal (Program.tokenHex : Program X Text) :=
  .bind .getProc fun _ => .bind (.setProc _) fun _ => .pure _

end

section
variable {rt : Runtime} {env : Env} {s t : State} {es : List Event}

theorem Quiet.same {X α : Type} {m : Program X α} (hm : Quiet m) {r : Except X α}
    (h : Steps env.service m s r es t) : Same s.world t.world := by
  rw [h.world]
  exact replay_quiet env (hm h) s.world

/-! ## The document -/

/-- What a document says of region, instance and state. -/
structure Describes (document : Dict) (region : Json) (i : Instance) : Prop where
  region : document.get (text "region") = some region
  instanceId : document.get (text "instance_id") = some (.str i.instanceId)
  state : document.get (text "state") = some (.str i.state.name)

theorem describeInstance_describes (i : Instance) (region : Json) (online : Option Bool)
    (idleSeconds : Option ℤ) (now : DateTime) :
    Describes (Statusdoc.build (some i) region online idleSeconds now) region i := ⟨rfl,rfl,rfl⟩

theorem Describes.present {document : Dict} {region : Json} {i : Instance} (h : Describes document region i) :
    document.get (text "state") ≠ some (.str (text "absent")) := by
  have hname : ∀ st : InstanceState, st.name ≠ text "absent" := by
    intro st
    cases st <;> decide
  rw [h.state]
  simpa using hname i.state

theorem document_cases {pointer : Pointer} {region : Text} {i : Instance} {r : Except Exn Dict}
    (h : Steps env.service (document rt pointer region i) s r es t) {d : Dict} (hr : r = .ok d) :
    Describes d pointer.region i := by
  rcases h.bind_cases with ⟨now,u,xs,ys,-,h2,-⟩ | ⟨x,-,hx⟩
  · rcases h2.bind_cases with ⟨online,u',xs,zs,-,h3,-⟩ | ⟨x,-,hx⟩
    · rcases h3.bind_cases with ⟨idle,u'',xs,zs,-,h4,-⟩ | ⟨x,-,hx⟩
      · have hd := (Steps.pure_iff.mp h4).1
        rw [hr] at hd
        obtain rfl := Except.ok.inj hd
        exact describeInstance_describes _ _ _ _ _
      · rw [hr] at hx
        cases hx
    · rw [hr] at hx
      cases hx
  · rw [hr] at hx
    cases hx

/-- The selected instance is one of those given, and the named one when it is there. -/
theorem selectInstance_cases (first : Instance) (rest : List Instance) (instanceId : Json) :
    selectInstance first rest instanceId ∈ first :: rest ∧
      ∀ j ∈ first :: rest, j.instanceId ≠ [] → instanceId = .str j.instanceId →
        (selectInstance first rest instanceId).instanceId = j.instanceId := by
  rw [selectInstance]
  split
  · cases hf : (first :: rest).find? (fun i => decide (Json.str i.instanceId = instanceId)) with
    | none =>
      refine ⟨List.mem_cons_self,?_⟩
      rintro j hj - rfl
      have hne := List.find?_eq_none.mp hf j hj
      simp at hne
    | some k =>
      refine ⟨List.mem_of_find?_eq_some hf,?_⟩
      rintro j - - rfl
      simpa using List.find?_some hf
  · rename_i hfalsy
    refine ⟨List.mem_cons_self,?_⟩
    rintro j - hne rfl
    simp [Json.truthy,hne] at hfalsy

/-- The instance a pointer stands for among the live nodes of its region. -/
def Selected (w : World) (region : Text) (pointer : Pointer) (i : Instance) : Prop :=
  i ∈ w.nodesIn region ∧ ∀ j ∈ w.nodesIn region, pointer.instanceId = .str j.instanceId → i = j

theorem describe_cases {pointer : Pointer} {r : Except Exn Dict}
    (h : Steps env.service (describe rt (some pointer)) s r es t) {d : Dict} (hr : r = .ok d) :
    ∃ region, clientRegion rt pointer.region = .ok region ∧
      (s.world.nodesIn region = [] ∧ d = Statusdoc.absent ∨
        ∃ i, Selected s.world region pointer i ∧ Describes d pointer.region i) := by
  subst hr
  rcases h.bind_cases with ⟨region,u,xs,ys,h1,h2,-⟩ | ⟨x,-,hx⟩
  · obtain ⟨hregion,-,rfl⟩ := ofExcept_cases h1
    refine ⟨region,hregion.symm,?_⟩
    rcases h2.bind_cases with ⟨nodes,u',xs,zs,h3,h4,-⟩ | ⟨x,-,hx⟩
    · obtain ⟨hw,-,⟨nodes',hn,hperm,-⟩ | ⟨e,b,hn,-⟩⟩ := findNodes_cases h3
      · obtain rfl := Except.ok.inj hn
        cases nodes with
        | nil =>
          left
          exact ⟨hperm.symm.eq_nil,Except.ok.inj (Steps.pure_iff.mp h4).1⟩
        | cons first rest =>
          right
          obtain ⟨hmem,hnamed⟩ := selectInstance_cases first rest pointer.instanceId
          refine ⟨_,⟨hperm.mem_iff.mp hmem,?_⟩,document_cases h4 rfl⟩
          intro j hj hid
          have hjnode := mem_nodesIn.mp hj
          have heq := hnamed j (hperm.mem_iff.mpr hj) (node_id_ne_nil hjnode) hid
          exact congrArg Prod.snd (node_unique (mem_nodesIn.mp (hperm.mem_iff.mp hmem)) hjnode heq)
      · cases hn
    · cases hx
  · cases hx

end

end ShardVPN.Handler
