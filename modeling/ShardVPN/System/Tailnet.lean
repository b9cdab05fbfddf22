import ShardVPN.Request.Degrade
import ShardVPN.System.Calls
import ShardVPN.System.Runs

/-! # Whose device makes a node online

The tailnet beside the account: a node that joins puts a device on the list under the
hostname of its tag, and a device may stay there long after its node. An answer of
`online` rests on a listed device, though not always on that of the node itself.
-/
namespace ShardVPN.System
open Effect Time Ec2ops Settings Handler

/-- A tagged device on the list: the instance that joined, and its hostname. -/
structure Device where
  owner : Text
  hostname : Text
deriving DecidableEq

structure Tailnet where
  world : World
  devices : List Device

/-- A step of the account, the join of a live node, or a device leaving the list. -/
inductive Move
  | system (l : Label)
  | join (instanceId : Text)
  | forget (d : Device)

/-- What a join puts on the list. -/
def joined (w : World) (instanceId : Text) : Option Device :=
  match w.nodes.find? (fun n => n.2.instanceId = instanceId) with
  | some n => (tagValue n.2 tagHostname).map (⟨instanceId,·⟩)
  | none => none

/-- The tailnet after a move. -/
def moved (rt : Runtime) (s : Tailnet) : Move → Tailnet
  | .system l => ⟨after rt s.world l,s.devices⟩
  | .join instanceId => ⟨s.world,(joined s.world instanceId).toList ++ s.devices⟩
  | .forget d => ⟨s.world,s.devices.erase d⟩

/-! ## Hostnames -/

/-- The ids of all instances with the hostnames of their tags. -/
def hostnames (w : World) : List (Text × Option Text) :=
  w.instances.map (fun n => (n.2.instanceId,tagValue n.2 tagHostname))

/-- Instances keep their hostnames, and new ones have none or one that is not empty. -/
def Grows (v w : World) : Prop := ∃ ps, hostnames w = hostnames v ++ ps ∧ ∀ p ∈ ps, p.2 ≠ some []

theorem Grows.of_eq {v w : World} (h : hostnames w = hostnames v) : Grows v w := ⟨[],by simp [h],by simp⟩

theorem Grows.trans {u v w : World} (h : Grows u v) (k : Grows v w) : Grows u w := by
  obtain ⟨ps,hps,hp⟩ := h
  obtain ⟨qs,hqs,hq⟩ := k
  refine ⟨ps ++ qs,by rw [hqs,hps,List.append_assoc],?_⟩
  intro p hmem
  rcases List.mem_append.mp hmem with hmem | hmem
  · exact hp p hmem
  · exact hq p hmem

theorem hostnames_map {w : World} {f : Text → Instance → Instance} (hid : ∀ r i, (f r i).instanceId = i.instanceId)
    (htag : ∀ r i, tagValue (f r i) tagHostname = tagValue i tagHostname) :
    hostnames (w.mapInstances f hid) = hostnames w := by
  unfold hostnames World.mapInstances
  rw [List.map_map]
  refine List.map_congr_left ?_
  intro n _
  rw [Function.comp_apply,hid,htag]

theorem grows_effect {rt : Runtime} (env : Env) {c : Call} (h : ProgramCall rt c) (w : World) :
    Grows w (env.effect c w) := by
  cases h with
  | quiet hc =>
    refine .of_eq ?_
    unfold hostnames
    rw [(env.effect_quiet hc w).instances]
  | writePointer value => exact .of_eq rfl
  | terminate region instanceId =>
    refine .of_eq (hostnames_map _ ?_)
    intro r i
    split <;> rfl
  | stamp ht =>
    refine .of_eq (hostnames_map _ ?_)
    intro r i
    split
    · exact tagValue_setTag_of_ne i (by rw [ht]; decide)
    · rfl
  | launch hne htags =>
    rename_i region hostname launchedAt expiresAt request
    refine ⟨_,List.map_append,?_⟩
    intro p hp
    rw [List.map_singleton,List.mem_singleton] at hp
    rw [hp]
    change tagValue (env.launched w request) tagHostname ≠ some []
    have htag : tagValue (env.launched w request) tagHostname = some hostname := by
      unfold tagValue Env.launched
      rw [htags]
      have hkeys : text "Name" ≠ tagHostname ∧ tagRole ≠ tagHostname ∧ tagLaunched ≠ tagHostname ∧
          tagExpires ≠ tagHostname := by decide
      simp [launchTags,hkeys]
    rw [htag]
    exact fun heq => hne (Option.some.inj heq)

theorem grows_after (rt : Runtime) (w : World) (l : Label) : Grows w (after rt w l) := by
  cases l with
  | invoke i =>
    change Grows w (i.after rt w)
    rw [i.after_eq]
    exact Service.replay_rel (R := Grows) (fun w => .of_eq rfl) (fun _ _ _ => Grows.trans) (Q := ProgramCall rt)
      (fun c w hc => grows_effect i.env hc w) (lambdaHandler_programmed i.requestId i.event (i.steps w)) w
  | setDefault d value => exact .of_eq rfl
  | nodeEnds instanceId =>
    refine .of_eq (hostnames_map _ ?_)
    intro r i
    unfold ended
    split <;> rfl
  | nodeBoots instanceId publicIp =>
    refine .of_eq (hostnames_map _ ?_)
    intro r i
    unfold booted
    split <;> rfl

/-! ## The invariant -/

/-- No hostname is empty, and every listed device is under the hostname of the instance that joined. -/
structure Valid (s : Tailnet) : Prop where
  named : ∀ p ∈ hostnames s.world, p.2 ≠ some []
  owned : ∀ d ∈ s.devices, (d.owner,some d.hostname) ∈ hostnames s.world

/-- An account without instances, and an empty list. -/
theorem valid_empty {w : World} (hw : w.instances = []) : Valid ⟨w,[]⟩ where
  named := by simp [hostnames,hw]
  owned := by simp

theorem joined_owned {w : World} {instanceId : Text} {d : Device} (h : joined w instanceId = some d) :
    (d.owner,some d.hostname) ∈ hostnames w := by
  unfold joined at h
  cases hfind : w.nodes.find? (fun n => n.2.instanceId = instanceId) with
  | none =>
    rw [hfind] at h
    cases h
  | some n =>
    rw [hfind] at h
    dsimp only at h
    obtain ⟨hostname,htag,rfl⟩ := Option.map_eq_some_iff.mp h
    have hid : n.2.instanceId = instanceId := by simpa using List.find?_some hfind
    refine List.mem_map.mpr ⟨n,(List.mem_filter.mp (List.mem_of_find?_eq_some hfind)).1,?_⟩
    rw [htag,hid]

/-- Every move keeps the invariant. -/
theorem Valid.moved {rt : Runtime} {s : Tailnet} (h : Valid s) (m : Move) : Valid (moved rt s m) := by
  cases m with
  | system l =>
    obtain ⟨ps,hps,hne⟩ := grows_after rt s.world l
    refine ⟨?_,?_⟩
    · intro p hp
      change p ∈ hostnames (after rt s.world l) at hp
      rw [hps] at hp
      rcases List.mem_append.mp hp with hp | hp
      · exact h.named p hp
      · exact hne p hp
    · intro d hd
      change _ ∈ hostnames (after rt s.world l)
      rw [hps]
      exact List.mem_append_left _ (h.owned d hd)
  | join instanceId =>
    refine ⟨h.named,?_⟩
    intro d hd
    rcases List.mem_append.mp hd with hd | hd
    · exact joined_owned (Option.mem_toList.mp hd)
    · exact h.owned d hd
  | forget d => exact ⟨h.named,fun e he => h.owned e (List.mem_of_mem_erase he)⟩

/-- So does every run. -/
theorem Valid.run (rt : Runtime) {s : Tailnet} (h : Valid s) (ms : List Move) :
    Valid (run (System.moved rt) s ms) := by
  induction ms generalizing s with
  | nil => exact h
  | cons m ms ih => exact ih (h.moved m)

/-! ## What `status` says of the tailnet -/

/-- The tagged devices of a listing stand for the devices on the list, in some order. -/
def Lists (tag : Text) (devices : List Device) (listing : Json) : Prop :=
  ∃ fields items kept, listing = .obj fields ∧
    Tailscale.elements ((Dict.get fields (text "devices")).getD (.arr [])) = .ok items ∧
    Tailscale.tagged tag items = .ok kept ∧ ∃ shown, shown.Perm devices ∧
      List.Forall₂ (fun item d => Tailscale.get item (text "hostname") = .ok (some (.str d.hostname))) kept shown

/-- Whenever the listing of devices is answered, it shows the list. -/
def Serves (rt : Runtime) (env : Env) (devices : List Device) : Prop :=
  ∀ token n body listing, env.http (devicesRequest token) n = .ok body → loadsBytes body = .ok listing →
    Lists rt.tsTag devices listing

/-- A status request is answered with the document of an instance that is online. -/
def ReportsOnline (rt : Runtime) (env : Env) (s : State) (instanceId : Text) : Prop :=
  ∃ d, ((status rt).exec env.service s).1 = .ok (respond 200 d) ∧
    Dict.get d (text "tailnet") = some (.str (text "online")) ∧
    Dict.get d (text "instance_id") = some (.str instanceId)

section
variable {rt : Runtime} {env : Env} {s t : State} {es : List Event}

theorem document_online {p : Pointer} {region : Text} {i : Instance} {d : Dict}
    (h : Steps env.service (document rt p region i) s (.ok d) es t)
    (honline : Dict.get d (text "tailnet") = some (.str (text "online"))) :
    ∃ device, lookupOutcome rt env s.world (lookupProc s.proc) s.trace (tagValue i tagHostname) =
      .ok (some device) := by
  rcases document_outcome h with ⟨online,idle,hd,-,⟨device,hl,rfl⟩ | ⟨detail,-,rfl⟩⟩ | ⟨e,-,-,hd⟩
  · cases device with
    | some device => exact ⟨device,hl⟩
    | none =>
      rw [Except.ok.inj hd] at honline
      exact absurd (Option.some.inj honline) (by decide)
  · rw [Except.ok.inj hd] at honline
    exact absurd (Option.some.inj honline) (by decide)
  · cases hd

theorem absent_offline : Dict.get Statusdoc.absent (text "tailnet") ≠ some (.str (text "online")) := by decide

/-- An answer of `online` rests on a device that the lookup found for the node described. -/
theorem describe_online {p : Option Pointer} {d : Dict} {n : Node} (hn : n ∈ s.world.nodes)
    (h : Steps env.service (describe rt p) s (.ok d) es t)
    (honline : Dict.get d (text "tailnet") = some (.str (text "online")))
    (hid : Dict.get d (text "instance_id") = some (.str n.2.instanceId)) :
    ∃ w q before device, lookupOutcome rt env w q before (tagValue n.2 tagHostname) = .ok (some device) := by
  cases p with
  | none =>
    obtain rfl := Except.ok.inj (Steps.pure_iff.mp h).1
    exact absurd honline absent_offline
  | some p =>
    rcases h.bind_cases with ⟨region,u,xs,ys,h1,h2,-⟩ | ⟨x,-,hx⟩
    · obtain ⟨-,-,rfl⟩ := ofExcept_cases h1
      rcases h2.bind_cases with ⟨nodes,v,xs,zs,h3,h4,-⟩ | ⟨x,-,hx⟩
      · obtain ⟨hw,-,⟨nodes',hnodes,hperm,-⟩ | ⟨e,b,hnodes,-⟩⟩ := findNodes_cases h3
        · obtain rfl := Except.ok.inj hnodes
          cases nodes with
          | nil =>
            obtain rfl := Except.ok.inj (Steps.pure_iff.mp h4).1
            exact absurd honline absent_offline
          | cons first rest =>
            obtain ⟨device,hl⟩ := document_online h4 honline
            have hmem := hperm.mem_iff.mp (selectInstance_cases first rest p.instanceId).1
            have hdescribed := (document_cases h4 rfl).instanceId.symm.trans hid
            have hsame := node_unique (mem_nodesIn.mp hmem) hn (Json.str.inj (Option.some.inj hdescribed))
            rw [← congrArg Prod.snd hsame]
            exact ⟨_,_,_,device,hl⟩
        · cases hnodes
      · cases hx
    · cases hx

theorem reportsOnline_lookup {n : Node} (hn : n ∈ s.world.nodes) (h : ReportsOnline rt env s n.2.instanceId) :
    ∃ w q before device, lookupOutcome rt env w q before (tagValue n.2 tagHostname) = .ok (some device) := by
  obtain ⟨d,hr,honline,hid⟩ := h
  have hsteps := (status rt).steps_exec env.service s
  rw [hr] at hsteps
  rcases hsteps.bind_cases with ⟨pointer,u,xs,ys,h1,h2,-⟩ | ⟨x,-,hx⟩
  · have hw := (readPointer_cases h1).1
    rcases h2.bind_cases with ⟨d',v,xs,zs,h3,h4,-⟩ | ⟨x,-,hx⟩
    · have hresponse := Except.ok.inj (Steps.pure_iff.mp h4).1
      obtain rfl : d = d' := Json.obj.inj (congrArg Response.payload hresponse)
      rw [← hw] at hn
      exact describe_online hn h3 honline hid
    · cases hx
  · cases hx

/-- An answered request was answered at some occurrence. -/
theorem answered_http {before : List Event} {w : World} {request : Request} {value : Json}
    (h : answered (apiReply env w before request) = some value) :
    ∃ n body, env.http request n = .ok body ∧ loadsBytes body = .ok value := by
  cases hreply : apiReply env w before request with
  | error e =>
    rw [hreply] at h
    cases h
  | ok body =>
    rw [hreply] at h
    unfold apiReply Service.reply at hreply
    refine ⟨Action.occurrences (.urlopen request Tailscale.timeout) before,body,?_,?_⟩
    · cases hfault : env.service.fault (.urlopen request Tailscale.timeout)
        (Action.occurrences (.urlopen request Tailscale.timeout) before) with
      | none =>
        rw [hfault] at hreply
        exact hreply
      | refused e =>
        rw [hfault] at hreply
        cases hreply
      | lost e =>
        rw [hfault] at hreply
        cases hreply
    · unfold answered at h
      cases hload : loadsBytes body with
      | ok v =>
        dsimp only at h
        rw [hload] at h
        exact congrArg Except.ok (Option.some.inj h)
      | error e =>
        dsimp only at h
        rw [hload] at h
        cases h

theorem shown_of_kept {R : Json → Device → Prop} {kept : List Json} {shown : List Device}
    (h : List.Forall₂ R kept shown) {item : Json} (hitem : item ∈ kept) : ∃ d ∈ shown, R item d := by
  induction h with
  | nil => cases hitem
  | @cons item' d kept shown hd _ ih =>
    rcases List.mem_cons.mp hitem with rfl | hitem
    · exact ⟨d,List.mem_cons_self,hd⟩
    · obtain ⟨e,he,hr⟩ := ih hitem
      exact ⟨e,List.mem_cons_of_mem d he,hr⟩

/-- The device found is one of the list: under the hostname asked for, or the only one there is. -/
theorem lookup_device {w : World} {q : Proc} {before : List Event} {hostname : Text} {device : Json}
    {devices : List Device} (hserves : Serves rt env devices) (hne : hostname ≠ [])
    (h : lookupOutcome rt env w q before (some hostname) = .ok (some device)) :
    (∃ d ∈ devices, d.hostname = hostname) ∨ ∃ d, devices = [d] := by
  obtain ⟨_,_,_,_,token,listing,-,-,-,-,-,-,hanswered,hlisted⟩ := lookupOutcome_ok h
  obtain ⟨n,body,hhttp,hload⟩ := answered_http hanswered
  obtain ⟨fields,items,kept,rfl,hitems,hkept,shown,hperm,hshown⟩ := hserves token n body listing hhttp hload
  have hselect : Tailscale.selectDevice (some hostname) kept = some device := by
    obtain ⟨fields',hobj,items',hitems',kept',hkept',hselect⟩ := listedDevice_found.mp hlisted
    obtain rfl := Json.obj.inj hobj
    obtain rfl := Except.ok.inj (hitems.symm.trans hitems')
    obtain rfl := Except.ok.inj (hkept.symm.trans hkept')
    exact hselect
  obtain ⟨hmem,hany | hhost | rfl⟩ := selectDevice_cases hselect
  · exact absurd hany hne
  · obtain ⟨d,hd,hget⟩ := shown_of_kept hshown hmem
    refine Or.inl ⟨d,hperm.mem_iff.mp hd,?_⟩
    unfold Tailscale.hasHostname at hhost
    rw [hget] at hhost
    exact Json.str.inj (of_decide_eq_true hhost)
  · obtain ⟨d,rest,-,hrest,rfl⟩ := List.forall₂_cons_left_iff.mp hshown
    obtain rfl := List.forall₂_nil_left_iff.mp hrest
    exact Or.inr ⟨d,List.perm_singleton.mp hperm.symm⟩

end

/-- In every run of the account and the tailnet, a node reported online has its own device on the
list, or the list holds nothing but one device of another node, or it holds the device of another
node launched under the same hostname. -/
theorem online_devices {rt : Runtime} {s : Tailnet} (h : Valid s) (ms : List Move) {env : Env} {q : Proc}
    {before : List Event} (hserves : Serves rt env (run (moved rt) s ms).devices) {n : Node}
    (hn : n ∈ (run (moved rt) s ms).world.nodes) {hostname : Text} (hname : tagValue n.2 tagHostname = some hostname)
    (honline : ReportsOnline rt env ⟨(run (moved rt) s ms).world,q,before⟩ n.2.instanceId) :
    (∃ d ∈ (run (moved rt) s ms).devices, d.owner = n.2.instanceId) ∨
      (∃ d, (run (moved rt) s ms).devices = [d] ∧ d.owner ≠ n.2.instanceId) ∨
      ∃ d ∈ (run (moved rt) s ms).devices, ∃ m ∈ (run (moved rt) s ms).world.instances,
        d.owner = m.2.instanceId ∧ m.2.instanceId ≠ n.2.instanceId ∧ tagValue m.2 tagHostname = some hostname := by
  have hvalid := h.run rt ms
  generalize run (moved rt) s ms = t at *
  obtain ⟨w,q',before',device,hl⟩ := reportsOnline_lookup hn honline
  rw [hname] at hl
  have hmem : (n.2.instanceId,some hostname) ∈ hostnames t.world :=
    List.mem_map.mpr ⟨n,(List.mem_filter.mp hn).1,by rw [hname]⟩
  have hne : hostname ≠ [] := fun hnil => hvalid.named _ hmem (by rw [hnil])
  rcases lookup_device hserves hne hl with ⟨d,hd,hhost⟩ | ⟨d,hd⟩
  · by_cases hown : d.owner = n.2.instanceId
    · exact Or.inl ⟨d,hd,hown⟩
    · obtain ⟨m,hm,heq⟩ := List.mem_map.mp (hvalid.owned d hd)
      obtain ⟨hid,htag⟩ := Prod.mk.inj heq
      refine Or.inr (Or.inr ⟨d,hd,m,hm,hid.symm,hid ▸ hown,?_⟩)
      rw [htag,hhost]
  · by_cases hown : d.owner = n.2.instanceId
    · exact Or.inl ⟨d,by rw [hd]; exact List.mem_singleton_self d,hown⟩
    · exact Or.inr (Or.inl ⟨d,hd,hown⟩)

/-! ## A device that stays behind -/

/-- A request to go up whose node gets another hostname. -/
def secondUp : Label := .invoke ⟨Plain.clean,{ Plain.proc with random := fun _ => (1,2) },[],Plain.request Plain.upText⟩

/-- A node is launched, joins and ends, and the next one is launched but has not joined. -/
def lingering : List Move := [.system (Plain.invoke Plain.clean Plain.upText),.join (Plain.longerId Plain.empty),
  .system (.nodeEnds (Plain.longerId Plain.empty)),.system secondUp]

def lingeringState : Tailnet := run (moved Plain.runtime) ⟨Plain.empty,[]⟩ lingering

/-- The node launched last. -/
def secondNode : Node := (Plain.region0,⟨text "ii",.pending,none,
  launchTags (text "shardvpn-us-east-1-0102") (text "2026-01-01T00:00:00Z") Ttl.never⟩)

/-- The listing still shows the device of the first node, and only that. -/
def lingeringDevice : Json := .obj [(text "hostname",.str (text "shardvpn-us-east-1-1234")),
  (text "tags",.arr [.str (text "tag:shardvpn-exit")])]
def lingeringListing : Json := .obj [(text "access_token",.str (text "tskey-token")),
  (text "devices",.arr [lingeringDevice])]

def lingeringEnv : Env := { Plain.clean with http := fun _ _ => .ok (Auth.asciiBytes (dumps lingeringListing)) }

/-- The list, the node and the answer to a status request after the run. -/
theorem lingering_facts : lingeringState.devices = [⟨text "i",text "shardvpn-us-east-1-1234"⟩] ∧
    secondNode ∈ lingeringState.world.nodes ∧
    ((status Plain.runtime).exec lingeringEnv.service ⟨lingeringState.world,Plain.proc,[]⟩).1 = .ok (respond 200
      (Statusdoc.build (some secondNode.2) (.str Plain.region0) (some true) none Plain.midnight.toDateTime)) := by
  decide +kernel

theorem serves_lingering : Serves Plain.runtime lingeringEnv lingeringState.devices := by
  intro token n body listing hbody hload
  obtain rfl := Except.ok.inj hbody
  have hloaded : loadsBytes (Auth.asciiBytes (dumps lingeringListing)) = .ok lingeringListing := by decide +kernel
  rw [lingering_facts.1,← Except.ok.inj (hloaded.symm.trans hload)]
  exact ⟨_,[lingeringDevice],[lingeringDevice],rfl,rfl,by decide +kernel,_,List.Perm.refl _,.cons rfl .nil⟩

theorem reportsOnline_lingering :
    ReportsOnline Plain.runtime lingeringEnv ⟨lingeringState.world,Plain.proc,[]⟩ secondNode.2.instanceId :=
  ⟨_,lingering_facts.2.2,rfl,rfl⟩

/-- The second node is reported online, and its own device is not on the list. -/
theorem lingering_misleads : Valid ⟨Plain.empty,[]⟩ ∧ Serves Plain.runtime lingeringEnv lingeringState.devices ∧
    secondNode ∈ lingeringState.world.nodes ∧
    tagValue secondNode.2 tagHostname = some (text "shardvpn-us-east-1-0102") ∧
    ReportsOnline Plain.runtime lingeringEnv ⟨lingeringState.world,Plain.proc,[]⟩ secondNode.2.instanceId ∧
    ∀ d ∈ lingeringState.devices, d.owner ≠ secondNode.2.instanceId := by
  refine ⟨valid_empty rfl,serves_lingering,lingering_facts.2.1,by decide +kernel,reportsOnline_lingering,?_⟩
  rw [lingering_facts.1]
  decide +kernel

theorem online_devices_lingering : (∃ d ∈ lingeringState.devices, d.owner = secondNode.2.instanceId) ∨
    (∃ d, lingeringState.devices = [d] ∧ d.owner ≠ secondNode.2.instanceId) ∨
    ∃ d ∈ lingeringState.devices, ∃ m ∈ lingeringState.world.instances, d.owner = m.2.instanceId ∧
      m.2.instanceId ≠ secondNode.2.instanceId ∧
      tagValue m.2 tagHostname = some (text "shardvpn-us-east-1-0102") :=
  online_devices (valid_empty rfl) lingering serves_lingering lingering_facts.2.1 (by decide +kernel)
    reportsOnline_lingering

end ShardVPN.System
