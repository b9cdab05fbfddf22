import ShardVPN.Request.Spending
import ShardVPN.System.Plain
import ShardVPN.Time.Duration
import ShardVPN.Time.Grammar

/-! # A launch and its status

A launch answers with a document made of its own variables; a later request describes
the same node from the tags the launch gave it. The two documents have the same keys
and agree on the region, the id, the hostname and the expiry, and within the first
minute on the age.
-/
namespace ShardVPN.Handler
open Effect Time Ec2ops Settings

/-- What a launch is made of: its expiry is what its TTL was parsed to at the time of the launch. -/
structure Launch where
  region : Text
  suffix : Text
  ttl : Json
  now : WallClock
  expiresAt : Text
  instanceId : Text
  parsed : Ttl.parseTtl ttl now.toDateTime = .ok expiresAt

namespace Launch

variable (l : Launch)

def hostname : Text := text "shardvpn-" ++ l.region ++ text "-" ++ l.suffix

def tags : List Tag := launchTags l.hostname (strftime l.now.toDateTime) l.expiresAt

def document : Dict := launchDocument l.region l.instanceId l.hostname l.expiresAt

/-- The instance carries the id and the tags of the launch. -/
structure Owns (i : Instance) : Prop where
  instanceId : i.instanceId = l.instanceId
  tags : i.tags = l.tags

/-- A document at a time agrees with the launch. -/
structure Agrees (status : Dict) (t : DateTime) : Prop where
  keys : status.map Prod.fst = l.document.map Prod.fst
  fields : ∀ key ∈ [text "region",text "instance_id",text "hostname",text "expires_at"],
    status.get key = l.document.get key
  region : l.document.get (text "region") = some (.str l.region)
  instanceId : l.document.get (text "instance_id") = some (.str l.instanceId)
  hostname : l.document.get (text "hostname") = some (.str l.hostname)
  expires : l.document.get (text "expires_at") = some .null ↔ Ttl.Unlimited l.ttl
  age : t.instant < l.now.floorSecond.instant + 60 * microsPerSecond →
    status.get (text "age") = l.document.get (text "age")

end Launch

/-! ## Reading the tags back -/

section
variable {l : Launch} {i : Instance}

theorem Launch.Owns.hostname (h : l.Owns i) : tagValue i tagHostname = some l.hostname := by
  unfold tagValue
  rw [h.tags]
  rfl

theorem Launch.Owns.launched (h : l.Owns i) : tagValue i tagLaunched = some (strftime l.now.toDateTime) := by
  unfold tagValue
  rw [h.tags]
  rfl

theorem Launch.Owns.expires (h : l.Owns i) : tagValue i tagExpires = some l.expiresAt := by
  unfold tagValue
  rw [h.tags]
  rfl

/-- The age counts from the second of the launch. -/
theorem age_launched (now : WallClock) (t : DateTime) : Statusdoc.age (some (strftime now.toDateTime)) t =
    some (Ttl.formatDuration (wholeSeconds (t.instant - now.floorSecond.instant))) := by
  have hread : parseRfc3339 (strftime now.toDateTime) = some now.floorSecond := parse_strftime now.toDateTime
  have hne : strftime now.toDateTime ≠ [] := by
    intro hnil
    rw [hnil] at hread
    cases hread
  unfold Statusdoc.age
  dsimp only
  rw [if_neg hne,hread]
  rfl

theorem Launch.document_get (l : Launch) : l.document.get (text "region") = some (.str l.region) ∧
    l.document.get (text "instance_id") = some (.str l.instanceId) ∧
    l.document.get (text "hostname") = some (.str l.hostname) ∧
    l.document.get (text "expires_at") = some (if l.expiresAt = Ttl.never then .null else .str l.expiresAt) ∧
    l.document.get (text "age") = some (.str (text "0m")) := by
  rw [Launch.document,launchDocument_eq]
  exact ⟨rfl,rfl,rfl,rfl,rfl⟩

theorem describeInstance_get (i : Instance) (region : Json) (online : Option Bool) (idleSeconds : Option ℤ)
    (t : DateTime) : (Statusdoc.describeInstance i region online idleSeconds t).get (text "region") = some region ∧
    (Statusdoc.describeInstance i region online idleSeconds t).get (text "instance_id") = some (.str i.instanceId) ∧
    (Statusdoc.describeInstance i region online idleSeconds t).get (text "hostname") =
      some (Statusdoc.jsonText (tagValue i tagHostname)) ∧
    (Statusdoc.describeInstance i region online idleSeconds t).get (text "expires_at") =
      some (Statusdoc.jsonText ((tagValue i tagExpires).filter (· ≠ Ttl.never))) ∧
    (Statusdoc.describeInstance i region online idleSeconds t).get (text "age") =
      some (Statusdoc.jsonText (Statusdoc.age (tagValue i tagLaunched) t)) := ⟨rfl,rfl,rfl,rfl,rfl⟩

/-- A tag with the expiry and the expiry itself are shown alike. -/
theorem expires_shown (expiresAt : Text) : Statusdoc.jsonText ((some expiresAt).filter (· ≠ Ttl.never)) =
    if expiresAt = Ttl.never then .null else .str expiresAt := by
  by_cases h : expiresAt = Ttl.never
  · rw [if_pos h,Option.filter_some,if_neg (by simp [h])]
    rfl
  · rw [if_neg h,Option.filter_some,if_pos (by simp [h])]
    rfl

/-- The description of a launched instance agrees with the launch. -/
theorem Launch.Owns.agrees (h : l.Owns i) (online : Option Bool) (idleSeconds : Option ℤ) (t : DateTime) :
    l.Agrees (Statusdoc.build (some i) (.str l.region) online idleSeconds t) t := by
  obtain ⟨hregion,hid,hhostname,hexpires,hage⟩ := l.document_get
  obtain ⟨hregion',hid',hhostname',hexpires',hage'⟩ :=
    describeInstance_get i (.str l.region) online idleSeconds t
  rw [h.instanceId] at hid'
  rw [h.hostname] at hhostname'
  rw [h.expires,expires_shown] at hexpires'
  refine ⟨?_,?_,hregion,hid,hhostname,?_,?_⟩
  · rw [Launch.document,launchDocument_eq]
    rfl
  · intro key hkey
    simp only [List.mem_cons,List.not_mem_nil,or_false] at hkey
    rcases hkey with rfl | rfl | rfl | rfl
    · exact hregion'.trans hregion.symm
    · exact hid'.trans hid.symm
    · exact hhostname'.trans hhostname.symm
    · exact hexpires'.trans hexpires.symm
  · rw [hexpires,← Ttl.never_iff_unlimited l.parsed]
    by_cases hnever : l.expiresAt = Ttl.never <;> simp [hnever]
  · intro ht
    have hminute : t.instant - l.now.floorSecond.instant < 60 * microsPerSecond := by omega
    rw [h.launched,age_launched,Ttl.formatDuration_minute (wholeSeconds_lt (by decide) (by decide) hminute)] at hage'
    exact hage'.trans hage.symm

end

/-! ## What `up` answers -/

/-- A request to go up that answers with a launch. -/
def AnswersLaunch (ttl : Json) (response : Response) (w : World) : Prop :=
  ∃ (l : Launch) (i : Instance), response = respond 200 l.document ∧ l.ttl = ttl ∧ (l.region,i) ∈ w.nodes ∧ l.Owns i

section
variable {rt : Runtime} {env : Env} {s t : State} {es : List Event} {response : Response}

/-- A launch that returns leaves a node with the tags it was given. -/
theorem launch_leaves {region ami instanceType sgId hostname launchedAt expiresAt clientToken instanceId : Text}
    {userData : UserData} (h : Steps env.service (launch region ami instanceType sgId userData
      (launchTags hostname launchedAt expiresAt) clientToken) s (.ok instanceId) es t) :
    ∃ i : Instance, (region,i) ∈ t.world.nodes ∧ i.instanceId = instanceId ∧
      i.tags = launchTags hostname launchedAt expiresAt := by
  have hworld := h.world
  obtain ⟨-,⟨a,n,ha,rfl,hanswer⟩ | ⟨e,b,n,ha,-,-⟩⟩ := call_cases h
  · obtain rfl := Except.ok.inj ha
    obtain rfl := Except.ok.inj hanswer
    refine ⟨⟨env.instanceId s.world,.pending,none,launchTags hostname launchedAt expiresAt⟩,?_,rfl,rfl⟩
    rw [hworld]
    change _ ∈ (env.effect (.runInstances _ _) s.world).nodes
    rw [nodes_run env _ _ s.world (hasRole_launchTags env _ rfl)]
    exact List.mem_append_right _ List.mem_cons_self
  · cases ha

theorem launchNode_answers {region expiresAt : Text} {ttl : Json} {now : WallClock}
    (hparsed : Ttl.parseTtl ttl now.toDateTime = .ok expiresAt)
    (h : Steps env.service (launchNode rt region now.toDateTime expiresAt) s (.ok response) es t) :
    AnswersLaunch ttl response t.world := by
  obtain ⟨suffix,s₁,_,_,-,h,-⟩ := h.bind_ok
  obtain ⟨⟨ami,instanceType,sgId⟩,s₂,_,_,-,h,-⟩ := h.bind_ok
  obtain ⟨authkey,s₃,_,_,-,h,-⟩ := h.bind_ok
  obtain ⟨userData,s₄,_,_,-,h,-⟩ := h.bind_ok
  obtain ⟨launchedAt,s₅,_,_,k₅,h,-⟩ := h.bind_ok
  obtain ⟨instanceId,s₆,xs₆,_,k₆,h,-⟩ := h.bind_ok
  obtain ⟨_,s₇,xs₇,_,k₇,h,-⟩ := h.bind_ok
  obtain ⟨hresponse,-,rfl⟩ := Steps.pure_iff.mp h
  obtain rfl := Except.ok.inj hresponse
  have hlaunched : launchedAt = strftime now.toDateTime := by
    have hok := (ofExcept_cases k₅).1
    unfold Ttl.rfc3339 at hok
    rw [now.rfc3339.1] at hok
    exact Except.ok.inj hok
  subst hlaunched
  obtain ⟨i,hnode,hid,htags⟩ := launch_leaves k₆
  have hwrite : t.world.nodes = s₆.world.nodes := by
    rw [k₇.world]
    refine replay_keepsNodes env ?_ _
    rcases writePointer_cases k₇ with ⟨-,rfl⟩ | ⟨e,b,hr,-⟩
    · simp [pointerWrite,Call.keepsNodes]
    · cases hr
  exact ⟨⟨region,suffix,ttl,now,expiresAt,instanceId,hparsed⟩,i,rfl,rfl,hwrite ▸ hnode,hid,htags⟩

/-- The launch is made by what follows a quiet part. -/
theorem runs_bind {α : Type} {m : Program Exn α} {f : α → Program Exn Response} (hm : Quiet m)
    (h : Steps env.service (m >>= f) s (.ok response) es t) (hruns : ∃ e ∈ es, e.call.runs = true) :
    ∃ a u xs ys, Steps env.service m s (.ok a) xs u ∧ Steps env.service (f a) u (.ok response) ys t ∧
      ∃ e ∈ ys, e.call.runs = true := by
  obtain ⟨a,u,xs,ys,h1,h2,rfl⟩ := h.bind_ok
  obtain ⟨e,he,hruns⟩ := hruns
  rcases List.mem_append.mp he with he | he
  · cases (Call.quiet_runs (hm h1 e he)).symm.trans hruns
  · exact ⟨a,u,xs,ys,h1,h2,e,he,hruns⟩

theorem recoverNode_quiet {region : Text} {i : Instance} {r : Except Exn Response}
    (h : Steps env.service (recoverNode rt region i) s r es t) : ∀ e ∈ es, e.call.runs = false := by
  have hruns : Only (fun c => c.runs = false) (recoverNode rt region i) :=
    .bind (.call rfl) fun _ => .bind ((describe_frugal _).quiet.mono fun _ => Call.quiet_runs) fun _ => .pure _
  exact hruns h

theorem upRegion_answers {region expiresAt : Text} {ttl : Json} {now : WallClock}
    (hparsed : Ttl.parseTtl ttl now.toDateTime = .ok expiresAt)
    (h : Steps env.service (upRegion rt region now.toDateTime expiresAt) s (.ok response) es t)
    (hruns : ∃ e ∈ es, e.call.runs = true) : AnswersLaunch ttl response t.world := by
  obtain ⟨found,u,xs,ys,-,h,e,he,hruns⟩ := runs_bind (findNodes_frugal _).quiet h hruns
  cases found with
  | nil => exact launchNode_answers hparsed h
  | cons first rest => cases (recoverNode_quiet h e he).symm.trans hruns

theorem upUntracked_answers {body : Dict} (h : Steps env.service (upUntracked rt body) s (.ok response) es t)
    (hruns : ∃ e ∈ es, e.call.runs = true) :
    ∃ ttl, requestedValue rt s.world body (text "ttl") .defaultTtl = some ttl ∧ AnswersLaunch ttl response t.world := by
  have hregions : Quiet (validRegions rt.controlRegion) := .call rfl
  obtain ⟨regions,s₁,_,_,k₁,h,hruns⟩ := runs_bind hregions h hruns
  obtain ⟨region,s₂,_,_,k₂,h,hruns⟩ := runs_bind (requested_frugal _ _ _).quiet h hruns
  have hsame₂ := (Quiet.same hregions k₁).trans (Quiet.same (requested_frugal _ _ _).quiet k₂)
  cases hregion : regionOf region regions with
  | none =>
    rw [hregion] at h
    obtain ⟨e,he,-⟩ := hruns
    obtain ⟨-,rfl,-⟩ := Steps.pure_iff.mp h
    cases he
  | some target =>
    rw [hregion] at h
    obtain ⟨now,s₃,_,_,k₃,h,hruns⟩ := runs_bind now_only h hruns
    have hsame₃ := hsame₂.trans (Quiet.same now_only k₃)
    obtain ⟨v,s₄,_,_,k₄,h,hruns⟩ := runs_bind (.attempt (requestedExpiry_quiet _ _)) h hruns
    obtain ⟨v,hv,k₄⟩ := Steps.attempt_iff.mp k₄
    obtain rfl := Except.ok.inj hv
    cases v with
    | error e =>
      dsimp only at h
      obtain ⟨e,he,-⟩ := hruns
      split at h
      · obtain ⟨-,rfl,-⟩ := Steps.pure_iff.mp h
        cases he
      · cases (Steps.throw_iff.mp h).1
    | ok expiresAt =>
      obtain ⟨ttl,httl,hparsed⟩ := requestedExpiry_cases k₄
      rw [Same.requestedValue hsame₃] at httl
      exact ⟨ttl,httl,upRegion_answers hparsed h hruns⟩

/-- A request to go up that launches a node answers with the document of the launch. -/
theorem up_answers {body : Dict} (h : Steps env.service (up rt body) s (.ok response) es t)
    (hruns : ∃ e ∈ es, e.call.runs = true) :
    ∃ ttl, requestedValue rt s.world body (text "ttl") .defaultTtl = some ttl ∧ AnswersLaunch ttl response t.world := by
  obtain ⟨pointer,s₁,_,_,k₁,h,hruns⟩ := runs_bind (readPointer_frugal _ _).quiet h hruns
  have hsame₁ := Quiet.same (readPointer_frugal _ _).quiet k₁
  cases pointer with
  | none =>
    obtain ⟨ttl,httl,hanswers⟩ := upUntracked_answers h hruns
    rw [Same.requestedValue hsame₁] at httl
    exact ⟨ttl,httl,hanswers⟩
  | some p =>
    obtain ⟨existing,s₂,_,_,k₂,h,hruns⟩ := runs_bind (describe_frugal _).quiet h hruns
    have hsame₂ := hsame₁.trans (Quiet.same (describe_frugal _).quiet k₂)
    split at h
    · obtain ⟨e,he,-⟩ := hruns
      obtain ⟨-,rfl,-⟩ := Steps.pure_iff.mp h
      cases he
    · obtain ⟨ttl,httl,hanswers⟩ := upUntracked_answers h hruns
      rw [Same.requestedValue hsame₂] at httl
      exact ⟨ttl,httl,hanswers⟩

end

/-- The document of every launch agrees with the description of the launched instance at any time, and it
is the answer of every request to go up that launches. -/
theorem launch_agrees_with_status :
    (∀ (l : Launch) (i : Instance), l.Owns i → ∀ (online : Option Bool) (idleSeconds : Option ℤ) (t : DateTime),
      l.Agrees (Statusdoc.build (some i) (.str l.region) online idleSeconds t) t) ∧
    ∀ (rt : Runtime) (env : Env) (body : Dict) (s t : State) (es : List Event) (response : Response),
      Steps env.service (up rt body) s (.ok response) es t → (∃ e ∈ es, e.call.runs = true) →
      ∃ (l : Launch) (i : Instance), requestedValue rt s.world body (text "ttl") .defaultTtl = some l.ttl ∧
        response = respond 200 l.document ∧ (l.region,i) ∈ t.world.nodes ∧ l.Owns i := by
  refine ⟨fun l i h online idleSeconds t => h.agrees online idleSeconds t,?_⟩
  intro rt env body s t es response h hruns
  obtain ⟨ttl,httl,l,i,hresponse,rfl,hnode,howns⟩ := up_answers h hruns
  exact ⟨l,i,httl,hresponse,hnode,howns⟩

/-- The first launch of the plain account, described a second time in the instant of the launch. -/
theorem launch_agrees_plain : ∃ (l : Launch) (i : Instance),
    (l.region,i) ∈ ((up Plain.runtime [(text "action",.str (text "up"))]).exec Plain.clean.service
      (Plain.state Plain.empty)).2.world.nodes ∧
    l.Agrees (Statusdoc.build (some i) (.str l.region) none none Plain.midnight.toDateTime)
      Plain.midnight.toDateTime := by
  have hsteps := (up Plain.runtime [(text "action",.str (text "up"))]).steps_exec Plain.clean.service
    (Plain.state Plain.empty)
  have hrun : ((up Plain.runtime [(text "action",.str (text "up"))]).exec Plain.clean.service
      (Plain.state Plain.empty)).1.toBool = true ∧
      ∃ e ∈ (up Plain.runtime [(text "action",.str (text "up"))]).events Plain.clean.service
        (Plain.state Plain.empty), e.call.runs = true := by decide +kernel
  obtain ⟨hok,hruns⟩ := hrun
  obtain ⟨hagrees,hanswers⟩ := launch_agrees_with_status
  cases hr : ((up Plain.runtime [(text "action",.str (text "up"))]).exec Plain.clean.service
      (Plain.state Plain.empty)).1 with
  | error x =>
    rw [hr] at hok
    cases hok
  | ok response =>
    rw [hr] at hsteps
    obtain ⟨l,i,-,-,hnode,howns⟩ := hanswers _ _ _ _ _ _ _ hsteps hruns
    exact ⟨l,i,hnode,hagrees l i howns none none _⟩

end ShardVPN.Handler
