import ShardVPN.Request.Tailnet
import ShardVPN.System.Plain

/-! # How `status` degrades

Once the pointer is read and its region has a live node, the document of that node is
answered exactly when the tailnet lookup answers or fails as the client's own error.
The metric part never stands in the way.
-/
namespace ShardVPN.Handler
open Effect Time Ec2ops Settings

/-- The pointer is read, and live nodes are reported where it points. -/
structure Tracked (rt : Runtime) (env : Env) (s : State) (p : Pointer) (region : Text) : Prop where
  read : ∃ raw, env.service.reply s.trace s.world (pointerRead rt) = .ok raw ∧ decodePointer raw = .ok (some p)
  client : clientRegion rt p.region = .ok region
  scanned : ∃ reservations,
    env.service.reply s.trace s.world (.describeInstances region nodeFilters) = .ok reservations ∧
      reservations.flatten ≠ []

/-- The process when the lookup begins: the clock has been read once. -/
def lookupProc (p : Proc) : Proc := { p with ticks := p.ticks + 1 }

/-- A token and a listing were obtained. -/
def TailnetAnswered (rt : Runtime) (env : Env) (w : World) (p : Proc) (before : List Event) : Prop :=
  ∃ clientId clientSecret data fields token listing, clientIdReply rt env w p before = .ok clientId ∧
    clientSecretReply rt env w p before = .ok clientSecret ∧
    Tailscale.credentialsForm clientId clientSecret = some data ∧
    answered (apiReply env w before (tokenRequest data)) = some (.obj fields) ∧
    Dict.get fields (text "access_token") = some token ∧ token.truthy = true ∧
    answered (apiReply env w before (devicesRequest token)) = some listing

/-- The metrics of an instance cannot be read. -/
def MetricFails (env : Env) (w : World) (before : List Event) (region : Text) (i : Instance) (now : DateTime) :
    Prop :=
  ∀ start, windowStart 24 now = some start →
    ∃ e, env.service.reply before w (.getMetricStatistics region (networkQuery i.instanceId start now)) = .error e

/-- The document of the tracked node is answered, with what could not be looked up left open. -/
def Degrades (rt : Runtime) (env : Env) (s : State) (p : Pointer) (region : Text) (r : Except Exn Response) : Prop :=
  ∃ i online idle, Selected s.world region p i ∧
    r = .ok (respond 200 (Statusdoc.build (some i) p.region online idle (s.proc.clock s.proc.ticks).toDateTime)) ∧
    (¬TailnetAnswered rt env s.world (lookupProc s.proc) s.trace →
      Dict.get (Statusdoc.build (some i) p.region online idle (s.proc.clock s.proc.ticks).toDateTime)
        (text "tailnet") = some (.str (text "unknown"))) ∧
    (MetricFails env s.world s.trace region i (s.proc.clock s.proc.ticks).toDateTime →
      Dict.get (Statusdoc.build (some i) p.region online idle (s.proc.clock s.proc.ticks).toDateTime)
        (text "idle_for") = some .null)

section
variable {rt : Runtime} {env : Env} {s t : State} {es : List Event}

theorem build_unknown (i : Instance) (region : Json) (idle : Option ℤ) (now : DateTime) :
    Dict.get (Statusdoc.build (some i) region none idle now) (text "tailnet") = some (.str (text "unknown")) := rfl

theorem build_idle (i : Instance) (region : Json) (online : Option Bool) (now : DateTime) :
    Dict.get (Statusdoc.build (some i) region online none now) (text "idle_for") = some .null := rfl

theorem readPointer_reply {raw : Text} {r : Except Exn (Option Pointer)}
    (hraw : env.service.reply s.trace s.world (pointerRead rt) = .ok raw)
    (h : Steps env.service (readPointer rt.controlRegion .currentNode) s r es t) :
    r = decodePointer raw ∧ t.world = s.world ∧ t.proc = s.proc ∧ es = [⟨pointerRead rt,none,true⟩] := by
  obtain ⟨hr,hes,hw,hp⟩ := readPointer_outcome h
  unfold pointerRead at hraw
  rw [hraw] at hr
  rw [(Service.reply_ok hraw).2] at hes
  exact ⟨hr,hw,hp,hes⟩

theorem findNodes_reply {region : Text} {reservations : List (List Instance)} {r : Except Exn (List Instance)}
    (hreply : env.service.reply s.trace s.world (.describeInstances region nodeFilters) = .ok reservations)
    (h : Steps env.service (findNodes region) s r es t) :
    r = .ok reservations.flatten ∧ t.world = s.world ∧ t.proc = s.proc ∧
      es = [⟨.describeInstances region nodeFilters,none,true⟩] := by
  obtain ⟨hr,hes,hw,hp⟩ := findNodes_outcome h
  rw [hreply] at hr
  rw [(Service.reply_ok hreply).2] at hes
  exact ⟨hr,hw,hp,hes⟩

/-- The tailnet part is what the lookup comes to, unless the lookup raises. -/
theorem tailnetOnline_outcome {i : Instance} {r : Except Exn (Option Bool)}
    (h : Steps env.service (tailnetOnline rt i) s r es t) :
    (∃ device, lookupOutcome rt env s.world s.proc s.trace (tagValue i tagHostname) = .ok device ∧
        r = .ok (some device.isSome)) ∨
      (∃ detail, lookupOutcome rt env s.world s.proc s.trace (tagValue i tagHostname) =
        .error (.tailscaleError detail) ∧ r = .ok none) ∨
      ∃ e, lookupOutcome rt env s.world s.proc s.trace (tagValue i tagHostname) = .error e ∧ Foreign e ∧
        r = .error e := by
  obtain ⟨v,u,xs,ys,h1,h2,-⟩ := h.bind_attempt
  rw [← lookupDevice_outcome h1]
  cases v with
  | ok device => exact Or.inl ⟨device,rfl,(Steps.pure_iff.mp h2).1⟩
  | error e =>
    right
    cases e with
    | tailscaleError detail => exact Or.inl ⟨detail,rfl,(Steps.pure_iff.mp h2).1⟩
    | _ => exact Or.inr ⟨_,rfl,by rintro d ⟨⟩,(Steps.throw_iff.mp h2).1⟩

theorem idleFor_outcome {region : Text} {i : Instance} {now : DateTime} {r : Except Exn (Option ℤ)}
    (h : Steps env.service (idleFor region i now) s r es t) :
    ∃ idle, r = .ok idle ∧ (MetricFails env s.world s.trace region i now → idle = none) := by
  unfold idleFor at h
  split at h
  · obtain ⟨v,u,xs,ys,h1,h2,-⟩ := h.bind_attempt
    cases v with
    | error e => exact ⟨none,(Steps.pure_iff.mp h2).1,fun _ => rfl⟩
    | ok points =>
      refine ⟨_,(Steps.pure_iff.mp h2).1,?_⟩
      intro hfails
      rcases networkOut_outcome h1 with ⟨-,hx,-⟩ | ⟨start,hstart,hpoints,-⟩
      · cases hx
      · obtain ⟨e,he⟩ := hfails start hstart
        rw [he] at hpoints
        cases hpoints
  · exact ⟨none,(Steps.pure_iff.mp h).1,fun _ => rfl⟩

/-- The document of a node, from the outcome of the lookup. -/
theorem document_outcome {p : Pointer} {region : Text} {i : Instance} {r : Except Exn Dict}
    (h : Steps env.service (document rt p region i) s r es t) :
    (∃ online idle, r = .ok (Statusdoc.build (some i) p.region online idle (s.proc.clock s.proc.ticks).toDateTime) ∧
      (MetricFails env s.world s.trace region i (s.proc.clock s.proc.ticks).toDateTime → idle = none) ∧
      ((∃ device, lookupOutcome rt env s.world (lookupProc s.proc) s.trace (tagValue i tagHostname) = .ok device ∧
          online = some device.isSome) ∨
        (∃ detail, lookupOutcome rt env s.world (lookupProc s.proc) s.trace (tagValue i tagHostname) =
          .error (.tailscaleError detail) ∧ online = none))) ∨
      ∃ e, lookupOutcome rt env s.world (lookupProc s.proc) s.trace (tagValue i tagHostname) = .error e ∧
        Foreign e ∧ r = .error e := by
  rcases h.bind_cases with ⟨now,s₁,xs₁,ys₁,k₁,h₁,rfl⟩ | ⟨x,k₁,-⟩
  · obtain ⟨hnow,rfl,rfl⟩ := now_reply k₁
    obtain rfl := Except.ok.inj hnow
    rcases h₁.bind_cases with ⟨online,s₂,xs₂,ys₂,k₂,h₂,rfl⟩ | ⟨x,k₂,rfl⟩
    · have hw := world_of_inert ((tailnetOnline_only i).mono fun _ => effect_isLookupCall) k₂
      rcases h₂.bind_cases with ⟨idle,s₃,xs₃,ys₃,k₃,h₃,rfl⟩ | ⟨x,k₃,rfl⟩
      · obtain ⟨rfl,-,-⟩ := Steps.pure_iff.mp h₃
        obtain ⟨idle',hidle,hfails⟩ := idleFor_outcome k₃
        obtain rfl := Except.ok.inj hidle
        left
        refine ⟨online,idle,rfl,?_,?_⟩
        · intro hmetric
          refine hfails ?_
          intro start hstart
          obtain ⟨e,he⟩ := hmetric start hstart
          refine ⟨e,?_⟩
          rw [hw,k₂.2]
          refine (env.service.reply_append _ ?_).trans he
          intro e he hcall
          rcases tailnetOnline_only i k₂ e he with ⟨_,_,hlookup⟩ | ⟨_,_,hlookup⟩ <;> cases hcall.symm.trans hlookup
        · rcases tailnetOnline_outcome k₂ with ⟨device,hl,ho⟩ | ⟨detail,hl,ho⟩ | ⟨e,-,-,he⟩
          · exact Or.inl ⟨device,hl,Except.ok.inj ho⟩
          · exact Or.inr ⟨detail,hl,Except.ok.inj ho⟩
          · cases he
      · obtain ⟨idle',hidle,-⟩ := idleFor_outcome k₃
        cases hidle
    · rcases tailnetOnline_outcome k₂ with ⟨device,-,ho⟩ | ⟨detail,-,ho⟩ | ⟨e,hl,hforeign,he⟩
      · cases ho
      · cases ho
      · obtain rfl := Except.error.inj he
        exact Or.inr ⟨x,hl,hforeign,rfl⟩
  · cases (now_reply k₁).1

/-- The document that answers a tracked pointer, from the outcome of the lookup. -/
theorem describe_outcome {p : Pointer} {region : Text} {reservations : List (List Instance)} {r : Except Exn Dict}
    (hregion : clientRegion rt p.region = .ok region)
    (hreservations : env.service.reply s.trace s.world (.describeInstances region nodeFilters) = .ok reservations)
    (hne : reservations.flatten ≠ []) (h : Steps env.service (describe rt (some p)) s r es t) :
    ∃ i u xs, Selected s.world region p i ∧ Steps env.service (document rt p region i) u r xs t ∧
      u.world = s.world ∧ u.proc = s.proc ∧
      u.trace = s.trace ++ [⟨.describeInstances region nodeFilters,none,true⟩] := by
  rcases h.bind_cases with ⟨region',s₁,xs₁,ys₁,k₁,h₁,rfl⟩ | ⟨x,k₁,-⟩
  · obtain ⟨hr,rfl,rfl⟩ := ofExcept_cases k₁
    obtain rfl := Except.ok.inj (hregion.symm.trans hr.symm)
    rcases h₁.bind_cases with ⟨nodes,s₂,xs₂,ys₂,k₂,h₂,rfl⟩ | ⟨x,k₂,-⟩
    · obtain ⟨hnodes,hw,hproc,rfl⟩ := findNodes_reply hreservations k₂
      have hperm := reservations_of_reply hreservations
      obtain rfl := Except.ok.inj hnodes
      cases hflat : reservations.flatten with
      | nil => exact absurd hflat hne
      | cons first rest =>
        rw [hflat] at h₂ hperm
        obtain ⟨hmem,hnamed⟩ := selectInstance_cases first rest p.instanceId
        refine ⟨_,s₂,ys₂,⟨hperm.mem_iff.mp hmem,?_⟩,h₂,hw,hproc,k₂.2⟩
        intro j hj hid
        have hjnode := mem_nodesIn.mp hj
        have heq := hnamed j (hperm.mem_iff.mpr hj) (node_id_ne_nil hjnode) hid
        exact congrArg Prod.snd (node_unique (mem_nodesIn.mp (hperm.mem_iff.mp hmem)) hjnode heq)
    · cases (findNodes_reply hreservations k₂).1
  · rw [hregion] at k₁
    cases (ofExcept_cases k₁).1

/-- The same, after calls the document does not make. -/
theorem document_after {p : Pointer} {region : Text} {i : Instance} {u : State} {before : List Event}
    {r : Except Exn Dict} (hw : u.world = s.world) (hp : u.proc = s.proc) (ht : u.trace = s.trace ++ before)
    (hlookup : ∀ e ∈ before, ¬isLookupCall e.call)
    (hmetric : ∀ e ∈ before, ∀ region query, e.call ≠ .getMetricStatistics region query)
    (h : Steps env.service (document rt p region i) u r es t) :
    (∃ online idle, r = .ok (Statusdoc.build (some i) p.region online idle (s.proc.clock s.proc.ticks).toDateTime) ∧
      (MetricFails env s.world s.trace region i (s.proc.clock s.proc.ticks).toDateTime → idle = none) ∧
      (¬TailnetAnswered rt env s.world (lookupProc s.proc) s.trace → online = none) ∧
      ∀ e, lookupOutcome rt env s.world (lookupProc s.proc) s.trace (tagValue i tagHostname) = .error e →
        ¬Foreign e) ∨
      ∃ e, lookupOutcome rt env s.world (lookupProc s.proc) s.trace (tagValue i tagHostname) = .error e ∧
        Foreign e ∧ r = .error e := by
  have hcases := document_outcome h
  rw [hw,hp,ht,lookupOutcome_append hlookup] at hcases
  rcases hcases with ⟨online,idle,hr,hidle,honline⟩ | hraised
  · refine Or.inl ⟨online,idle,hr,?_,?_,?_⟩
    · intro hfails
      refine hidle ?_
      intro start hstart
      obtain ⟨e,he⟩ := hfails start hstart
      exact ⟨e,(env.service.reply_append _ fun e he => hmetric e he _ _).trans he⟩
    · intro hunanswered
      rcases honline with ⟨device,hl,-⟩ | ⟨detail,-,rfl⟩
      · obtain ⟨clientId,clientSecret,data,fields,token,listing,h₁,h₂,h₃,h₄,h₅,h₆,h₇,-⟩ := lookupOutcome_ok hl
        exact absurd ⟨clientId,clientSecret,data,fields,token,listing,h₁,h₂,h₃,h₄,h₅,h₆,h₇⟩ hunanswered
      · rfl
    · intro e he hforeign
      rcases honline with ⟨device,hl,-⟩ | ⟨detail,hl,-⟩
      · cases hl.symm.trans he
      · exact hforeign detail (Except.error.inj (hl.symm.trans he)).symm
  · exact Or.inr hraised

/-- The answer of `status`, from the outcome of the lookup. -/
theorem status_outcome {p : Pointer} {region : Text} (htracked : Tracked rt env s p region)
    {r : Except Exn Response} (h : Steps env.service (status rt) s r es t) :
    ∃ i, (Degrades rt env s p region r ∧
        ∀ e, lookupOutcome rt env s.world (lookupProc s.proc) s.trace (tagValue i tagHostname) = .error e →
          ¬Foreign e) ∨
      ∃ e, lookupOutcome rt env s.world (lookupProc s.proc) s.trace (tagValue i tagHostname) = .error e ∧
        Foreign e ∧ r = .error e := by
  obtain ⟨⟨raw,hraw,hpointer⟩,hregion,reservations,hreservations,hne⟩ := htracked
  rcases h.bind_cases with ⟨pointer,s₁,xs₁,ys₁,k₁,h₁,rfl⟩ | ⟨x,k₁,-⟩
  · obtain ⟨hp,hw₁,hp₁,rfl⟩ := readPointer_reply hraw k₁
    obtain rfl : some p = pointer := (Except.ok.inj (hp.trans hpointer)).symm
    have hreservations₁ : env.service.reply s₁.trace s₁.world (.describeInstances region nodeFilters) =
        .ok reservations := by
      rw [hw₁,k₁.2]
      refine (env.service.reply_append _ ?_).trans hreservations
      simp [pointerRead]
    have hdocument : ∀ {v ys u}, Steps env.service (describe rt (some p)) s₁ v ys u → ∃ i u' xs before,
        Selected s.world region p i ∧ Steps env.service (document rt p region i) u' v xs u ∧
        u'.world = s.world ∧ u'.proc = s.proc ∧ u'.trace = s.trace ++ before ∧
        (∀ e ∈ before, ¬isLookupCall e.call) ∧
        ∀ e ∈ before, ∀ region query, e.call ≠ .getMetricStatistics region query := by
      intro v ys u k
      obtain ⟨i,u',xs,hi,hd,hw,hproc,ht⟩ := describe_outcome hregion hreservations₁ hne k
      rw [hw₁] at hi hw
      refine ⟨i,u',xs,_,hi,hd,hw,hproc.trans hp₁,by rw [ht,k₁.2,List.append_assoc],?_,?_⟩
      · simp [isLookupCall,pointerRead]
      · simp [pointerRead]
    rcases h₁.bind_cases with ⟨d,s₂,xs₂,ys₂,k₂,h₂,rfl⟩ | ⟨x,k₂,rfl⟩
    · obtain ⟨i,u,xs,before,hi,hd,hw,hproc,ht,hlookup,hmetric⟩ := hdocument k₂
      refine ⟨i,?_⟩
      rcases document_after hw hproc ht hlookup hmetric hd with ⟨online,idle,hr,hidle,honline,hl⟩ | ⟨e,-,-,he⟩
      · obtain rfl := Except.ok.inj hr
        refine Or.inl ⟨⟨i,online,idle,hi,(Steps.pure_iff.mp h₂).1,?_,?_⟩,hl⟩
        · intro hunanswered
          rw [honline hunanswered]
          exact build_unknown _ _ _ _
        · intro hfails
          rw [hidle hfails]
          exact build_idle _ _ _ _
      · cases he
    · obtain ⟨i,u,xs,before,hi,hd,hw,hproc,ht,hlookup,hmetric⟩ := hdocument k₂
      refine ⟨i,?_⟩
      rcases document_after hw hproc ht hlookup hmetric hd with ⟨online,idle,hr,-⟩ | ⟨e,hl,hforeign,he⟩
      · cases hr
      · exact Or.inr ⟨e,hl,hforeign,by rw [Except.error.inj he]⟩
  · obtain ⟨hp,-⟩ := readPointer_reply hraw k₁
    rw [hpointer] at hp
    cases hp

/-- The document of the tracked node is answered exactly when the lookup answers or fails as the
client's own error. -/
theorem status_degrades_iff {p : Pointer} {region : Text} (h : Tracked rt env s p region) :
    Degrades rt env s p region ((status rt).exec env.service s).1 ↔
      TailnetReadable rt env s.world (lookupProc s.proc) s.trace := by
  obtain ⟨i,⟨hdegrades,hl⟩ | ⟨e,hl,hforeign,hr⟩⟩ := status_outcome h ((status rt).steps_exec env.service s)
  · refine iff_of_true hdegrades ?_
    by_contra hunreadable
    obtain ⟨e,he,hforeign⟩ := lookupOutcome_unreadable (tagValue i tagHostname) hunreadable
    exact hl e he hforeign
  · refine iff_of_false ?_ ?_
    · rintro ⟨_,_,_,-,hok,-⟩
      cases hr.symm.trans hok
    · intro hreadable
      rcases lookupOutcome_readable (tagValue i tagHostname) hreadable with ⟨device,hok⟩ | ⟨detail,hok⟩
      · cases hl.symm.trans hok
      · exact hforeign detail (Except.error.inj (hl.symm.trans hok))

end

/-! ## The plain account -/

/-- The plain account with one tracked node. -/
def trackedState : State := Plain.state (Plain.lapsed (Plain.pointsTo Plain.region0 Plain.instance0))
def trackedPointer : Pointer := ⟨.str Plain.region0,.str Plain.instance0⟩

/-- What every request is answered there, decoded. -/
def apiFields : Dict :=
  [(text "access_token",.str (text "tskey-token")),(text "key",.str (text "tskey-auth")),(text "devices",.arr [])]

theorem answered_plain (before : List Event) (w : World) (request : Request) :
    answered (apiReply Plain.clean w before request) = some (.obj apiFields) := by
  change (loadsBytes Plain.apiAnswer).toOption = _
  decide +kernel

theorem readable_plain :
    TailnetReadable Plain.runtime Plain.clean trackedState.world (lookupProc trackedState.proc) [] := by
  refine ⟨text "id",text "secret",_,rfl,rfl,rfl,?_⟩
  intro response hresponse
  rw [answered_plain] at hresponse
  refine ⟨apiFields,(Option.some.inj hresponse).symm,?_⟩
  intro token _ _ listing hlisting
  rw [answered_plain] at hlisting
  exact ⟨apiFields,(Option.some.inj hlisting).symm,[],rfl,by simp⟩

theorem status_degrades_plain : Degrades Plain.runtime Plain.clean trackedState trackedPointer Plain.region0
    ((status Plain.runtime).exec Plain.clean.service trackedState).1 :=
  (status_degrades_iff
    { read := ⟨Plain.pointsTo Plain.region0 Plain.instance0,rfl,by decide +kernel⟩
      client := rfl
      scanned := ⟨_,rfl,by decide +kernel⟩ }).mpr readable_plain

/-- The same account while the client id cannot be read. -/
def unreadId : Env := Plain.refuse (fun c => c = .getParameter Plain.control ParamName.tsClientId.path true)

/-- The request fails although the pointer was read and its node reported. -/
theorem status_fails_unread : Tracked Plain.runtime unreadId trackedState trackedPointer Plain.region0 ∧
    ¬Degrades Plain.runtime unreadId trackedState trackedPointer Plain.region0
      ((status Plain.runtime).exec unreadId.service trackedState).1 := by
  refine ⟨⟨⟨Plain.pointsTo Plain.region0 Plain.instance0,rfl,by decide +kernel⟩,rfl,_,rfl,by decide +kernel⟩,?_⟩
  have hraised : ((status Plain.runtime).exec unreadId.service trackedState).1.toOption.isNone = true := by
    decide +kernel
  rintro ⟨i,online,idle,-,hok,-⟩
  rw [hok] at hraised
  cases hraised

end ShardVPN.Handler
