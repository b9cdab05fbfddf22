import ShardVPN.Request.Describe

/-! # What the tailnet lookup comes to

The outcome of the lookup as a function of what its calls get back: the credentials,
the token exchange and the device list. Only the client's own error is absorbed, so
the lookup answers exactly when nothing else can be raised along the way.
-/
namespace ShardVPN.Handler
open Effect Time Ec2ops Settings

def tokenRequest (data : Bytes) : Request where
  url := Tailscale.api ++ text "/oauth/token"
  method := text "POST"
  data := some data
  bearer := none
  contentType := some (text "application/x-www-form-urlencoded")

def devicesRequest (token : Json) : Request where
  url := Tailscale.api ++ text "/tailnet/-/devices"
  method := text "GET"
  data := none
  bearer := some token
  contentType := none

/-- What the client makes of the answer to a request. -/
def apiOutcome : Except ServiceError Bytes → Except Exn Json
  | .error (.http code _) => .error (.tailscaleError (text "tailscale api returned " ++ decimal code))
  | .error e => .error (.tailscaleError (text "tailscale api call failed: " ++ (Exn.service e).typeName))
  | .ok body => match loadsBytes body with
    | .ok value => .ok value
    | .error e => .error (.tailscaleError (text "tailscale api call failed: " ++ (Exn.jsonError e).typeName))

section
variable (rt : Runtime) (env : Env) (w : World) (p : Proc) (before : List Event)

def apiReply (request : Request) : Except ServiceError Bytes :=
  env.service.reply before w (.urlopen request Tailscale.timeout)

/-- A credential from the cache or from the store. -/
def secretReply (name : ParamName) (now : ℤ) : Except ServiceError Text :=
  match (p.secretCache name.path).filter (fun c => now - c.1 < secretTtlSeconds * microsPerSecond) with
  | some cached => .ok cached.2
  | none => env.service.reply before w (.getParameter rt.controlRegion name.path true)

/-- The credentials as the lookup reads them, at the next two times of the clock. -/
def clientIdReply : Except ServiceError Text :=
  secretReply rt env w p before .tsClientId (p.clock p.ticks).time
def clientSecretReply : Except ServiceError Text :=
  secretReply rt env w p before .tsClientSecret (p.clock (p.ticks + 1)).time

/-- The device in an answer to the listing of devices. -/
def listedDevice (hostname : Option Text) (listing : Json) : Except Exn (Option Json) := do
  let devices ← Tailscale.get listing (text "devices")
  let devices ← Tailscale.elements (devices.getD (.arr []))
  let tagged ← Tailscale.tagged rt.tsTag devices
  .ok (Tailscale.selectDevice hostname tagged)

def exchangeOutcome (clientId clientSecret : Text) : Except Exn Json :=
  match Tailscale.credentialsForm clientId clientSecret with
  | none => .error .unicodeEncodeError
  | some data => do
    let response ← apiOutcome (apiReply env w before (tokenRequest data))
    Tailscale.required response (text "access_token") (text "no access_token in oauth response")

def tokenOutcome : Except Exn Json := do
  let clientId ← (clientIdReply rt env w p before).mapError Exn.service
  let clientSecret ← (clientSecretReply rt env w p before).mapError Exn.service
  exchangeOutcome env w before clientId clientSecret

def lookupOutcome (hostname : Option Text) : Except Exn (Option Json) := do
  let token ← tokenOutcome rt env w p before
  let listing ← apiOutcome (apiReply env w before (devicesRequest token))
  listedDevice rt hostname listing

end

section
variable {rt : Runtime} {env : Env} {s t : State} {es : List Event}

/-- What reading a secret leaves as it was. -/
structure Reads (name : ParamName) (s t : State) (es : List Event) : Prop where
  world : t.world = s.world
  trace : t.trace = s.trace ++ es
  calls : ∀ e ∈ es, ∃ region, e.call = .getParameter region name.path true
  clock : t.proc.clock = s.proc.clock
  ticks : t.proc.ticks = s.proc.ticks
  cache : ∀ n, n ≠ name.path → t.proc.secretCache n = s.proc.secretCache n

theorem cachedSecret_reply {name : ParamName} {now : ℤ} {r : Except Exn Text}
    (h : Steps env.service (cachedSecret rt.controlRegion name now) s r es t) :
    r = (secretReply rt env s.world s.proc s.trace name now).mapError Exn.service ∧ Reads name s t es := by
  have hworld : t.world = s.world := by
    rw [h.world,replay_reads env (cachedSecret_only (Q := fun c => c.reads = true) _ _ _ rfl h)]
  rcases h.bind_cases with ⟨p,u,xs,ys,h1,h2,rfl⟩ | ⟨x,h1,-⟩
  · obtain ⟨hp,rfl,rfl⟩ := Steps.getProc_iff.mp h1
    obtain rfl := Except.ok.inj hp
    unfold secretReply
    cases hcached : (u.proc.secretCache name.path).filter
        (fun c => now - c.1 < secretTtlSeconds * microsPerSecond) with
    | some cached =>
      rw [hcached] at h2
      obtain ⟨rfl,rfl,rfl⟩ := Steps.pure_iff.mp h2
      exact ⟨rfl,⟨hworld,h.2,by simp,rfl,rfl,fun _ _ => rfl⟩⟩
    | none =>
      rw [hcached] at h2
      dsimp only at h2 ⊢
      rcases h2.bind_cases with ⟨value,v,xs,ys,h3,h4,rfl⟩ | ⟨x,h3,rfl⟩
      · obtain ⟨hproc,hr,error,effective,rfl⟩ := h3.call_reply
        rcases h4.bind_cases with ⟨p,v',xs,zs,h5,h6,rfl⟩ | ⟨x,h5,-⟩
        · obtain ⟨hp,rfl,rfl⟩ := Steps.getProc_iff.mp h5
          obtain rfl := Except.ok.inj hp
          rcases h6.bind_cases with ⟨_,v'',xs,zs,h7,h8,rfl⟩ | ⟨x,h7,-⟩
          · obtain ⟨-,rfl,rfl⟩ := Steps.setProc_iff.mp h7
            obtain ⟨rfl,rfl,rfl⟩ := Steps.pure_iff.mp h8
            refine ⟨hr,⟨hworld,h.2,by simp,?_,?_,?_⟩⟩
            · exact (congrArg Proc.clock hproc : v'.proc.clock = u.proc.clock)
            · exact (congrArg Proc.ticks hproc : v'.proc.ticks = u.proc.ticks)
            · intro n hn
              rw [← hproc]
              exact if_neg hn
          · cases (Steps.setProc_iff.mp h7).1
        · cases (Steps.getProc_iff.mp h5).1
      · obtain ⟨hproc,hr,error,effective,rfl⟩ := h3.call_reply
        refine ⟨hr,⟨hworld,h.2,by simp,?_,?_,?_⟩⟩
        · exact congrArg Proc.clock hproc
        · exact congrArg Proc.ticks hproc
        · intro n _
          rw [hproc]
  · cases (Steps.getProc_iff.mp h1).1

theorem callApi_outcome {request : Request} {r : Except Exn Json}
    (h : Steps env.service (Tailscale.callApi request) s r es t) :
    r = apiOutcome (apiReply env s.world s.trace request) ∧ t.world = s.world ∧
      ∃ error effective, es = [⟨.urlopen request Tailscale.timeout,error,effective⟩] := by
  obtain ⟨v,u,xs,ys,h1,h2,rfl⟩ := h.bind_attempt
  obtain ⟨-,hv,error,effective,rfl⟩ := h1.call_reply
  have hrest : r = apiOutcome (apiReply env s.world s.trace request) ∧ ys = [] := by
    unfold apiReply
    cases hreply : env.service.reply s.trace s.world (.urlopen request Tailscale.timeout) with
    | error e =>
      rw [hreply] at hv
      subst hv
      cases e <;> exact ⟨(Steps.throw_iff.mp h2).1,(Steps.throw_iff.mp h2).2.1⟩
    | ok body =>
      rw [hreply] at hv
      subst hv
      dsimp only [Except.mapError] at h2
      cases hload : loadsBytes body with
      | ok value =>
        rw [hload] at h2
        refine ⟨?_,(Steps.pure_iff.mp h2).2.1⟩
        rw [apiOutcome,hload]
        exact (Steps.pure_iff.mp h2).1
      | error e =>
        rw [hload] at h2
        refine ⟨?_,(Steps.throw_iff.mp h2).2.1⟩
        rw [apiOutcome,hload]
        exact (Steps.throw_iff.mp h2).1
  obtain ⟨hr,rfl⟩ := hrest
  exact ⟨hr,world_of_event h (fun _ => rfl),error,effective,rfl⟩

/-- Only the credentials are read before the token is exchanged. -/
def isTokenCall (c : Call) : Prop := (∃ region name, c = .getParameter region name true) ∨
  ∃ data, c = .urlopen (tokenRequest data) Tailscale.timeout

theorem token_url_ne : Tailscale.api ++ text "/oauth/token" ≠ Tailscale.api ++ text "/tailnet/-/devices" := by
  decide +kernel

theorem isTokenCall_ne {c : Call} (h : isTokenCall c) (token : Json) :
    c ≠ .urlopen (devicesRequest token) Tailscale.timeout := by
  rintro rfl
  rcases h with ⟨region,name,hc⟩ | ⟨data,hc⟩
  · cases hc
  · exact token_url_ne (congrArg Request.url (Call.urlopen.inj hc).1).symm

theorem tailscaleToken_only : Only isTokenCall (tailscaleToken rt) := by
  refine .bind now_only fun _ => .bind (cachedSecret_only _ _ _ (Or.inl ⟨_,_,rfl⟩)) fun _ => ?_
  refine .bind now_only fun _ => .bind (cachedSecret_only _ _ _ (Or.inl ⟨_,_,rfl⟩)) fun _ => ?_
  exact .bind (ofOption_only _ _) fun data => .bind (callApi_only (Or.inr ⟨data,rfl⟩)) fun _ => ofExcept_only _

theorem effect_isTokenCall {c : Call} (h : isTokenCall c) (w : World) : env.effect c w = w := by
  rcases h with ⟨region,name,rfl⟩ | ⟨data,rfl⟩
  · rfl
  · rfl

theorem secretReply_append {w : World} {p q : Proc} {before xs : List Event} {name : ParamName} {now : ℤ}
    (hcache : q.secretCache name.path = p.secretCache name.path)
    (hxs : ∀ e ∈ xs, e.call ≠ .getParameter rt.controlRegion name.path true) :
    secretReply rt env w q (before ++ xs) name now = secretReply rt env w p before name now := by
  unfold secretReply
  rw [hcache,env.service.reply_append w hxs]

theorem exchangeOutcome_append {w : World} {before xs : List Event} (clientId clientSecret : Text)
    (hxs : ∀ e ∈ xs, ∀ data, e.call ≠ .urlopen (tokenRequest data) Tailscale.timeout) :
    exchangeOutcome env w (before ++ xs) clientId clientSecret =
      exchangeOutcome env w before clientId clientSecret := by
  unfold exchangeOutcome apiReply
  cases Tailscale.credentialsForm clientId clientSecret with
  | none => rfl
  | some data =>
    dsimp only
    rw [env.service.reply_append w fun e he => hxs e he data]

theorem getToken_outcome {clientId clientSecret : Text} {r : Except Exn Json}
    (h : Steps env.service (Tailscale.getToken clientId clientSecret) s r es t) :
    r = exchangeOutcome env s.world s.trace clientId clientSecret := by
  unfold exchangeOutcome
  unfold Tailscale.getToken at h
  cases hform : Tailscale.credentialsForm clientId clientSecret with
  | none =>
    rw [hform] at h
    rcases h.bind_cases with ⟨data,u,xs,ys,h1,-,-⟩ | ⟨x,h1,rfl⟩
    · cases (Steps.throw_iff.mp h1).1
    · obtain rfl := Except.error.inj (Steps.throw_iff.mp h1).1
      rfl
  | some data =>
    rw [hform] at h
    rcases h.bind_cases with ⟨data',u,xs,ys,h1,h2,-⟩ | ⟨x,h1,-⟩
    · obtain ⟨hdata,rfl,rfl⟩ := Steps.pure_iff.mp h1
      obtain rfl := Except.ok.inj hdata
      rcases h2.bind_cases with ⟨response,v,xs,zs,h3,h4,-⟩ | ⟨x,h3,rfl⟩
      · obtain ⟨hresponse,-⟩ := callApi_outcome h3
        obtain ⟨rfl,-⟩ := ofExcept_cases h4
        dsimp only
        rw [tokenRequest,← hresponse]
        rfl
      · obtain ⟨hresponse,-⟩ := callApi_outcome h3
        dsimp only
        rw [tokenRequest,← hresponse]
        rfl
    · cases (Steps.pure_iff.mp h1).1

theorem tailscaleToken_outcome {r : Except Exn Json} (h : Steps env.service (tailscaleToken rt) s r es t) :
    r = tokenOutcome rt env s.world s.proc s.trace := by
  unfold tokenOutcome
  rcases h.bind_cases with ⟨_,s₁,xs₁,ys₁,k₁,h₁,rfl⟩ | ⟨x,k₁,-⟩
  · obtain ⟨ht₁,rfl,rfl⟩ := now_reply k₁
    obtain rfl := Except.ok.inj ht₁
    rcases h₁.bind_cases with ⟨clientId,s₂,xs₂,ys₂,k₂,h₂,rfl⟩ | ⟨x,k₂,rfl⟩
    · obtain ⟨hid,reads⟩ := cachedSecret_reply k₂
      change _ = (clientIdReply rt env s.world s.proc s.trace).mapError Exn.service at hid
      rw [← hid]
      rcases h₂.bind_cases with ⟨_,s₃,xs₃,ys₃,k₃,h₃,rfl⟩ | ⟨x,k₃,-⟩
      · obtain ⟨ht₃,rfl,rfl⟩ := now_reply k₃
        obtain rfl := Except.ok.inj ht₃
        have hsecret : secretReply rt env s₂.world { s₂.proc with ticks := s₂.proc.ticks + 1 } s₂.trace
            .tsClientSecret (s₂.proc.clock s₂.proc.ticks).time = clientSecretReply rt env s.world s.proc s.trace := by
          rw [reads.trace,reads.world,reads.clock,reads.ticks]
          refine secretReply_append (reads.cache _ (by decide)) ?_
          intro e he hcall
          obtain ⟨region,hid⟩ := reads.calls e he
          exact absurd (Call.getParameter.inj (hid.symm.trans hcall)).2.1 (by decide)
        rcases h₃.bind_cases with ⟨clientSecret,s₄,xs₄,ys₄,k₄,h₄,rfl⟩ | ⟨x,k₄,rfl⟩
        · obtain ⟨hs,reads'⟩ := cachedSecret_reply k₄
          rw [hsecret] at hs
          rw [← hs]
          have hcalls : ∀ e ∈ xs₂ ++ xs₄, ∀ data, e.call ≠ .urlopen (tokenRequest data) Tailscale.timeout := by
            intro e he data
            rcases List.mem_append.mp he with he | he
            · obtain ⟨region,hcall⟩ := reads.calls e he
              rw [hcall]
              exact Call.noConfusion
            · obtain ⟨region,hcall⟩ := reads'.calls e he
              rw [hcall]
              exact Call.noConfusion
          rw [getToken_outcome h₄,reads'.world,reads'.trace]
          change exchangeOutcome env s₂.world (s₂.trace ++ xs₄) _ _ = _
          rw [reads.world,reads.trace,List.append_assoc]
          exact exchangeOutcome_append clientId clientSecret hcalls
        · obtain ⟨hs,-⟩ := cachedSecret_reply k₄
          rw [hsecret] at hs
          rw [← hs]
          rfl
      · cases (now_reply k₃).1
    · obtain ⟨hid,-⟩ := cachedSecret_reply k₂
      change _ = (clientIdReply rt env s.world s.proc s.trace).mapError Exn.service at hid
      rw [← hid]
      rfl
  · cases (now_reply k₁).1

theorem findDevice_outcome {token : Json} {hostname : Option Text} {r : Except Exn (Option Json)}
    (h : Steps env.service (Tailscale.findDevice token rt.tsTag hostname) s r es t) :
    r = (do
      let listing ← apiOutcome (apiReply env s.world s.trace (devicesRequest token))
      listedDevice rt hostname listing) := by
  rcases h.bind_cases with ⟨listing,u,xs,ys,h1,h2,-⟩ | ⟨x,h1,rfl⟩
  · obtain ⟨hlisting,-⟩ := callApi_outcome h1
    rw [devicesRequest,← hlisting]
    change r = listedDevice rt hostname listing
    unfold listedDevice
    rcases h2.bind_cases with ⟨devices,u₁,xs₁,ys₁,k₁,h₁,-⟩ | ⟨x,k₁,rfl⟩
    · rw [← (ofExcept_cases k₁).1]
      rcases h₁.bind_cases with ⟨items,u₂,xs₂,ys₂,k₂,h₂,-⟩ | ⟨x,k₂,rfl⟩
      · change r = (Tailscale.elements (devices.getD (.arr [])) >>= _)
        rw [← (ofExcept_cases k₂).1]
        rcases h₂.bind_cases with ⟨tagged,u₃,xs₃,ys₃,k₃,h₃,-⟩ | ⟨x,k₃,rfl⟩
        · change r = (Tailscale.tagged rt.tsTag items >>= _)
          rw [← (ofExcept_cases k₃).1]
          exact (Steps.pure_iff.mp h₃).1
        · change _ = (Tailscale.tagged rt.tsTag items >>= _)
          rw [← (ofExcept_cases k₃).1]
          rfl
      · change _ = (Tailscale.elements (devices.getD (.arr [])) >>= _)
        rw [← (ofExcept_cases k₂).1]
        rfl
    · rw [← (ofExcept_cases k₁).1]
      rfl
  · obtain ⟨hlisting,-⟩ := callApi_outcome h1
    rw [devicesRequest,← hlisting]
    rfl

/-- The lookup comes to what its calls make of it. -/
theorem lookupDevice_outcome {hostname : Option Text} {r : Except Exn (Option Json)}
    (h : Steps env.service (lookupDevice rt hostname) s r es t) :
    r = lookupOutcome rt env s.world s.proc s.trace hostname := by
  unfold lookupOutcome
  rcases h.bind_cases with ⟨token,u,xs,ys,h1,h2,rfl⟩ | ⟨x,h1,rfl⟩
  · have hcalls := tailscaleToken_only h1
    have hworld : u.world = s.world := world_of_inert (tailscaleToken_only.mono fun _ => effect_isTokenCall) h1
    rw [← tailscaleToken_outcome h1,findDevice_outcome h2,hworld,h1.2]
    unfold apiReply
    rw [env.service.reply_append s.world fun e he => isTokenCall_ne (hcalls e he) token]
    rfl
  · rw [← tailscaleToken_outcome h1]
    rfl

/-- The calls of the lookup: reads of secrets, and HTTP requests. -/
def isLookupCall (c : Call) : Prop := (∃ region name, c = .getParameter region name true) ∨
  ∃ request timeout, c = .urlopen request timeout

theorem effect_isLookupCall {c : Call} (h : isLookupCall c) (w : World) : env.effect c w = w := by
  rcases h with ⟨region,name,rfl⟩ | ⟨request,timeout,rfl⟩
  · rfl
  · rfl

theorem tailnetOnline_only (i : Instance) : Only isLookupCall (tailnetOnline rt i) := by
  have htoken : ∀ c, isTokenCall c → isLookupCall c := fun c hc =>
    hc.imp_right fun ⟨data,hdata⟩ => ⟨_,_,hdata⟩
  refine .bind (.attempt (.bind (tailscaleToken_only.mono htoken) fun token => ?_)) fun v => ?_
  · refine .bind (callApi_only (Or.inr ⟨_,_,rfl⟩)) fun _ => .bind (ofExcept_only _) fun _ => ?_
    exact .bind (ofExcept_only _) fun _ => .bind (ofExcept_only _) fun _ => .pure _
  · split
    · exact .pure _
    · exact .pure _
    · exact .throw _

section
variable {w : World} {before xs : List Event}

theorem apiReply_append (hxs : ∀ e ∈ xs, ¬isLookupCall e.call) :
    apiReply env w (before ++ xs) = apiReply env w before := by
  funext request
  exact env.service.reply_append w fun e he hcall => hxs e he (Or.inr ⟨_,_,hcall⟩)

theorem clientIdReply_append {p : Proc} (hxs : ∀ e ∈ xs, ¬isLookupCall e.call) :
    clientIdReply rt env w p (before ++ xs) = clientIdReply rt env w p before :=
  secretReply_append rfl fun e he hcall => hxs e he (Or.inl ⟨_,_,hcall⟩)

theorem clientSecretReply_append {p : Proc} (hxs : ∀ e ∈ xs, ¬isLookupCall e.call) :
    clientSecretReply rt env w p (before ++ xs) = clientSecretReply rt env w p before :=
  secretReply_append rfl fun e he hcall => hxs e he (Or.inl ⟨_,_,hcall⟩)

/-- Other calls made before do not matter for the lookup. -/
theorem lookupOutcome_append {p : Proc} (hxs : ∀ e ∈ xs, ¬isLookupCall e.call) (hostname : Option Text) :
    lookupOutcome rt env w p (before ++ xs) hostname = lookupOutcome rt env w p before hostname := by
  unfold lookupOutcome tokenOutcome exchangeOutcome
  rw [apiReply_append hxs,clientIdReply_append hxs,clientSecretReply_append hxs]

end

/-! ## When the lookup answers -/

/-- A device the client can examine: its tags, if any, are a list, a text or an object. -/
def Examinable (device : Json) : Prop := ∃ fields, device = .obj fields ∧
  ∀ tags, Dict.get fields (text "tags") = some tags → tags.truthy = true → ∃ items, Tailscale.elements tags = .ok items

/-- A listing the client can read: an object whose devices can be gone through and examined. -/
def Listable (listing : Json) : Prop := ∃ fields, listing = .obj fields ∧
  ∃ devices, Tailscale.elements ((Dict.get fields (text "devices")).getD (.arr [])) = .ok devices ∧
    ∀ device ∈ devices, Examinable device

theorem except_bind_ok {ε α β : Type} {m : Except ε α} {f : α → Except ε β} {b : β} :
    (m >>= f) = .ok b ↔ ∃ a, m = .ok a ∧ f a = .ok b := by
  cases m with
  | ok a => simp [bind,Except.bind]
  | error e => simp [bind,Except.bind]

theorem isTagged_untagged {tag : Text} {fields : Dict} (h : Dict.get fields (text "tags") = none) :
    Tailscale.isTagged tag (.obj fields) = .ok false := by
  simp only [Tailscale.isTagged,Tailscale.get,h,bind,Except.bind]

theorem isTagged_tags {tag : Text} {fields : Dict} {tags : Json} (h : Dict.get fields (text "tags") = some tags) :
    Tailscale.isTagged tag (.obj fields) = if tags.truthy then Tailscale.contains tags tag else .ok false := by
  simp only [Tailscale.isTagged,Tailscale.get,h,bind,Except.bind]

theorem contains_ok_iff {tag : Text} {value : Json} :
    (∃ b, Tailscale.contains value tag = .ok b) ↔ ∃ items, Tailscale.elements value = .ok items := by
  cases value <;> simp [Tailscale.contains,Tailscale.elements]

theorem isTagged_ok_iff (tag : Text) {device : Json} :
    (∃ keep, Tailscale.isTagged tag device = .ok keep) ↔ Examinable device := by
  constructor
  · rintro ⟨keep,h⟩
    cases device with
    | obj fields =>
      refine ⟨fields,rfl,?_⟩
      intro tags htags htruthy
      rw [isTagged_tags htags,if_pos htruthy] at h
      exact contains_ok_iff.mp ⟨keep,h⟩
    | _ => cases h
  · rintro ⟨fields,rfl,h⟩
    cases htags : Dict.get fields (text "tags") with
    | none => exact ⟨false,isTagged_untagged htags⟩
    | some tags =>
      rw [isTagged_tags htags]
      by_cases htruthy : tags.truthy = true
      · rw [if_pos htruthy]
        exact contains_ok_iff.mpr (h tags htags htruthy)
      · rw [if_neg htruthy]
        exact ⟨false,rfl⟩

/-- The devices that carry the tag are found exactly when all devices can be examined. -/
theorem tagged_ok_iff (tag : Text) {devices : List Json} :
    (∃ kept, Tailscale.tagged tag devices = .ok kept) ↔ ∀ device ∈ devices, Examinable device := by
  induction devices with
  | nil => simp [Tailscale.tagged]
  | cons device rest ih =>
    rw [List.forall_mem_cons,← ih,← isTagged_ok_iff tag,Tailscale.tagged]
    simp only [except_bind_ok]
    constructor
    · rintro ⟨kept,keep,hkeep,others,hothers,-⟩
      exact ⟨⟨keep,hkeep⟩,others,hothers⟩
    · rintro ⟨⟨keep,hkeep⟩,others,hothers⟩
      exact ⟨_,keep,hkeep,others,hothers,rfl⟩

theorem get_ok_iff {listing : Json} {key : Text} {value : Option Json} :
    Tailscale.get listing key = .ok value ↔ ∃ fields, listing = .obj fields ∧ Dict.get fields key = value := by
  cases listing <;> simp [Tailscale.get]

/-- A device is found among the tagged ones of a listing. -/
theorem listedDevice_found {hostname : Option Text} {listing : Json} {device : Option Json} :
    listedDevice rt hostname listing = .ok device ↔ ∃ fields, listing = .obj fields ∧
      ∃ items, Tailscale.elements ((Dict.get fields (text "devices")).getD (.arr [])) = .ok items ∧
        ∃ kept, Tailscale.tagged rt.tsTag items = .ok kept ∧ Tailscale.selectDevice hostname kept = device := by
  unfold listedDevice
  simp only [except_bind_ok,get_ok_iff]
  constructor
  · rintro ⟨_,⟨fields,rfl,rfl⟩,items,hitems,kept,hkept,hdevice⟩
    exact ⟨fields,rfl,items,hitems,kept,hkept,Except.ok.inj hdevice⟩
  · rintro ⟨fields,rfl,items,hitems,kept,hkept,rfl⟩
    exact ⟨_,⟨fields,rfl,rfl⟩,items,hitems,kept,hkept,rfl⟩

theorem listedDevice_ok_iff {hostname : Option Text} {listing : Json} :
    (∃ device, listedDevice rt hostname listing = .ok device) ↔ Listable listing := by
  unfold Listable
  simp only [listedDevice_found,← tagged_ok_iff rt.tsTag]
  constructor
  · rintro ⟨device,fields,rfl,items,hitems,kept,hkept,-⟩
    exact ⟨fields,rfl,items,hitems,kept,hkept⟩
  · rintro ⟨fields,rfl,items,hitems,kept,hkept⟩
    exact ⟨_,fields,rfl,items,hitems,kept,hkept,rfl⟩

/-- A device is selected when any will do, for its hostname, or for being the only one. -/
theorem selectDevice_cases {hostname : Option Text} {kept : List Json} {device : Json}
    (h : Tailscale.selectDevice hostname kept = some device) : device ∈ kept ∧
      (hostname.getD [] = [] ∨ Tailscale.hasHostname (hostname.getD []) device = true ∨ kept = [device]) := by
  cases kept with
  | nil => cases h
  | cons first rest =>
    unfold Tailscale.selectDevice at h
    dsimp only at h
    by_cases hany : hostname.getD [] = []
    · rw [if_pos hany] at h
      obtain rfl := Option.some.inj h
      exact ⟨List.mem_cons_self,.inl hany⟩
    rw [if_neg hany] at h
    cases hfind : (first :: rest).find? (Tailscale.hasHostname (hostname.getD [])) with
    | some d =>
      rw [hfind] at h
      obtain rfl := Option.some.inj h
      exact ⟨List.mem_of_find?_eq_some hfind,.inr (.inl (List.find?_some hfind))⟩
    | none =>
      rw [hfind] at h
      dsimp only at h
      by_cases hrest : rest = []
      · rw [if_pos hrest] at h
        obtain rfl := Option.some.inj h
        rw [hrest]
        exact ⟨List.mem_cons_self,.inr (.inr rfl)⟩
      · rw [if_neg hrest] at h
        cases h

/-! ## What the lookup raises -/

theorem except_bind_error {ε α β : Type} {m : Except ε α} {f : α → Except ε β} {e : ε} :
    (m >>= f) = .error e ↔ m = .error e ∨ ∃ a, m = .ok a ∧ f a = .error e := by
  cases m with
  | ok a => simp [bind,Except.bind]
  | error e' => simp [bind,Except.bind]

/-- An exception that is not the client's own. -/
def Foreign (e : Exn) : Prop := ∀ detail, e ≠ .tailscaleError detail

theorem contains_foreign {tag : Text} {value : Json} {e : Exn} (h : Tailscale.contains value tag = .error e) :
    Foreign e := by
  rintro detail rfl
  cases value <;> cases h

theorem elements_foreign {value : Json} {e : Exn} (h : Tailscale.elements value = .error e) : Foreign e := by
  rintro detail rfl
  cases value <;> cases h

theorem get_foreign {value : Json} {key : Text} {e : Exn} (h : Tailscale.get value key = .error e) : Foreign e := by
  rintro detail rfl
  cases value <;> cases h

theorem isTagged_foreign {tag : Text} {device : Json} {e : Exn} (h : Tailscale.isTagged tag device = .error e) :
    Foreign e := by
  unfold Tailscale.isTagged at h
  rcases except_bind_error.mp h with h | ⟨tags,-,h⟩
  · exact get_foreign h
  · cases tags with
    | none => cases h
    | some tags =>
      dsimp only at h
      split at h
      · exact contains_foreign h
      · cases h

theorem tagged_foreign {tag : Text} {devices : List Json} {e : Exn} (h : Tailscale.tagged tag devices = .error e) :
    Foreign e := by
  induction devices with
  | nil => cases h
  | cons device rest ih =>
    rw [Tailscale.tagged] at h
    rcases except_bind_error.mp h with h | ⟨keep,-,h⟩
    · exact isTagged_foreign h
    · rcases except_bind_error.mp h with h | ⟨kept,-,h⟩
      · exact ih h
      · cases h

/-- A listing that cannot be read raises an exception of another family. -/
theorem listedDevice_foreign {hostname : Option Text} {listing : Json} {e : Exn}
    (h : listedDevice rt hostname listing = .error e) : Foreign e := by
  unfold listedDevice at h
  rcases except_bind_error.mp h with h | ⟨devices,-,h⟩
  · exact get_foreign h
  · rcases except_bind_error.mp h with h | ⟨items,-,h⟩
    · exact elements_foreign h
    · rcases except_bind_error.mp h with h | ⟨kept,-,h⟩
      · exact tagged_foreign h
      · cases h

/-- The JSON value of an answer, if there is one. -/
def answered : Except ServiceError Bytes → Option Json
  | .ok body => (loadsBytes body).toOption
  | .error _ => none

theorem apiOutcome_cases (reply : Except ServiceError Bytes) :
    (∃ value, answered reply = some value ∧ apiOutcome reply = .ok value) ∨
      answered reply = none ∧ ∃ detail, apiOutcome reply = .error (.tailscaleError detail) := by
  cases reply with
  | error e =>
    right
    cases e <;> exact ⟨rfl,_,rfl⟩
  | ok body =>
    unfold answered apiOutcome
    dsimp only
    cases hload : loadsBytes body with
    | ok value => exact Or.inl ⟨value,rfl,rfl⟩
    | error e => exact Or.inr ⟨rfl,_,rfl⟩

/-- Whether the lookup answers or fails as the client's own error: the credentials can be read and
sent, and what is answered has the shape of the two documents. -/
def TailnetReadable (rt : Runtime) (env : Env) (w : World) (p : Proc) (before : List Event) : Prop :=
  ∃ clientId clientSecret data, clientIdReply rt env w p before = .ok clientId ∧
    clientSecretReply rt env w p before = .ok clientSecret ∧
    Tailscale.credentialsForm clientId clientSecret = some data ∧
    ∀ response, answered (apiReply env w before (tokenRequest data)) = some response →
      ∃ fields, response = .obj fields ∧ ∀ token, Dict.get fields (text "access_token") = some token →
        token.truthy = true → ∀ listing, answered (apiReply env w before (devicesRequest token)) = some listing →
          Listable listing

theorem required_cases (response : Json) {name message : Text} :
    (∀ fields, response ≠ .obj fields) ∧ Tailscale.required response name message = .error .attributeError ∨
      ∃ fields, response = .obj fields ∧
        ((∃ token, Dict.get fields name = some token ∧ token.truthy = true ∧
            Tailscale.required response name message = .ok token) ∨
          (∀ token, Dict.get fields name = some token → token.truthy = false) ∧
            Tailscale.required response name message = .error (.tailscaleError message)) := by
  unfold Tailscale.required
  cases response with
  | obj fields =>
    refine Or.inr ⟨fields,rfl,?_⟩
    simp only [Tailscale.get]
    cases Dict.get fields name with
    | none => exact Or.inr ⟨by simp,rfl⟩
    | some token =>
      by_cases htruthy : token.truthy = true
      · exact Or.inl ⟨token,rfl,htruthy,if_pos htruthy⟩
      · refine Or.inr ⟨?_,if_neg htruthy⟩
        rintro other hother
        rw [← Option.some.inj hother]
        exact Bool.eq_false_iff.mpr htruthy
  | _ => exact Or.inl ⟨by simp,rfl⟩

section
variable {w : World} {p : Proc} {before : List Event} {hostname : Option Text}

/-- A lookup that answers has been given a token and a listing. -/
theorem lookupOutcome_ok {device : Option Json} (h : lookupOutcome rt env w p before hostname = .ok device) :
    ∃ clientId clientSecret data fields token listing, clientIdReply rt env w p before = .ok clientId ∧
      clientSecretReply rt env w p before = .ok clientSecret ∧
      Tailscale.credentialsForm clientId clientSecret = some data ∧
      answered (apiReply env w before (tokenRequest data)) = some (.obj fields) ∧
      Dict.get fields (text "access_token") = some token ∧ token.truthy = true ∧
      answered (apiReply env w before (devicesRequest token)) = some listing ∧
      listedDevice rt hostname listing = .ok device := by
  unfold lookupOutcome tokenOutcome at h
  obtain ⟨token,htoken,h⟩ := except_bind_ok.mp h
  obtain ⟨listing,hlisting,hdevice⟩ := except_bind_ok.mp h
  obtain ⟨clientId,hid,htoken⟩ := except_bind_ok.mp htoken
  obtain ⟨clientSecret,hsecret,htoken⟩ := except_bind_ok.mp htoken
  unfold exchangeOutcome at htoken
  cases hform : Tailscale.credentialsForm clientId clientSecret with
  | none =>
    rw [hform] at htoken
    cases htoken
  | some data =>
    rw [hform] at htoken
    obtain ⟨response,hresponse,htoken⟩ := except_bind_ok.mp htoken
    have hlisted : answered (apiReply env w before (devicesRequest token)) = some listing := by
      rcases apiOutcome_cases (apiReply env w before (devicesRequest token)) with ⟨v,hv,ho⟩ | ⟨-,d,ho⟩
      · rw [hv,Except.ok.inj (ho.symm.trans hlisting)]
      · cases ho.symm.trans hlisting
    have hanswered : answered (apiReply env w before (tokenRequest data)) = some response := by
      rcases apiOutcome_cases (apiReply env w before (tokenRequest data)) with ⟨v,hv,ho⟩ | ⟨-,d,ho⟩
      · rw [hv,Except.ok.inj (ho.symm.trans hresponse)]
      · cases ho.symm.trans hresponse
    rcases required_cases response with ⟨-,hr⟩ | ⟨fields,rfl,⟨other,hget,htruthy,hr⟩ | ⟨-,hr⟩⟩
    · cases hr.symm.trans htoken
    · obtain rfl := Except.ok.inj (hr.symm.trans htoken)
      exact ⟨clientId,clientSecret,data,fields,other,listing,ok_of_mapError hid.symm,ok_of_mapError hsecret.symm,
        hform,hanswered,hget,htruthy,hlisted,hdevice⟩
    · cases hr.symm.trans htoken

theorem tokenOutcome_form {clientId clientSecret : Text} {data : Bytes}
    (hid : clientIdReply rt env w p before = .ok clientId)
    (hsecret : clientSecretReply rt env w p before = .ok clientSecret)
    (hform : Tailscale.credentialsForm clientId clientSecret = some data) :
    tokenOutcome rt env w p before = (apiOutcome (apiReply env w before (tokenRequest data)) >>= fun response =>
      Tailscale.required response (text "access_token") (text "no access_token in oauth response")) := by
  unfold tokenOutcome
  rw [hid,hsecret]
  change exchangeOutcome env w before clientId clientSecret = _
  unfold exchangeOutcome
  rw [hform]

/-- The lookup once the form of the credentials is made. -/
inductive Exchanged (rt : Runtime) (env : Env) (w : World) (p : Proc) (before : List Event) (hostname : Option Text)
    (data : Bytes) : Prop
  | unanswered {detail : Text} : (∀ response, answered (apiReply env w before (tokenRequest data)) = some response →
      ∃ fields, response = .obj fields ∧
        ∀ token, Dict.get fields (text "access_token") = some token → token.truthy = false) →
      lookupOutcome rt env w p before hostname = .error (.tailscaleError detail) →
      Exchanged rt env w p before hostname data
  | malformed {response : Json} : answered (apiReply env w before (tokenRequest data)) = some response →
      (∀ fields, response ≠ .obj fields) →
      lookupOutcome rt env w p before hostname = .error .attributeError → Exchanged rt env w p before hostname data
  | token {fields : Dict} {token : Json} :
      answered (apiReply env w before (tokenRequest data)) = some (.obj fields) →
      Dict.get fields (text "access_token") = some token → token.truthy = true →
      lookupOutcome rt env w p before hostname =
        (apiOutcome (apiReply env w before (devicesRequest token)) >>= listedDevice rt hostname) →
      Exchanged rt env w p before hostname data

theorem exchanged (hostname : Option Text) {clientId clientSecret : Text} {data : Bytes}
    (hid : clientIdReply rt env w p before = .ok clientId)
    (hsecret : clientSecretReply rt env w p before = .ok clientSecret)
    (hform : Tailscale.credentialsForm clientId clientSecret = some data) :
    Exchanged rt env w p before hostname data := by
  have hlookup : lookupOutcome rt env w p before hostname = ((apiOutcome (apiReply env w before (tokenRequest data)) >>=
      fun response => Tailscale.required response (text "access_token") (text "no access_token in oauth response")) >>=
      fun token => apiOutcome (apiReply env w before (devicesRequest token)) >>= listedDevice rt hostname) := by
    unfold lookupOutcome
    rw [tokenOutcome_form hid hsecret hform]
  rcases apiOutcome_cases (apiReply env w before (tokenRequest data)) with ⟨response,hv,ho⟩ | ⟨hv,d,ho⟩
  · rw [ho] at hlookup
    change _ = (Tailscale.required _ _ _ >>= _) at hlookup
    rcases required_cases response with ⟨hne,hr⟩ | ⟨fields,rfl,⟨token,hget,htruthy,hr⟩ | ⟨hfalsy,hr⟩⟩
    · rw [hr] at hlookup
      exact .malformed hv hne hlookup
    · rw [hr] at hlookup
      exact .token hv hget htruthy hlookup
    · rw [hr] at hlookup
      refine .unanswered ?_ hlookup
      intro other hother
      exact ⟨fields,Option.some.inj (hother.symm.trans hv),hfalsy⟩
  · rw [ho] at hlookup
    exact .unanswered (by simp [hv]) hlookup

/-- A lookup from readable parts answers or fails as the client's own error. -/
theorem lookupOutcome_readable (hostname : Option Text) (h : TailnetReadable rt env w p before) :
    (∃ device, lookupOutcome rt env w p before hostname = .ok device) ∨
      ∃ detail, lookupOutcome rt env w p before hostname = .error (.tailscaleError detail) := by
  obtain ⟨clientId,clientSecret,data,hid,hsecret,hform,hshape⟩ := h
  cases exchanged hostname hid hsecret hform with
  | unanswered _ hlookup => exact Or.inr ⟨_,hlookup⟩
  | malformed hv hne _ =>
    obtain ⟨fields,hobj,-⟩ := hshape _ hv
    exact absurd hobj (hne fields)
  | @token fields token hv hget htruthy hlookup =>
    obtain ⟨_,hobj,htoken⟩ := hshape _ hv
    obtain rfl := Json.obj.inj hobj
    rw [hlookup]
    rcases apiOutcome_cases (apiReply env w before (devicesRequest token)) with ⟨listing,hv',ho⟩ | ⟨-,d,ho⟩
    · rw [ho]
      exact Or.inl (listedDevice_ok_iff.mpr (htoken token hget htruthy listing hv'))
    · rw [ho]
      exact Or.inr ⟨d,rfl⟩

/-- A lookup from other parts raises an exception of another family. -/
theorem lookupOutcome_unreadable (hostname : Option Text) (h : ¬TailnetReadable rt env w p before) :
    ∃ e, lookupOutcome rt env w p before hostname = .error e ∧ Foreign e := by
  cases hid : clientIdReply rt env w p before with
  | error e =>
    refine ⟨.service e,?_,by rintro d ⟨⟩⟩
    unfold lookupOutcome tokenOutcome
    rw [hid]
    rfl
  | ok clientId =>
    cases hsecret : clientSecretReply rt env w p before with
    | error e =>
      refine ⟨.service e,?_,by rintro d ⟨⟩⟩
      unfold lookupOutcome tokenOutcome
      rw [hid,hsecret]
      rfl
    | ok clientSecret =>
      cases hform : Tailscale.credentialsForm clientId clientSecret with
      | none =>
        refine ⟨.unicodeEncodeError,?_,by rintro d ⟨⟩⟩
        unfold lookupOutcome tokenOutcome
        rw [hid,hsecret]
        change (exchangeOutcome env w before clientId clientSecret >>= _) = _
        unfold exchangeOutcome
        rw [hform]
        rfl
      | some data =>
        cases exchanged hostname hid hsecret hform with
        | unanswered hfalsy _ =>
          refine absurd ⟨clientId,clientSecret,data,hid,hsecret,hform,?_⟩ h
          intro response hresponse
          obtain ⟨fields,hobj,hnone⟩ := hfalsy response hresponse
          refine ⟨fields,hobj,?_⟩
          intro token hget htruthy
          rw [hnone token hget] at htruthy
          cases htruthy
        | malformed _ _ hlookup => exact ⟨_,hlookup,by rintro d ⟨⟩⟩
        | @token fields token hv hget htruthy hlookup =>
          have hlisting : ∃ listing, answered (apiReply env w before (devicesRequest token)) = some listing ∧
              ¬Listable listing := by
            by_contra hno
            refine h ⟨clientId,clientSecret,data,hid,hsecret,hform,?_⟩
            intro response hresponse
            refine ⟨fields,Option.some.inj (hresponse.symm.trans hv),?_⟩
            intro other hother _ listing hlisting
            obtain rfl := Option.some.inj (hother.symm.trans hget)
            by_contra hlistable
            exact hno ⟨listing,hlisting,hlistable⟩
          obtain ⟨listing,hv',hlistable⟩ := hlisting
          rw [hlookup]
          rcases apiOutcome_cases (apiReply env w before (devicesRequest token)) with ⟨other,hother,ho⟩ | ⟨hnone,-⟩
          · obtain rfl := Option.some.inj (hother.symm.trans hv')
            rw [ho]
            change ∃ e, listedDevice rt hostname other = _ ∧ _
            cases hlisted : listedDevice rt hostname other with
            | ok device => exact absurd (listedDevice_ok_iff.mp ⟨device,hlisted⟩) hlistable
            | error e => exact ⟨e,rfl,listedDevice_foreign hlisted⟩
          · cases hnone.symm.trans hv'
end

end

end ShardVPN.Handler
