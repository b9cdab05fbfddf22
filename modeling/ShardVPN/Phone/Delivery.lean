import Mathlib.Data.List.TakeWhile
import ShardVPN.Phone.Signing
import ShardVPN.Program.Tap
import ShardVPN.Request.Admission
import ShardVPN.Text.Utf8

/-! # What the phone asks is what the server performs

The text of a shortcut is an action, or an action and a region. The body that the script
writes for them is decoded to the same, and when the secret can be read and the clocks
agree, the gate lets it through.
-/
namespace ShardVPN.Script
open Effect Handler

/-- What the server reads of a body made of these. -/
def asked (action : Text) (region : Option Text) : Dict := stringFields (members action region)

section
variable (action : Text) (region : Option Text)

theorem asked_action : (asked action region).get (text "action") = some (.str action) := by
  unfold asked members
  split
  · split <;> rfl
  · rfl

/-- An empty region is left out, so that the server takes its default. -/
theorem asked_region : (asked action region).get (text "region") = (region.filter (· ≠ [])).map Json.str := by
  unfold asked members
  cases region with
  | none => rfl
  | some region =>
    dsimp only
    split
    · rename_i h
      rw [Option.filter_some,if_neg (by simp [h])]
      rfl
    · rename_i h
      rw [Option.filter_some,if_pos (by simp [h])]
      rfl

theorem asked_ttl : (asked action region).get (text "ttl") = none := by
  unfold asked members
  split
  · split <;> rfl
  · rfl

end

theorem members_nodup (action : Text) (region : Option Text) : ((members action region).map Prod.fst).Nodup := by
  have hpair : [text "action",text "region"].Nodup := by decide
  unfold members
  split
  · split
    · exact List.nodup_singleton _
    · exact hpair
  · exact List.nodup_singleton _

/-- The body starts with a brace and a quote, so it is taken for UTF-8. -/
theorem stringify_detected (action : Text) (region : Option Text) :
    detectEncoding ((stringify (members action region)).flatMap ShardVPN.utf8Bytes) = .utf8 := by
  obtain ⟨rest,hrest⟩ : ∃ rest, (stringify (members action region)).flatMap ShardVPN.utf8Bytes =
      0x7B :: 0x22 :: 0x61 :: 0x63 :: rest := by
    unfold members
    split
    · split <;> exact ⟨_,rfl⟩
    · exact ⟨_,rfl⟩
  rw [hrest]
  rfl

theorem loadsBytes_asked {action : Text} {region : Option Text} (haction : Scalar action)
    (hregion : ∀ r ∈ region, Scalar r) {bytes : Bytes}
    (h : encodeUtf8 (stringify (members action region)) = some bytes) :
    loadsBytes bytes = .ok (.obj (asked action region)) := by
  have hread : loads (stringify (members action region)) = .ok (.obj (asked action region)) :=
    loads_stringify (fun p hp => ⟨(members_scalar haction hregion p hp).1.unpaired,
      (members_scalar haction hregion p hp).2.unpaired⟩) (members_nodup action region)
  have hdecode := decodeUtf8_encodeUtf8 h
  obtain ⟨-,rfl⟩ := encodeUtf8_eq_some.mp h
  unfold loadsBytes decodeJsonBytes
  rw [stringify_detected]
  dsimp only
  rw [hdecode]
  exact hread

section
variable {rt : Runtime} {secret action : Text} {region : Option Text} {dateNow : ℕ} {event : Dict}

theorem requestBody_delivered (haction : Scalar action) (hregion : ∀ r ∈ region, Scalar r)
    (h : Delivered rt.lower (request secret action region dateNow) event) :
    requestBody event = some (asked action region) := by
  have hscalar : Scalar (stringify (members action region)) := stringify_scalar (members_scalar haction hregion)
  have hbytes := encodeUtf8_scalar hscalar
  have hne : (stringify (members action region)).flatMap ShardVPN.utf8Bytes ≠ [] := by
    unfold stringify
    simp [ShardVPN.utf8Bytes]
  unfold requestBody
  rw [extractBody_arrived hbytes hne h.body]
  dsimp only
  rw [if_neg hne,loadsBytes_asked haction hregion hbytes]

theorem authResult_delivered (hhmac : ∀ key message, (rt.hmacSha256 key message).1 = Sha256.hmacSha256 key message)
    (hsecret : Scalar secret) (haction : Scalar action) (hregion : ∀ r ∈ region, Scalar r)
    (hclock : dateNow / 1000 < 10 ^ 11) {now : ℤ} (hskew : (now - (dateNow / 1000 : ℕ)).natAbs ≤ Auth.maxSkewSeconds)
    (h : Delivered rt.lower (request secret action region dateNow) event) :
    authResult rt event secret now = .ok () := by
  obtain ⟨body,hbody,hverify⟩ := request_accepted hhmac hsecret haction hregion hclock hskew h
  unfold authResult
  rw [hbody]
  exact hverify

/-- A gate that has the secret of the phone, at a time within the skew. -/
structure Opens (rt : Runtime) (env : Env) (s : State) (secret : Text) (dateNow : ℕ) : Prop where
  shared : ∃ t, (signingSecret rt).exec env.service s = (.ok secret,t) ∧
    (checkTime t - (dateNow / 1000 : ℕ)).natAbs ≤ Auth.maxSkewSeconds
  configured : secret ≠ Settings.placeholderSigningSecret

variable {env : Env} {requestId : Text} {s t : State} {es : List Event}

/-- The gate lets the request through to the action it asks for. -/
theorem handleHttp_delivered (hhmac : ∀ key message, (rt.hmacSha256 key message).1 = Sha256.hmacSha256 key message)
    (hsecret : Scalar secret) (haction : Scalar action) (hregion : ∀ r ∈ region, Scalar r)
    (hclock : dateNow / 1000 < 10 ^ 11) (hopens : Opens rt env s secret dateNow)
    (hdelivered : Delivered rt.lower (request secret action region dateNow) event) {r : Except Exn Response}
    (h : Steps env.service (handleHttp rt requestId event) s r es t) :
    ∃ v u xs ys, r = .ok (answerOf requestId v) ∧ es = xs ++ ys ∧ (∀ e ∈ xs, e.call = secretRead rt) ∧
      u.world = s.world ∧ Steps env.service (perform rt (asked action region)) u v ys t := by
  obtain ⟨⟨u,hread,hskew⟩,hconfigured⟩ := hopens
  obtain ⟨v,u',xs,ys,h1,h2,rfl⟩ := h.bind_attempt
  have hv : (v,u') = (.ok secret,u) := h1.1.symm.trans hread
  obtain ⟨rfl,rfl⟩ := Prod.mk.inj hv
  have hworld : u'.world = s.world := by
    rw [h1.world]
    exact replay_reads env (fun e he => signingSecret_only rt h1 e he ▸ rfl) _
  dsimp only at h2
  rw [if_neg hconfigured] at h2
  obtain ⟨v,u,ys,zs,h3,h4,rfl⟩ := h2.bind_attempt
  obtain ⟨hresult,rfl⟩ := authenticate_result h3
  rw [authResult_delivered hhmac hsecret haction hregion hclock hskew hdelivered] at hresult
  subst hresult
  dsimp only at h4
  rw [requestBody_delivered haction hregion hdelivered] at h4
  obtain ⟨a,rfl,h5⟩ := Steps.total_iff.mp h4
  obtain ⟨v,hv,h6⟩ := dispatch_cases h5
  refine ⟨v,u,xs,zs,congrArg _ (Except.ok.inj hv),rfl,signingSecret_only rt h1,?_,h6⟩
  rw [h3.world]
  exact hworld

theorem lambdaHandler_delivered (hhmac : ∀ key message, (rt.hmacSha256 key message).1 = Sha256.hmacSha256 key message)
    (hsecret : Scalar secret) (haction : Scalar action) (hregion : ∀ r ∈ region, Scalar r)
    (hclock : dateNow / 1000 < 10 ^ 11) (hopens : Opens rt env s secret dateNow)
    (hdelivered : Delivered rt.lower (request secret action region dateNow) event)
    (hcontext : event.get (text "requestContext") ≠ none) {r : Except Exn Reply}
    (h : Steps env.service (lambdaHandler rt requestId event) s r es t) :
    ∃ v u xs ys, r = .ok (.http (answerOf requestId v)) ∧ es = xs ++ ys ∧ (∀ e ∈ xs, e.call = secretRead rt) ∧
      u.world = s.world ∧ Steps env.service (perform rt (asked action region)) u v ys t := by
  obtain ⟨context,hcontext⟩ := Option.ne_none_iff_exists'.mp hcontext
  rw [lambdaHandler,hcontext] at h
  rcases h.bind_cases with ⟨response,t',xs,ys,h1,h2,rfl⟩ | ⟨x,h1,-⟩
  · obtain ⟨rfl,rfl,rfl⟩ := Steps.pure_iff.mp h2
    obtain ⟨v,u,zs,us,hv,rfl,hzs,hu,hperform⟩ :=
      handleHttp_delivered hhmac hsecret haction hregion hclock hopens hdelivered h1
    refine ⟨v,u,zs,us,?_,List.append_nil _,hzs,hu,hperform⟩
    rw [Except.ok.inj hv]
  · obtain ⟨v,u,zs,us,hv,-⟩ := handleHttp_delivered hhmac hsecret haction hregion hclock hopens hdelivered h1
    cases hv

end

/-! ## Shortcuts -/

/-- The text of a shortcut: an action, and a region after a colon if there is one. -/
def shortcut (action : Text) : Option Text → Text
  | none => action
  | some region => action ++ 58 :: region

theorem splitParameter_shortcut {action : Text} {region : Option Text} (haction : 58 ∉ action)
    (hregion : ∀ r ∈ region, 58 ∉ r) : splitParameter (some (shortcut action region)) = (some action,region) := by
  have hkept : ∀ c ∈ action, decide (c ≠ 58) = true :=
    fun c hc => decide_eq_true fun heq => haction (heq ▸ hc)
  cases region with
  | none => exact if_neg haction
  | some region =>
    unfold splitParameter shortcut
    dsimp only
    rw [if_pos (by simp),List.takeWhile_append_of_pos hkept,List.dropWhile_append_of_pos hkept]
    have hrest : ∀ c ∈ region, c ≠ 58 := fun c hc heq => hregion region rfl (heq ▸ hc)
    simpa using hrest

/-- A shortcut with an action leaves out the menu and the query. -/
theorem choose_shortcut (engine : Engine) (query : Option Text) (menu : Menu) {action : Text} {region : Option Text}
    (hne : action ≠ []) (haction : 58 ∉ action) (hregion : ∀ r ∈ region, 58 ∉ r) :
    choose engine (rawParameter (some (shortcut action region)) query) menu = some (action,region) := by
  have hshortcut : shortcut action region ≠ [] := by
    cases region <;> simp [shortcut,hne]
  have hraw : rawParameter (some (shortcut action region)) query = some (shortcut action region) := by
    unfold rawParameter
    rw [Option.filter_some,if_pos (by simp [hshortcut])]
    rfl
  unfold choose
  rw [hraw,splitParameter_shortcut haction hregion]
  dsimp only
  rw [Option.filter_some,if_pos (by simp [hne])]

/-- Whatever action and region a shortcut names, an unlocked server performs that action with that region, and
with its own time to live. -/
theorem shortcut_performed (engine : Engine) (rt : Runtime)
    (hhmac : ∀ key message, (rt.hmacSha256 key message).1 = Sha256.hmacSha256 key message) (secret action : Text)
    (region query : Option Text) (menu : Menu) (hsecret : Scalar secret) (hscalar : Scalar action)
    (hregions : ∀ r ∈ region, Scalar r) (hne : action ≠ []) (haction : 58 ∉ action) (hregion : ∀ r ∈ region, 58 ∉ r) :
    choose engine (rawParameter (some (shortcut action region)) query) menu = some (action,region) ∧
    ∀ (env : Env) (s : State) (dateNow : ℕ) (requestId : Text) (event : Dict), dateNow / 1000 < 10 ^ 11 →
      Opens rt env s secret dateNow → Delivered rt.lower (request secret action region dateNow) event →
      event.get (text "requestContext") ≠ none → ∃ body v u t xs ys, body.get (text "action") = some (.str action) ∧
        body.get (text "region") = (region.filter (· ≠ [])).map Json.str ∧ body.get (text "ttl") = none ∧
        u.world = s.world ∧ Steps env.service (perform rt body) u v ys t ∧ (∀ e ∈ xs, e.call = secretRead rt) ∧
        Steps env.service (lambdaHandler rt requestId event) s (.ok (.http (answerOf requestId v))) (xs ++ ys) t := by
  refine ⟨choose_shortcut engine query menu hne haction hregion,?_⟩
  intro env s dateNow requestId event hclock hopens hdelivered hcontext
  have hsteps := (lambdaHandler rt requestId event).steps_exec env.service s
  obtain ⟨v,u,xs,ys,hr,hes,hxs,hu,hperform⟩ :=
    lambdaHandler_delivered hhmac hsecret hscalar hregions hclock hopens hdelivered hcontext hsteps
  rw [hr,hes] at hsteps
  exact ⟨_,v,u,_,xs,ys,asked_action _ _,asked_region _ _,asked_ttl _ _,hu,hperform,hxs,hsteps⟩

/-- An engine that reads what the server writes, and shows other values as they are written. -/
def plainEngine : Engine where
  parse t := (loads t).mapError fun _ => text "SyntaxError"
  string
    | .str t => t
    | value => dumps value
  nullError := text "TypeError"
  trim t := ((t.dropWhile (· = 32)).reverse.dropWhile (· = 32)).reverse
  parse_loads h _ := by rw [h]; rfl
  string_str _ := rfl

/-- The event of a request at the first midnight of 2026. -/
def midnightEvent (action : Text) (region : Option Text) : Dict :=
  (text "requestContext",.obj []) :: eventOf (request Plain.secret action region 1767225600999)

theorem midnightEvent_delivered (action : Text) (region : Option Text) :
    Delivered standard.lower (request Plain.secret action region 1767225600999) (midnightEvent action region) := by
  refine ⟨.plain rfl rfl,_,rfl,?_,fun h hh => ⟨h.1,hh,rfl⟩⟩
  exact (by decide +kernel : ([text "Content-Type",text "X-ShardVPN-Timestamp",text "X-ShardVPN-Signature"].map
    standard.lower).Nodup)

theorem opens_midnight : Opens standard Plain.clean (Plain.state Plain.empty) Plain.secret 1767225600999 :=
  ⟨⟨_,rfl,by decide⟩,by decide⟩

theorem shortcut_performed_midnight :
    choose plainEngine (rawParameter (some (shortcut (text "up") (some Plain.region1))) none) ⟨none,none⟩ =
        some (text "up",some Plain.region1) ∧
      ∃ body v u t xs ys, body.get (text "action") = some (.str (text "up")) ∧
        body.get (text "region") = ((some Plain.region1).filter (· ≠ [])).map Json.str ∧
        body.get (text "ttl") = none ∧ u.world = Plain.empty ∧
        Steps Plain.clean.service (perform standard body) u v ys t ∧ (∀ e ∈ xs, e.call = secretRead standard) ∧
        Steps Plain.clean.service (lambdaHandler standard [] (midnightEvent (text "up") (some Plain.region1)))
          (Plain.state Plain.empty) (.ok (.http (answerOf [] v))) (xs ++ ys) t := by
  obtain ⟨hchoose,hperformed⟩ := shortcut_performed plainEngine standard (fun _ _ => rfl) Plain.secret (text "up")
    (some Plain.region1) none ⟨none,none⟩ (by decide) (by decide) (by decide) (by decide) (by decide) (by decide)
  refine ⟨hchoose,?_⟩
  exact hperformed Plain.clean (Plain.state Plain.empty) 1767225600999 [] _ (by decide) opens_midnight
    (midnightEvent_delivered _ _) (by rintro ⟨⟩)

end ShardVPN.Script
