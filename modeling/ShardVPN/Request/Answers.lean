import ShardVPN.Effect.Ensures
import ShardVPN.Json.Writers
import ShardVPN.Request.Entry

/-! # What an answer is made of

As long as the tags, the addresses and the pointer of the account are Unicode, every
HTTP answer is an object of texts that are Unicode, each key once, whatever fails on
the way, and the account stays so.
-/
namespace ShardVPN.Handler
open Effect Time Ec2ops Settings

/-- What a status quotes of an instance is Unicode. -/
structure Quotable (i : Instance) : Prop where
  instanceId : Scalar i.instanceId
  address : ∀ t ∈ i.publicIpAddress, Scalar t
  hostname : ∀ t ∈ tagValue i tagHostname, Scalar t
  expires : ∀ t ∈ tagValue i tagExpires, Scalar t

def ScalarRegion (p : Pointer) : Prop := ∃ region, p.region = .str region ∧ Scalar region

/-- What a status quotes of the account is Unicode. -/
structure Unicode (rt : Runtime) (w : World) : Prop where
  instances : ∀ n ∈ w.instances, Quotable n.2
  regions : ∀ n ∈ w.instances, Scalar n.1
  pointer : ∀ p, storedPointer rt w = .ok (some p) → ScalarRegion p

/-- Nothing but null and Unicode texts, each under a key of its own. -/
def Readable (document : Dict) : Prop := Worded (.obj document)

/-- A success or a failure, with such a payload. -/
structure Telling (response : Response) : Prop where
  payload : Worded response.payload
  status : response.statusCode = 200 ∨ 400 ≤ response.statusCode

/-! ## Documents -/

theorem hex_scalar (bytes : Bytes) : Scalar (hex bytes) := by
  intro c hc
  obtain ⟨b,-,hc⟩ := List.mem_flatMap.mp hc
  rcases List.mem_pair.mp hc with rfl | rfl <;> exact isSurrogate_of_isAscii (hexDigit_ascii _)

theorem formatDuration_scalar (seconds : ℤ) : Scalar (Ttl.formatDuration seconds) := by
  have hunits : Scalar (text "d") ∧ Scalar (text "h") ∧ Scalar (text "m") := by decide
  have hpart : ∀ (n : ℕ) {unit : Text}, Scalar unit → Scalar (decimal n ++ unit) := fun n _ hunit =>
    (decimal_ascii n).scalar.append hunit
  unfold Ttl.formatDuration
  dsimp only
  split
  · apply Scalar.append _ hunits.2.2
    apply Scalar.append _ (decimal_ascii _).scalar
    apply Scalar.append _ hunits.2.1
    exact (hpart _ hunits.1).append (decimal_ascii _).scalar
  split
  · apply Scalar.append _ hunits.2.2
    exact (hpart _ hunits.2.1).append (decimal_ascii _).scalar
  · exact hpart _ hunits.2.2

theorem strftime_scalar (dt : DateTime) : Scalar (strftime dt) := by
  have hdigit : ∀ n, isSurrogate (digit n) = false := fun n =>
    isSurrogate_of_isAscii (isAscii_of_isAsciiDigit (isAsciiDigit_digit n))
  have hpad : ∀ n, Scalar (pad2 n) := fun n => .cons (hdigit _) (.cons (hdigit _) (by decide))
  unfold strftime
  apply Scalar.append (.cons (hdigit _) (.cons (hdigit _) (hpad _)))
  apply Scalar.cons rfl
  apply (hpad _).append
  apply Scalar.cons rfl
  apply (hpad _).append
  apply Scalar.cons rfl
  apply (hpad _).append
  apply Scalar.cons rfl
  apply (hpad _).append
  apply Scalar.cons rfl
  exact (hpad _).append (by decide)

theorem parseTtl_scalar {ttl : Json} {now : DateTime} {expiresAt : Text} (h : Ttl.parseTtl ttl now = .ok expiresAt) :
    Scalar expiresAt := by
  have hnever : Scalar Ttl.never := by decide
  unfold Ttl.parseTtl at h
  split at h
  · cases h
    exact hnever
  · split at h
    · cases h
      exact hnever
    · split at h
      · cases h
      · split at h
        · cases h
        · dsimp only at h
          split at h
          · cases h
          split at h
          · cases h
          split at h
          · cases h
          · unfold Ttl.rfc3339 at h
            split at h
            · cases h
              rename_i hshown
              obtain ⟨utc,-,rfl⟩ := Option.map_eq_some_iff.mp hshown
              exact strftime_scalar utc
            · cases h
  · cases h

theorem age_scalar (launched : Option Text) (now : DateTime) : ∀ t ∈ Statusdoc.age launched now, Scalar t := by
  intro t ht
  unfold Statusdoc.age at ht
  split at ht
  · cases ht
  split at ht
  · cases ht
  · obtain ⟨launch,-,rfl⟩ := Option.map_eq_some_iff.mp ht
    exact formatDuration_scalar _

theorem worded_jsonText {t : Option Text} (h : ∀ s ∈ t, Scalar s) : Worded (Statusdoc.jsonText t) := by
  cases t with
  | none => exact .null
  | some s => exact .str (h s rfl)

theorem readable_of_values {document : Dict} (keys : List Text) (hkeys : document.map Prod.fst = keys)
    (hok : keys.Nodup ∧ ∀ k ∈ keys, Scalar k ∧ k.head?.any isAsciiDigit = false)
    (h : ∀ v ∈ document.map Prod.snd, Worded v) : Readable document :=
  .obj (hkeys ▸ hok.1) (hkeys ▸ hok.2) fun _ hp => h _ (List.mem_map_of_mem hp)

theorem statusKeys_ok : (Statusdoc.absent.map Prod.fst).Nodup ∧
    ∀ k ∈ Statusdoc.absent.map Prod.fst, Scalar k ∧ k.head?.any isAsciiDigit = false := by decide +kernel

theorem readable_absent : Readable Statusdoc.absent := by
  apply readable_of_values _ rfl statusKeys_ok
  intro v hv
  simp only [Statusdoc.absent,List.map_cons,List.map_nil,List.mem_cons,List.not_mem_nil,or_false] at hv
  rcases hv with rfl | rfl | rfl | rfl | rfl | rfl | rfl | rfl | rfl <;>
    first | exact .null | exact .str (by decide)

theorem readable_build {i : Instance} (hi : Quotable i) {region : Json} (hregion : Worded region)
    (online : Option Bool) (idleSeconds : Option ℤ) (now : DateTime) :
    Readable (Statusdoc.build (some i) region online idleSeconds now) := by
  refine readable_of_values _ ?_ statusKeys_ok ?_
  · rfl
  intro v hv
  simp only [Statusdoc.build,Statusdoc.describeInstance,List.map_cons,List.map_nil,List.mem_cons,List.not_mem_nil,
    or_false] at hv
  rcases hv with rfl | rfl | rfl | rfl | rfl | rfl | rfl | rfl | rfl
  · exact .str (by cases i.state <;> decide)
  · exact hregion
  · exact .str hi.instanceId
  · exact worded_jsonText hi.address
  · exact .str (by rcases online with _ | _ | _ <;> decide)
  · exact worded_jsonText hi.hostname
  · exact worded_jsonText (age_scalar _ _)
  · exact worded_jsonText fun t ht => hi.expires t (Option.mem_filter_iff.mp ht).1
  · apply worded_jsonText
    intro t ht
    obtain ⟨seconds,-,rfl⟩ := Option.map_eq_some_iff.mp ht
    exact formatDuration_scalar seconds

theorem readable_launchDocument {region instanceId hostname expiresAt : Text} (hregion : Scalar region)
    (hid : Scalar instanceId) (hhostname : Scalar hostname) (hexpires : Scalar expiresAt) :
    Readable (launchDocument region instanceId hostname expiresAt) := by
  rw [launchDocument_eq]
  refine readable_of_values _ ?_ statusKeys_ok ?_
  · rfl
  intro v hv
  simp only [List.map_cons,List.map_nil,List.mem_cons,List.not_mem_nil,or_false] at hv
  rcases hv with rfl | rfl | rfl | rfl | rfl | rfl | rfl | rfl | rfl
  · exact .str (by decide)
  · exact .str hregion
  · exact .str hid
  · exact .null
  · exact .str (by decide)
  · exact .str hhostname
  · exact .str (by decide)
  · split
    · exact .null
    · exact .str hexpires
  · exact .null

theorem Telling.success {document : Dict} (h : Readable document) : Telling (respond 200 document) := ⟨h,Or.inl rfl⟩

theorem telling_failure {code : ℕ} (hcode : 400 ≤ code) {message : Text} (h : Scalar message) :
    Telling (failure code message) := by
  refine ⟨readable_of_values [text "error"] rfl (by decide) ?_,Or.inr hcode⟩
  intro v hv
  rw [List.mem_singleton.mp hv]
  exact .str h

theorem telling_unknownRegion {regions : List Text} (h : ∀ r ∈ regions, Scalar r) : Telling (unknownRegion regions) := by
  refine ⟨readable_of_values [text "error",text "valid"] rfl (by decide) ?_,Or.inr (le_refl 400)⟩
  intro v hv
  rcases List.mem_pair.mp hv with rfl | rfl
  · exact .str (by decide)
  · refine .arr fun x hx => ?_
    obtain ⟨r,hr,rfl⟩ := List.mem_map.mp hx
    exact .str (h r hr)

theorem telling_answerOf {requestId : Text} (hid : Scalar requestId) {r : Except Exn Response}
    (h : ∀ response, r = .ok response → Telling response) : Telling (answerOf requestId r) := by
  unfold answerOf
  split
  · exact h _ rfl
  · exact telling_failure (by decide) (by decide)
  · refine ⟨readable_of_values [text "error",text "request_id"] rfl (by decide) ?_,.inr (Nat.le_add_right 400 100)⟩
    intro v hv
    rcases List.mem_pair.mp hv with rfl | rfl
    · exact .str (by decide)
    · exact .str hid

/-! ## Calls that keep the account Unicode -/

section
variable {rt : Runtime} {env : Env} {v w : World}

theorem Unicode.of_same (h : Unicode rt v) (hsame : Same v w) : Unicode rt w where
  instances := by
    rw [hsame.instances]
    exact h.instances
  regions := by
    rw [hsame.instances]
    exact h.regions
  pointer := by
    rw [hsame.storedPointer]
    exact h.pointer

/-- Instances that change no more than their state and other tags. -/
theorem Unicode.of_map (h : Unicode rt v) {f : Text → Instance → Instance} (hf : ∀ r i, Quotable i → Quotable (f r i))
    (hinstances : w.instances = v.instances.map fun n => (n.1,f n.1 n.2)) (hpointer : w.parameters = v.parameters) :
    Unicode rt w where
  instances n hn := by
    rw [hinstances] at hn
    obtain ⟨m,hm,rfl⟩ := List.mem_map.mp hn
    exact hf m.1 m.2 (h.instances m hm)
  regions n hn := by
    rw [hinstances] at hn
    obtain ⟨m,hm,rfl⟩ := List.mem_map.mp hn
    exact h.regions m hm
  pointer := by
    unfold storedPointer
    rw [hpointer]
    exact h.pointer

theorem Quotable.terminate {i : Instance} (h : Quotable i) : Quotable i.terminate := ⟨h.1,h.2,h.3,h.4⟩

theorem Unicode.terminated (h : Unicode rt w) (region : Text) (ids : List Text) :
    Unicode rt (env.effect (.terminateInstances region ids) w) := by
  refine h.of_map (f := fun r i => if r = region ∧ i.instanceId ∈ ids then i.terminate else i) ?_ rfl rfl
  intro r i hi
  split
  · exact hi.terminate
  · exact hi

theorem Quotable.setTag {i : Instance} (h : Quotable i) {t : Tag} (ht : t.key = tagAlerted) :
    Quotable (i.setTag t) where
  instanceId := h.instanceId
  address := h.address
  hostname := by
    rw [tagValue_setTag_of_ne i (by rw [ht]; decide)]
    exact h.hostname
  expires := by
    rw [tagValue_setTag_of_ne i (by rw [ht]; decide)]
    exact h.expires

theorem Unicode.pointed (h : Unicode rt w) {value : Option Pointer}
    (hvalue : ∀ p, decodePointer (encodePointer value) = .ok (some p) → ScalarRegion p) :
    Unicode rt (env.effect (pointerWrite rt value) w) where
  instances := h.instances
  regions := h.regions
  pointer p hp := by
    rw [storedPointer_write] at hp
    exact hvalue p hp

theorem decoded_none {p : Pointer} (h : decodePointer (encodePointer none) = .ok (some p)) : ScalarRegion p := by
  rw [decode_encode_none] at h
  cases h

theorem decoded_some {region instanceId : Text} (hr : Scalar region) (hi : Scalar instanceId) {p : Pointer}
    (h : decodePointer (encodePointer (some ⟨.str region,.str instanceId⟩)) = .ok (some p)) : ScalarRegion p := by
  rw [decode_encode hr hi] at h
  cases h
  exact ⟨region,rfl,hr⟩

theorem quotable_launched {request : RunInstances} {hostname launchedAt expiresAt : Text} (hhostname : Scalar hostname)
    (hexpires : Scalar expiresAt) (htags : request.tags = launchTags hostname launchedAt expiresAt) (w : World) :
    Quotable (env.launched w request) := by
  have hread : tagValue (env.launched w request) tagHostname = some hostname ∧
      tagValue (env.launched w request) tagExpires = some expiresAt := by
    unfold tagValue Env.launched
    rw [htags]
    exact ⟨rfl,rfl⟩
  refine ⟨env.instanceId_scalar w,by rintro _ ⟨⟩,?_,?_⟩
  · rw [hread.1]
    rintro _ ⟨⟩
    exact hhostname
  · rw [hread.2]
    rintro _ ⟨⟩
    exact hexpires

theorem Unicode.launched (h : Unicode rt w) {region : Text} {request : RunInstances} (hregion : Scalar region)
    (hrequest : Quotable (env.launched w request)) : Unicode rt (env.effect (.runInstances region request) w) where
  instances n hn := by
    rcases List.mem_append.mp hn with hn | hn
    · exact h.instances n hn
    · rw [List.mem_singleton.mp hn]
      exact hrequest
  regions n hn := by
    rcases List.mem_append.mp hn with hn | hn
    · exact h.regions n hn
    · rw [List.mem_singleton.mp hn]
      exact hregion
  pointer := h.pointer

/-! ## Actions -/

variable (rt env) in
/-- The action keeps the account Unicode and returns what meets the condition. -/
abbrev Tells {X α : Type} (m : Program X α) (post : α → Prop) : Prop :=
  Ensures env.service (fun w _ => Unicode rt w) m post

theorem tells_quiet {X α : Type} {m : Program X α} (hm : Quiet m) : Tells rt env m fun _ => True :=
  .of_only hm fun w _ hw hc => hw.of_same (env.effect_quiet hc w)

/-- A quiet action whose result is known otherwise. -/
theorem tells_reply {X α : Type} {m : Program X α} (hm : Quiet m) {post : α → Prop}
    (h : ∀ s a es t, Unicode rt s.world → Steps env.service m s (.ok a) es t → post a) : Tells rt env m post := by
  intro s r es t hsteps hs
  refine ⟨(tells_quiet hm hsteps hs).1,?_⟩
  rintro a rfl
  exact h s a es t hs hsteps

theorem tells_call {c : Call} {post : Resp c → Prop} (heffect : ∀ w, Unicode rt w → Unicode rt (env.effect c w))
    (hreply : ∀ n w a, env.answer c n w = .ok a → post a) : Tells rt env (Program.call c) post :=
  .call (fun w _ hw => heffect w hw) fun _ w _ a _ h => hreply _ w a (Service.reply_ok h).1

theorem tells_ofExcept {X α : Type} {r : Except X α} {post : α → Prop} (h : ∀ a, r = .ok a → post a) :
    Tells rt env (Program.ofExcept r) post := by
  cases r with
  | ok a => exact .pure (h a rfl)
  | error x => exact .throw x

theorem readPointer_tells : Tells rt env (readPointer rt.controlRegion .currentNode) fun pointer =>
    ∀ p, pointer = some p → ScalarRegion p := by
  refine tells_reply (readPointer_frugal _ _).quiet ?_
  rintro s _ es t hs h p rfl
  rcases (readPointer_cases h).2.2 with hstored | ⟨x,hx⟩
  · exact hs.pointer p hstored.symm
  · cases hx

theorem findNodes_tells (region : Text) : Tells rt env (findNodes region) fun is => ∀ i ∈ is, Quotable i := by
  refine tells_reply (findNodes_frugal region).quiet ?_
  intro s is es t hs h i hi
  obtain ⟨-,-,⟨is',his,hperm,-⟩ | ⟨e,b,he,-⟩⟩ := findNodes_cases h
  · cases his
    exact hs.instances (region,i) (List.mem_filter.mp (mem_nodesIn.mp (hperm.mem_iff.mp hi))).1
  · cases he

theorem document_tells {p : Pointer} {region : Text} {i : Instance} (hi : Quotable i) (hp : Worded p.region) :
    Tells rt env (document rt p region i) Readable := by
  refine .bind (tells_quiet now_only) fun now _ => ?_
  refine .bind (tells_quiet (frugal_describing.tailnetOnline i |>.mono fun _ => And.left)) fun online _ => ?_
  refine .bind (tells_quiet (frugal_describing.idleFor _ _ _ |>.mono fun _ => And.left)) fun idle _ => ?_
  exact .pure (readable_build hi hp online idle _)

theorem ScalarRegion.worded {p : Pointer} (hp : ScalarRegion p) : Worded p.region := by
  obtain ⟨region,hregion,hscalar⟩ := hp
  rw [hregion]
  exact .str hscalar

theorem describe_tells {pointer : Option Pointer} (h : ∀ p, pointer = some p → ScalarRegion p) :
    Tells rt env (describe rt pointer) Readable := by
  cases pointer with
  | none => exact .pure readable_absent
  | some p =>
    refine .bind (tells_quiet (ofExcept_only _)) fun region _ => .bind (findNodes_tells region) fun nodes hnodes => ?_
    cases nodes with
    | nil => exact .pure readable_absent
    | cons first rest => exact document_tells (hnodes _ (selectInstance_cases first rest _).1) (h p rfl).worded

theorem writePointer_tells {value : Option Pointer}
    (hvalue : ∀ p, decodePointer (encodePointer value) = .ok (some p) → ScalarRegion p) :
    Tells rt env (writePointer rt.controlRegion .currentNode value) fun _ => True :=
  tells_call (fun _ hw => hw.pointed hvalue) fun _ _ _ _ => trivial

theorem status_tells : Tells rt env (status rt) Telling :=
  .bind readPointer_tells fun _ hpointer => .bind (describe_tells hpointer) fun _ hdocument => .pure (.success hdocument)

theorem terminateRegion_tells (region : Text) : Tells rt env (terminateRegion region) fun _ => True := by
  refine .bind (tells_quiet (findNodes_frugal region).quiet) fun nodes _ => ?_
  induction nodes with
  | nil => exact .pure trivial
  | cons i rest ih =>
    exact .bind (tells_call (fun _ hw => hw.terminated _ _) fun _ _ _ _ => trivial) fun _ _ => ih

theorem down_tells : Tells rt env (down rt) Telling := by
  refine .bind readPointer_tells fun pointer _ => ?_
  cases pointer with
  | none =>
    refine .bind (tells_quiet (defaultClient_only rfl)) fun region _ => ?_
    exact .bind (terminateRegion_tells region) fun _ _ => .pure (.success readable_absent)
  | some p =>
    refine .bind (tells_quiet (ofExcept_only _)) fun region _ => .bind (terminateRegion_tells region) fun _ _ => ?_
    exact .bind (writePointer_tells fun _ => decoded_none) fun _ _ => .pure (.success readable_absent)

theorem tokenHex_tells : Tells rt env (Program.tokenHex : Program Exn Text) Scalar := by
  refine tells_reply tokenHex_frugal.quiet ?_
  intro s suffix es t _ h
  have hhex : Yields Scalar (Program.tokenHex : Program Exn Text) :=
    .bind fun p => .bind fun _ => .pure (hex_scalar _)
  exact hhex h

theorem launch_tells {region ami instanceType sgId hostname launchedAt expiresAt clientToken : Text}
    {userData : UserData} (hregion : Scalar region) (hhostname : Scalar hostname) (hexpires : Scalar expiresAt) : Tells rt env
      (launch region ami instanceType sgId userData (launchTags hostname launchedAt expiresAt) clientToken) Scalar := by
  refine tells_call (fun w hw => hw.launched hregion (quotable_launched hhostname hexpires rfl w)) ?_
  rintro _ w _ ⟨⟩
  exact env.instanceId_scalar w

theorem launchNode_tells {region expiresAt : Text} (now : DateTime) (hregion : Scalar region)
    (hexpires : Scalar expiresAt) : Tells rt env (launchNode rt region now expiresAt) Telling := by
  refine .bind tokenHex_tells fun suffix hsuffix => ?_
  have hhostname : Scalar (text "shardvpn-" ++ region ++ text "-" ++ suffix) := by
    apply Scalar.append _ hsuffix
    apply Scalar.append _ (by decide)
    exact Scalar.append (by decide) hregion
  generalize text "shardvpn-" ++ region ++ text "-" ++ suffix = hostname at hhostname
  refine .bind (tells_quiet (prepareLaunch_frugal region).quiet) fun prepared _ => ?_
  refine .bind (tells_quiet (mintKey_quiet hostname)) fun authkey _ => ?_
  refine .bind (tells_quiet (ofExcept_only _)) fun userData _ => ?_
  refine .bind (tells_quiet (ofExcept_only _)) fun launchedAt _ => ?_
  refine .bind (launch_tells hregion hhostname hexpires) fun instanceId hid => ?_
  refine .bind (writePointer_tells fun _ => decoded_some hregion hid) fun _ _ => ?_
  exact .pure (.success (readable_launchDocument hregion hid hhostname hexpires))

theorem upRegion_tells {region expiresAt : Text} (now : DateTime) (hregion : Scalar region)
    (hexpires : Scalar expiresAt) : Tells rt env (upRegion rt region now expiresAt) Telling := by
  refine .bind (findNodes_tells region) fun found hfound => ?_
  cases found with
  | nil => exact launchNode_tells now hregion hexpires
  | cons first rest =>
    have hid := (hfound first List.mem_cons_self).instanceId
    refine .bind (writePointer_tells fun _ => decoded_some hregion hid) fun _ _ => ?_
    refine .bind (describe_tells ?_) fun _ hdocument => .pure (.success hdocument)
    rintro _ ⟨⟩
    exact ⟨region,rfl,hregion⟩

theorem requestedExpiry_tells (body : Dict) (now : DateTime) : Tells rt env (requestedExpiry rt body now) Scalar :=
  .bind (tells_quiet (requested_frugal _ _ _).quiet) fun _ _ => tells_ofExcept fun _ => parseTtl_scalar

theorem validRegions_tells : Tells rt env (validRegions rt.controlRegion) fun regions => ∀ r ∈ regions, Scalar r := by
  refine tells_call (fun w hw => hw.of_same (env.effect_quiet rfl w)) ?_
  rintro _ w _ ⟨⟩ r hr
  exact w.regions_scalar r ((env.regionOrder_perm _ _).mem_iff.mp hr)

theorem upUntracked_tells (body : Dict) : Tells rt env (upUntracked rt body) Telling := by
  refine .bind validRegions_tells fun regions hregions => ?_
  refine .bind (tells_quiet (requested_frugal _ _ _).quiet) fun region _ => ?_
  cases hvalid : regionOf region regions with
  | none => exact .pure (telling_unknownRegion hregions)
  | some target =>
    have htarget : Scalar target := by
      unfold regionOf at hvalid
      split at hvalid
      · split at hvalid
        · cases hvalid
          exact hregions _ (by assumption)
        · cases hvalid
      · cases hvalid
    refine .bind (tells_quiet now_only) fun now _ => ?_
    refine .bind (requestedExpiry_tells body _).attempt fun expiry hexpiry => ?_
    split
    · split
      · exact .pure (telling_failure (by decide) (by decide))
      · exact .throw _
    · exact upRegion_tells _ htarget (hexpiry _ rfl)

theorem up_tells (body : Dict) : Tells rt env (up rt body) Telling := by
  refine .bind readPointer_tells fun pointer hpointer => ?_
  cases pointer with
  | none => exact upUntracked_tells body
  | some p =>
    refine .bind (describe_tells hpointer) fun existing hexisting => ?_
    split
    · exact .pure (.success hexisting)
    · exact upUntracked_tells body

theorem perform_tells (body : Dict) : Tells rt env (perform rt body) Telling := by
  unfold perform
  split
  · exact up_tells body
  split
  · exact down_tells
  split
  · exact status_tells
  · exact .pure (telling_failure (by decide) (by decide))

theorem dispatch_tells {requestId : Text} (hid : Scalar requestId) (body : Dict) :
    Tells rt env (dispatch rt requestId body) Telling := by
  intro s r es t h hs
  obtain ⟨v,rfl,hperform⟩ := dispatch_cases h
  obtain ⟨ht,hv⟩ := perform_tells body hperform hs
  refine ⟨ht,?_⟩
  rintro _ ⟨⟩
  exact telling_answerOf hid hv

theorem handleRequest_tells {requestId : Text} (hid : Scalar requestId) (event : Dict) (secret : Text) :
    Tells rt env (handleRequest rt requestId event secret) Telling := by
  refine .bind (tells_quiet (authenticate_only secret)).attempt fun result _ => ?_
  split
  · exact .pure ⟨.obj List.nodup_nil (by rintro _ ⟨⟩) (by rintro _ ⟨⟩),Or.inr (by decide)⟩
  · exact .throw _
  · split
    · exact .pure (telling_failure (by decide) (by decide))
    · exact (dispatch_tells hid _).total

theorem handleHttp_tells {requestId : Text} (hid : Scalar requestId) (event : Dict) :
    Tells rt env (handleHttp rt requestId event) Telling := by
  refine .bind (tells_quiet ?_).attempt fun result _ => ?_
  · exact .bind now_only fun _ => cachedSecret_only _ _ _ rfl
  split
  · exact .pure (telling_failure (by decide) (by decide))
  · split
    · exact .pure (telling_failure (by decide) (by decide))
    · exact handleRequest_tells hid event _

end

end ShardVPN.Handler
