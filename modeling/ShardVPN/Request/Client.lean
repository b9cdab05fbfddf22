import ShardVPN.Json.Ascii
import ShardVPN.Request.Tailnet
import ShardVPN.System.Plain

/-! # The failure modes of the Tailscale client

Whatever the HTTP call comes to is either an answer or the client's own error. The
answer is examined outside the handler of that error, so a document of another shape
raises what reading it raises.
-/
namespace ShardVPN.Handler
open Effect Time Ec2ops Settings

def keysRequest (token : Json) (tag : Text) (expirySeconds : ℕ) (description : Text) : Request where
  url := Tailscale.api ++ text "/tailnet/-/keys"
  method := text "POST"
  data := encodeUtf8 (dumps (Tailscale.keyRequest tag expirySeconds description))
  bearer := some token
  contentType := some (text "application/json")

/-- A good value, or the client's own error. -/
def OneFailure {α : Type} (good : α → Prop) (r : Except Exn α) : Prop :=
  (∃ a, r = .ok a ∧ good a) ∨ ∃ detail, r = .error (.tailscaleError detail)

/-- The answer, if it is JSON, is an object. -/
def AnswersObject (reply : Except ServiceError Bytes) : Prop :=
  ∀ response, answered reply = some response → ∃ fields, response = .obj fields

/-- The answer, if it is JSON, is a listing that can be read. -/
def AnswersListing (reply : Except ServiceError Bytes) : Prop :=
  ∀ listing, answered reply = some listing → Listable listing

/-- The value is the truthy field of an answer. -/
def FieldOf (reply : Except ServiceError Bytes) (name : Text) (value : Json) : Prop :=
  ∃ fields, answered reply = some (.obj fields) ∧ Dict.get fields name = some value ∧ value.truthy = true

/-- The device, if any, is one of the answer and carries the tag. -/
def DeviceOf (reply : Except ServiceError Bytes) (tag : Text) (device : Option Json) : Prop :=
  ∀ d, device = some d → ∃ fields devices own tags, answered reply = some (.obj fields) ∧
    Tailscale.elements ((Dict.get fields (text "devices")).getD (.arr [])) = .ok devices ∧ d ∈ devices ∧
    d = .obj own ∧ Dict.get own (text "tags") = some tags ∧ Tailscale.contains tags tag = .ok true

section
variable {rt : Runtime} {env : Env} {s t : State} {es : List Event}

/-- What a call for one field comes to. -/
theorem required_oneFailure (reply : Except ServiceError Bytes) (name message : Text) :
    OneFailure (FieldOf reply name) (apiOutcome reply >>= fun response => Tailscale.required response name message) ↔
      AnswersObject reply := by
  rcases apiOutcome_cases reply with ⟨response,hanswer,ho⟩ | ⟨hanswer,detail,ho⟩
  · rw [ho]
    change OneFailure _ (Tailscale.required response name message) ↔ _
    rcases required_cases response with ⟨hshape,hr⟩ | ⟨fields,rfl,⟨value,hget,htruthy,hr⟩ | ⟨-,hr⟩⟩
    · rw [hr]
      refine iff_of_false ?_ ?_
      · rintro (⟨_,h,-⟩ | ⟨_,h⟩) <;> cases h
      · intro hobject
        obtain ⟨fields,rfl⟩ := hobject response hanswer
        exact hshape fields rfl
    · rw [hr]
      refine iff_of_true (.inl ⟨value,rfl,fields,hanswer,hget,htruthy⟩) ?_
      rintro _ h
      exact ⟨fields,Option.some.inj (h.symm.trans hanswer)⟩
    · rw [hr]
      refine iff_of_true (.inr ⟨message,rfl⟩) ?_
      rintro _ h
      exact ⟨fields,Option.some.inj (h.symm.trans hanswer)⟩
  · rw [ho]
    refine iff_of_true (.inr ⟨detail,rfl⟩) ?_
    rintro _ h
    cases h.symm.trans hanswer

theorem mintAuthKey_outcome {token : Json} {tag description : Text} {expirySeconds : ℕ} {r : Except Exn Json}
    (h : Steps env.service (Tailscale.mintAuthKey token tag expirySeconds description) s r es t) :
    r = (apiOutcome (apiReply env s.world s.trace (keysRequest token tag expirySeconds description)) >>= fun response =>
      Tailscale.required response (text "key") (text "no key in auth key response")) := by
  unfold keysRequest
  unfold Tailscale.mintAuthKey at h
  obtain ⟨body,hbody⟩ := encodeUtf8_dumps (Tailscale.keyRequest tag expirySeconds description)
  rw [hbody] at h ⊢
  rcases h.bind_cases with ⟨body',u,xs,ys,h1,h2,-⟩ | ⟨x,h1,-⟩
  · obtain ⟨hpure,rfl,rfl⟩ := Steps.pure_iff.mp h1
    obtain rfl := Except.ok.inj hpure
    rcases h2.bind_cases with ⟨response,v,xs,zs,h3,h4,-⟩ | ⟨x,h3,rfl⟩
    · rw [← (callApi_outcome h3).1]
      exact (ofExcept_cases h4).1
    · rw [← (callApi_outcome h3).1]
      rfl
  · cases (Steps.pure_iff.mp h1).1

theorem isTagged_true {tag : Text} {device : Json} (h : Tailscale.isTagged tag device = .ok true) :
    ∃ own tags, device = .obj own ∧ Dict.get own (text "tags") = some tags ∧
      Tailscale.contains tags tag = .ok true := by
  cases device with
  | obj own =>
    cases htags : Dict.get own (text "tags") with
    | none => cases (isTagged_untagged htags).symm.trans h
    | some tags =>
      rw [isTagged_tags htags] at h
      split at h
      · exact ⟨own,tags,rfl,htags,h⟩
      · cases h
  | _ => cases h

theorem tagged_mem {tag : Text} {devices kept : List Json} (h : Tailscale.tagged tag devices = .ok kept) :
    ∀ d ∈ kept, d ∈ devices ∧ Tailscale.isTagged tag d = .ok true := by
  induction devices generalizing kept with
  | nil =>
    obtain rfl := Except.ok.inj h
    simp
  | cons device rest ih =>
    rw [Tailscale.tagged] at h
    obtain ⟨keep,hkeep,h⟩ := except_bind_ok.mp h
    obtain ⟨others,hothers,h⟩ := except_bind_ok.mp h
    obtain rfl := Except.ok.inj h
    intro d hd
    have hrest : d ∈ others → d ∈ device :: rest ∧ Tailscale.isTagged tag d = .ok true := fun hd =>
      ⟨List.mem_cons_of_mem _ (ih hothers d hd).1,(ih hothers d hd).2⟩
    cases keep with
    | false => exact hrest hd
    | true =>
      rcases List.mem_cons.mp hd with rfl | hd
      · exact ⟨List.mem_cons_self,hkeep⟩
      · exact hrest hd

theorem listedDevice_carries {hostname : Option Text} {reply : Except ServiceError Bytes} {listing : Json}
    {device : Option Json} (hanswer : answered reply = some listing)
    (h : listedDevice rt hostname listing = .ok device) : DeviceOf reply rt.tsTag device := by
  rintro d rfl
  obtain ⟨fields,rfl,items,hitems,kept,hkept,hselect⟩ := listedDevice_found.mp h
  obtain ⟨hmem,htag⟩ := tagged_mem hkept d (selectDevice_cases hselect).1
  obtain ⟨own,tags,hown,htags,hin⟩ := isTagged_true htag
  exact ⟨fields,items,own,tags,hanswer,hitems,hmem,hown,htags,hin⟩

/-- What a search for a device comes to. -/
theorem listed_oneFailure (hostname : Option Text) (reply : Except ServiceError Bytes) :
    OneFailure (DeviceOf reply rt.tsTag) (apiOutcome reply >>= fun listing => listedDevice rt hostname listing) ↔
      AnswersListing reply := by
  rcases apiOutcome_cases reply with ⟨listing,hanswer,ho⟩ | ⟨hanswer,detail,ho⟩
  · rw [ho]
    change OneFailure _ (listedDevice rt hostname listing) ↔ _
    cases hlisted : listedDevice rt hostname listing with
    | ok device =>
      refine iff_of_true (.inl ⟨device,rfl,listedDevice_carries hanswer hlisted⟩) ?_
      intro other hother
      rw [Option.some.inj (hother.symm.trans hanswer)]
      exact listedDevice_ok_iff.mp ⟨device,hlisted⟩
    | error e =>
      refine iff_of_false ?_ ?_
      · rintro (⟨_,h,-⟩ | ⟨detail,h⟩)
        · cases h
        · exact listedDevice_foreign hlisted detail (Except.error.inj h)
      · intro hlisting
        obtain ⟨device,hdevice⟩ : ∃ device, listedDevice rt hostname listing = .ok device :=
          listedDevice_ok_iff.mpr (hlisting listing hanswer)
        cases hlisted.symm.trans hdevice
  · rw [ho]
    refine iff_of_true (.inr ⟨detail,rfl⟩) ?_
    rintro _ h
    cases h.symm.trans hanswer

/-- The outcome of the HTTP call to a request, from the state `s` on. -/
def httpReply (env : Env) (s : State) (request : Request) : Except ServiceError Bytes :=
  apiReply env s.world s.trace request

/-- The token is the one the exchange of the credentials was answered with. -/
def TokenOf (env : Env) (s : State) (clientId clientSecret : Text) (token : Json) : Prop :=
  ∃ data, Tailscale.credentialsForm clientId clientSecret = some data ∧
    FieldOf (httpReply env s (tokenRequest data)) (text "access_token") token

theorem getToken_oneFailure (clientId clientSecret : Text) :
    OneFailure (TokenOf env s clientId clientSecret) ((Tailscale.getToken clientId clientSecret).exec env.service s).1 ↔
      ∃ data, Tailscale.credentialsForm clientId clientSecret = some data ∧
        AnswersObject (httpReply env s (tokenRequest data)) := by
  rw [getToken_outcome ((Tailscale.getToken clientId clientSecret).steps_exec env.service s)]
  unfold exchangeOutcome TokenOf
  cases hform : Tailscale.credentialsForm clientId clientSecret with
  | none =>
    refine iff_of_false ?_ ?_
    · rintro (⟨_,h,-⟩ | ⟨_,h⟩) <;> cases h
    · rintro ⟨data,h,-⟩
      cases h
  | some data =>
    simp only [Option.some.injEq,exists_eq_left']
    exact required_oneFailure (httpReply env s (tokenRequest data)) _ _

/-- The client fails in its one way exactly when the credentials can be encoded and a JSON answer has the
shape of the document asked for. -/
theorem client_one_failure_iff (rt : Runtime) (env : Env) (s : State) :
    (∀ clientId clientSecret, OneFailure (TokenOf env s clientId clientSecret)
        ((Tailscale.getToken clientId clientSecret).exec env.service s).1 ↔
      ∃ data, Tailscale.credentialsForm clientId clientSecret = some data ∧
        AnswersObject (httpReply env s (tokenRequest data))) ∧
    (∀ token expirySeconds description,
      OneFailure (FieldOf (httpReply env s (keysRequest token rt.tsTag expirySeconds description)) (text "key"))
          ((Tailscale.mintAuthKey token rt.tsTag expirySeconds description).exec env.service s).1 ↔
        AnswersObject (httpReply env s (keysRequest token rt.tsTag expirySeconds description))) ∧
    ∀ token hostname,
      OneFailure (DeviceOf (httpReply env s (devicesRequest token)) rt.tsTag)
          ((Tailscale.findDevice token rt.tsTag hostname).exec env.service s).1 ↔
        AnswersListing (httpReply env s (devicesRequest token)) := by
  refine ⟨getToken_oneFailure,?_,?_⟩
  · intro token expirySeconds description
    rw [mintAuthKey_outcome
      ((Tailscale.mintAuthKey token rt.tsTag expirySeconds description).steps_exec env.service s)]
    exact required_oneFailure _ _ _
  · intro token hostname
    rw [findDevice_outcome ((Tailscale.findDevice token rt.tsTag hostname).steps_exec env.service s)]
    exact listed_oneFailure _ _

end

/-- The service answers every request with an empty array. -/
def arrays : Env := { Plain.clean with http := fun _ _ => .ok [91,93] }

/-- Three calls answered with an empty array end in three exceptions of another family. -/
theorem client_raises_over_array : let s := Plain.state (Plain.lapsed (Plain.pointsTo Plain.region0 Plain.instance0))
    ¬OneFailure (fun token => token.truthy = true)
      ((Tailscale.getToken (text "id") (text "secret")).exec arrays.service s).1 ∧
    ¬OneFailure (fun key => key.truthy = true)
      ((Tailscale.mintAuthKey (.str (text "token")) (text "tag:exit") 300 (text "exit")).exec arrays.service s).1 ∧
    ¬OneFailure (DeviceOf (.ok [91,93]) (text "tag:exit"))
      ((Tailscale.findDevice (.str (text "token")) (text "tag:exit") none).exec arrays.service s).1 := by
  intro s
  have hraises : ∀ {α : Type} {good : α → Prop} {r : Except Exn α}, r = .error .attributeError →
      ¬OneFailure good r := by
    rintro α good _ rfl (⟨_,h,-⟩ | ⟨_,h⟩) <;> cases h
  exact ⟨hraises (by decide +kernel),hraises (by decide +kernel),hraises (by decide +kernel)⟩

end ShardVPN.Handler
