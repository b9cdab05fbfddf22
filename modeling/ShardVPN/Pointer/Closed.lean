import ShardVPN.Request.Entry
import ShardVPN.System.Plain

/-! # Reading the pointer fails closed

A read sorts the replies to its call into the absence of a node, a pointer and an
exception. What was written is read back, and where the read raises, a request has
made no other call.
-/
namespace ShardVPN.Settings
open Effect Handler

/-- `json` decodes the text or rejects it as no JSON. -/
def Decodes (raw : Text) : Prop := loads raw = .error .decode ∨ ∃ data, loads raw = .ok data

/-- A text that `json` can judge, or an error with a code. -/
def Foreseen (reply : Except ServiceError Text) : Prop :=
  (∃ raw, reply = .ok raw ∧ Decodes raw) ∨ ∃ code message, reply = .error (.client code message)

/-- No pointer, or one that holds two names. -/
def Named (pointer : Option Pointer) : Prop :=
  pointer = none ∨ ∃ region instanceId, pointer = some ⟨.str region,.str instanceId⟩ ∧ Scalar region ∧ Scalar instanceId

/-- A request that reads the pointer. -/
def AsksPointer (body : Dict) : Prop :=
  asksUp body ∨ asksDown body ∨ body.get (text "action") = some (.str (text "status"))

/-- How a read sorts the replies to its call. -/
structure Sorts (reply : Except ServiceError Text) (r : Except Exn (Option Pointer)) : Prop where
  none_iff : r = .ok none ↔
    reply = .ok [] ∨ reply = .ok empty ∨ ∃ message, reply = .error (.client parameterNotFound message)
  some_iff : ∀ p, r = .ok (some p) ↔ ∃ raw fields, reply = .ok raw ∧ loads raw = .ok (.obj fields) ∧
    Dict.get fields (text "region") = some p.region ∧ Dict.get fields (text "instance_id") = some p.instanceId
  raises : Foreseen reply → ∀ x, r = .error x → ∃ detail, x = .pointerUnavailable detail

/-! ## Decoding -/

theorem decodePointer_none {raw : Text} : decodePointer raw = .ok none ↔ raw = [] ∨ raw = empty := by
  constructor
  · intro h
    by_contra hne
    unfold decodePointer at h
    rw [if_neg hne] at h
    dsimp only at h
    split at h
    · cases h
    · cases h
    · split at h <;> cases h
  · intro h
    unfold decodePointer
    rw [if_pos h]

theorem item_ok {data v : Json} {key : Text} :
    item data key = .ok v ↔ ∃ fields, data = .obj fields ∧ Dict.get fields key = some v := by
  cases data with
  | obj fields =>
    unfold item
    cases hget : Dict.get fields key <;> simp [hget]
  | _ => simp [item]

theorem decodePointer_some {raw : Text} {p : Pointer} : decodePointer raw = .ok (some p) ↔
    ∃ fields, loads raw = .ok (.obj fields) ∧ Dict.get fields (text "region") = some p.region ∧
      Dict.get fields (text "instance_id") = some p.instanceId := by
  constructor
  · intro h
    have hne : ¬(raw = [] ∨ raw = empty) := by
      intro hraw
      cases (decodePointer_none.mpr hraw).symm.trans h
    unfold decodePointer at h
    rw [if_neg hne] at h
    cases hloads : loads raw with
    | error e =>
      rw [hloads] at h
      cases e <;> cases h
    | ok data =>
      rw [hloads] at h
      dsimp only at h
      split at h
      · rename_i region instanceId hregion hid
        cases h
        obtain ⟨fields,rfl,hget⟩ := item_ok.mp hregion
        obtain ⟨_,hfields,hget'⟩ := item_ok.mp hid
        cases hfields
        exact ⟨fields,rfl,hget,hget'⟩
      · cases h
  · rintro ⟨fields,hloads,hregion,hid⟩
    have hne : ¬(raw = [] ∨ raw = empty) := by
      rintro (rfl | rfl)
      · cases hloads
      · have hempty : loads empty = .error .decode := by decide
        cases hempty.symm.trans hloads
    unfold decodePointer
    rw [if_neg hne,hloads]
    dsimp only
    rw [item_ok.mpr ⟨fields,rfl,hregion⟩,item_ok.mpr ⟨fields,rfl,hid⟩]

theorem decodePointer_error {raw : Text} (hraw : Decodes raw) {x : Exn} (h : decodePointer raw = .error x) :
    x = .pointerUnavailable (text "malformed pointer") := by
  unfold decodePointer at h
  split at h
  · cases h
  · dsimp only at h
    rcases hraw with hloads | ⟨data,hloads⟩
    · rw [hloads] at h
      exact (Except.error.inj h).symm
    · rw [hloads] at h
      dsimp only at h
      split at h
      · cases h
      · exact (Except.error.inj h).symm

/-! ## Reading -/

theorem pointerOutcome_sorts (reply : Except ServiceError Text) : Sorts reply (pointerOutcome reply) := by
  cases reply with
  | ok raw =>
    refine ⟨?_,?_,?_⟩
    · change decodePointer raw = .ok none ↔ _
      rw [decodePointer_none]
      simp
    · intro p
      change decodePointer raw = .ok (some p) ↔ _
      rw [decodePointer_some]
      simp
    · rintro (⟨_,hraw,hdecodes⟩ | ⟨_,_,hraw⟩) x hx
      · cases hraw
        exact ⟨_,decodePointer_error hdecodes hx⟩
      · cases hraw
  | error e =>
    cases e with
    | client code message =>
      rw [pointerOutcome_client]
      by_cases hcode : code = parameterNotFound
      · subst hcode
        rw [if_pos rfl]
        exact ⟨by simp,by simp,by rintro - x ⟨⟩⟩
      · rw [if_neg hcode]
        refine ⟨by simp [hcode],by simp,?_⟩
        rintro - x ⟨⟩
        exact ⟨code,rfl⟩
    | http code reason => exact ⟨by simp [pointerOutcome],by simp [pointerOutcome],by simp [Foreseen]⟩
    | other typeName message isValueError =>
      exact ⟨by simp [pointerOutcome],by simp [pointerOutcome],by simp [Foreseen]⟩

section
variable {rt : Runtime} {env : Env} {s t : State} {es : List Event}

theorem decode_encode_named {pointer : Option Pointer} (h : Named pointer) :
    decodePointer (encodePointer pointer) = .ok pointer := by
  rcases h with rfl | ⟨region,instanceId,rfl,hr,hi⟩
  · exact decode_encode_none
  · exact decode_encode hr hi

/-- A read that is served after a write returns what was written. -/
theorem readPointer_written {region : Text} {name : ParamName} {pointer : Option Pointer} (hp : Named pointer)
    (h : Steps env.service (writePointer region name pointer) s (.ok ()) es t)
    (hserved : env.fault (.getParameter region name.path false)
      (Action.occurrences (.getParameter region name.path false) t.trace) = .none) :
    ((readPointer region name).exec env.service t).1 = .ok pointer := by
  obtain ⟨hread,-⟩ := readPointer_outcome ((readPointer region name).steps_exec env.service t)
  have hworld : t.world = s.world.setParameter region name.path (encodePointer pointer) := by
    obtain ⟨-,⟨a,n,-,rfl,-⟩ | ⟨e,b,n,hr,-⟩⟩ := call_cases h
    · rw [h.world]
      rfl
    · cases hr
  have hreply : env.service.reply t.trace t.world (.getParameter region name.path false) =
      .ok (encodePointer pointer) := by
    have hfault : env.service.fault (.getParameter region name.path false)
        (Action.occurrences (.getParameter region name.path false) t.trace) = .none := hserved
    unfold Service.reply
    rw [hfault,hworld]
    simp [Env.service,Env.answer,World.setParameter]
  rw [hread,hreply]
  exact decode_encode_named hp

/-- Each of the three actions begins with the read of the pointer. -/
theorem perform_reads_first {body : Dict} (h : AsksPointer body) : ∃ rest,
    perform rt body = readPointer rt.controlRegion .currentNode >>= rest := by
  rcases h with h | h | h
  · rw [perform_up h]
    exact ⟨_,rfl⟩
  · rw [perform_down h]
    exact ⟨_,rfl⟩
  · unfold perform
    rw [h,if_neg (by decide),if_neg (by decide),if_pos rfl]
    exact ⟨_,rfl⟩

/-- Where the read raises, no other call is made; an exception foreseen is answered as such. -/
theorem dispatch_refuses {requestId : Text} {body : Dict} (hbody : AsksPointer body) {x : Exn}
    (hx : ((readPointer rt.controlRegion .currentNode).exec env.service s).1 = .error x)
    {r : Except Empty Response} (h : Steps env.service (dispatch rt requestId body) s r es t) :
    r = .ok (answerOf requestId (.error x)) ∧ (∀ e ∈ es, e.call = pointerRead rt) ∧ t.world = s.world := by
  obtain ⟨v,rfl,h1⟩ := dispatch_cases h
  obtain ⟨rest,hrest⟩ : ∃ rest, perform rt body = readPointer rt.controlRegion .currentNode >>= rest :=
    perform_reads_first hbody
  rw [hrest] at h1
  have hexec := (readPointer rt.controlRegion .currentNode).steps_exec env.service s
  rw [hx] at hexec
  rcases h1.bind_cases with ⟨a,u,xs,ys,h2,-,rfl⟩ | ⟨y,h2,rfl⟩
  · cases h2.1.symm.trans hexec.1
  · obtain ⟨hy,hes,hw,-⟩ := readPointer_outcome h2
    cases h2.1.symm.trans hexec.1
    refine ⟨rfl,?_,hw⟩
    intro e he
    rw [hes,List.mem_singleton] at he
    rw [he,Service.event_call]
    rfl

end

/-- The stored form of a pointer is lossless, reading it fails closed, and a request that cannot
read it does nothing. -/
theorem pointer_fails_closed (rt : Runtime) (env : Env) :
    (∀ (region : Text) (name : ParamName) (pointer : Option Pointer) (s t : State) (es : List Event),
      Named pointer → Steps env.service (writePointer region name pointer) s (.ok ()) es t →
      env.fault (.getParameter region name.path false)
        (Action.occurrences (.getParameter region name.path false) t.trace) = .none →
      ((readPointer region name).exec env.service t).1 = .ok pointer) ∧
    (∀ (region : Text) (name : ParamName) (s : State),
      Sorts (env.service.reply s.trace s.world (.getParameter region name.path false))
        ((readPointer region name).exec env.service s).1) ∧
    ∀ (requestId : Text) (body : Dict) (s : State) (x : Exn), AsksPointer body →
      ((readPointer rt.controlRegion .currentNode).exec env.service s).1 = .error x →
      (∀ e ∈ (dispatch rt requestId body).events env.service s, e.call = pointerRead rt) ∧
        ((dispatch rt requestId body).exec env.service s).2.world = s.world ∧
        (Foreseen (env.service.reply s.trace s.world (pointerRead rt)) →
          ((dispatch rt requestId body).exec env.service s).1 =
            .ok (failure 503 (text "cannot determine current state"))) := by
  refine ⟨?_,?_,?_⟩
  · intro region name pointer s t es hp h hserved
    exact readPointer_written hp h hserved
  · intro region name s
    obtain ⟨hr,-⟩ := readPointer_outcome ((readPointer region name).steps_exec env.service s)
    rw [hr]
    exact pointerOutcome_sorts _
  · intro requestId body s x hbody hx
    obtain ⟨hr,hes,hw⟩ := dispatch_refuses hbody hx ((dispatch rt requestId body).steps_exec env.service s)
    refine ⟨hes,hw,fun hforeseen => ?_⟩
    obtain ⟨hread,-⟩ := readPointer_outcome ((readPointer rt.controlRegion .currentNode).steps_exec env.service s)
    obtain ⟨detail,rfl⟩ := (pointerOutcome_sorts _).raises hforeseen x (hread.symm.trans hx)
    exact hr

/-- A text that is no JSON. -/
def notJson : Text := text "\x7bnot json"

/-- The pointer to the first node is read back, and over a text that is no JSON nothing goes up. -/
theorem pointer_fails_closed_plain :
    ((readPointer Plain.control .currentNode).exec Plain.clean.service
      ((writePointer Plain.control .currentNode (some ⟨.str Plain.region0,.str Plain.instance0⟩)).exec
        Plain.clean.service (Plain.state Plain.empty)).2).1 = .ok (some ⟨.str Plain.region0,.str Plain.instance0⟩) ∧
    ((dispatch Plain.runtime [] [(text "action",.str (text "up"))]).exec Plain.clean.service
      (Plain.state (Plain.lapsed notJson))).1 = .ok (failure 503 (text "cannot determine current state")) := by
  obtain ⟨hlossless,-,hcloses⟩ := pointer_fails_closed Plain.runtime Plain.clean
  have hnamed : Named (some ⟨.str Plain.region0,.str Plain.instance0⟩) := Or.inr ⟨_,_,rfl,by decide,by decide⟩
  have hloads : loads notJson = .error .decode := by decide
  have hreply : Plain.clean.service.reply [] (Plain.lapsed notJson) (pointerRead Plain.runtime) = .ok notJson := rfl
  have hread : ((readPointer Plain.control .currentNode).exec Plain.clean.service
      (Plain.state (Plain.lapsed notJson))).1 = .error (.pointerUnavailable (text "malformed pointer")) := by
    decide +kernel
  refine ⟨hlossless _ _ _ _ _ _ hnamed (Action.steps_exec _ _ _) rfl,?_⟩
  have hup : AsksPointer [(text "action",.str (text "up"))] := Or.inl rfl
  exact (hcloses [] _ _ _ hup hread).2.2 (Or.inl ⟨notJson,hreply,Or.inl hloads⟩)

end ShardVPN.Settings
