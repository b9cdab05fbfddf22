import ShardVPN.Request.Answers
import ShardVPN.Request.Degrade

/-! # The documents of the actions

Every success of `status` and `up` carries one of three documents: nothing is there, an
instance was found, or an instance was launched. What `status` says of the account is so
when it says it.
-/
namespace ShardVPN.Handler
open Effect Time Ec2ops Settings

/-- The documents that the actions answer with. -/
inductive Documents : Dict → Prop
  | absent : Documents Statusdoc.absent
  | present (i : Instance) (region : Json) (online : Option Bool) (idleSeconds : Option ℤ) (now : DateTime) :
      Documents (Statusdoc.build (some i) region online idleSeconds now)
  | launched (region instanceId hostname expiresAt : Text) :
      Documents (launchDocument region instanceId hostname expiresAt)

/-- A document about an instance tells its state and no error. -/
theorem Documents.of_id {d : Dict} (h : Documents d) {id : Text}
    (hid : d.get (text "instance_id") = some (.str id)) :
    d.get (text "error") = none ∧ ∃ state : InstanceState, d.get (text "state") = some (.str state.name) := by
  cases h with
  | absent => cases hid
  | present i region online idleSeconds now => exact ⟨rfl,i.state,rfl⟩
  | launched region instanceId hostname expiresAt => exact ⟨rfl,.pending,rfl⟩

/-- A success, with one of the documents. -/
def Documented (response : Response) : Prop :=
  response.statusCode = 200 → ∃ d, response = respond 200 d ∧ Documents d

section
variable {rt : Runtime}

theorem describe_documents (pointer : Option Pointer) : Yields Documents (describe rt pointer) := by
  cases pointer with
  | none => exact .pure .absent
  | some p =>
    refine .bind fun _ => .bind fun nodes => ?_
    cases nodes with
    | nil => exact .pure .absent
    | cons first rest => exact .bind fun _ => .bind fun _ => .bind fun _ => .pure (.present ..)

theorem describe_documented {m : Program Exn Dict} (hm : Yields Documents m) :
    Yields Documented (m >>= fun document => pure (respond 200 document)) := by
  intro σ s response es t h _
  obtain ⟨d,u,xs,ys,h1,h2,-⟩ := h.bind_ok
  exact ⟨d,Except.ok.inj (Steps.pure_iff.mp h2).1,hm h1⟩

theorem status_documented : Yields Documented (status rt) :=
  .bind fun _ => describe_documented (describe_documents _)

theorem launchNode_documented (region expiresAt : Text) (now : DateTime) :
    Yields Documented (launchNode rt region now expiresAt) :=
  .bind fun _ => .bind fun _ => .bind fun _ => .bind fun _ => .bind fun _ => .bind fun _ => .bind fun _ =>
    .pure fun _ => ⟨_,rfl,.launched ..⟩

theorem upUntracked_documented (body : Dict) : Yields Documented (upUntracked rt body) := by
  refine .bind fun _ => .bind fun _ => ?_
  split
  · exact .pure (by rintro ⟨⟩)
  · refine .bind fun _ => .bind fun _ => ?_
    split
    · split
      · exact .pure (by rintro ⟨⟩)
      · exact .throw _
    · refine .bind fun _ => ?_
      split
      · exact .bind fun _ => describe_documented (describe_documents _)
      · exact launchNode_documented _ _ _

theorem up_documented (body : Dict) : Yields Documented (up rt body) := by
  refine .bind fun _ => ?_
  split
  · exact upUntracked_documented body
  · intro σ s response es t h
    obtain ⟨existing,u,xs,ys,h1,h2,-⟩ := h.bind_ok
    split at h2
    · obtain ⟨hr,-⟩ := Steps.pure_iff.mp h2
      exact fun _ => ⟨existing,Except.ok.inj hr,describe_documents _ h1⟩
    · exact upUntracked_documented body h2

theorem down_documented : Yields Documented (down rt) := by
  refine .bind fun pointer => ?_
  cases pointer with
  | none => exact .bind fun _ => .bind fun _ => .pure fun _ => ⟨_,rfl,.absent⟩
  | some p => exact .bind fun _ => .bind fun _ => .bind fun _ => .pure fun _ => ⟨_,rfl,.absent⟩

theorem perform_documented (body : Dict) : Yields Documented (perform rt body) := by
  unfold perform
  split
  · exact up_documented body
  split
  · exact down_documented
  split
  · exact status_documented
  · exact .pure (by rintro ⟨⟩)

/-- A status describes the node of the stored pointer, and changes nothing. -/
theorem status_cases {env : Env} {s t : State} {es : List Event} {response : Response}
    (h : Steps env.service (status rt) s (.ok response) es t) : ∃ p d u xs, response = respond 200 d ∧
      storedPointer rt s.world = .ok p ∧ Same s.world u.world ∧ Steps env.service (describe rt p) u (.ok d) xs t := by
  obtain ⟨p,u,xs,ys,h1,h2,-⟩ := h.bind_ok
  obtain ⟨d,v,zs,us,h3,h4,-⟩ := h2.bind_ok
  obtain ⟨hr,-,rfl⟩ := Steps.pure_iff.mp h4
  refine ⟨p,d,u,zs,Except.ok.inj hr,?_,Quiet.same (readPointer_frugal _ _).quiet h1,h3⟩
  rcases (readPointer_cases h1).2.2 with hstored | ⟨x,hx⟩
  · exact hstored.symm
  · cases hx

end

end ShardVPN.Handler
