import ShardVPN.Cloud.Nodes

/-! # What a trace did to the nodes

The terminates a trace attempted, those reported as done, those that took effect,
and the parameter values it wrote. A trace that only removes leaves exactly the
nodes it did not remove.
-/
namespace ShardVPN
open Effect

/-- The instance that a terminate call names. -/
def terminateTarget (e : Event) : Option (Text × Text) :=
  match e.call with
  | .terminateInstances region [instanceId] => some (region,instanceId)
  | _ => none

def attempted (es : List Event) : List (Text × Text) := es.filterMap terminateTarget

/-- The terminates that reported success. -/
def terminated (es : List Event) : List (Text × Text) := attempted (es.filter Event.succeeded)

/-- The terminates that took effect, whatever they reported. -/
def removed (es : List Event) : List (Text × Text) := attempted (es.filter Event.effective)

/-- The values of the parameter writes. -/
def written (es : List Event) : List Text :=
  es.filterMap (fun e => match e.call with
    | .putParameter _ _ value _ _ => some value
    | _ => none)

@[simp] theorem attempted_append (xs ys : List Event) : attempted (xs ++ ys) = attempted xs ++ attempted ys :=
  List.filterMap_append
@[simp] theorem terminated_append (xs ys : List Event) :
    terminated (xs ++ ys) = terminated xs ++ terminated ys := by simp [terminated]
@[simp] theorem removed_append (xs ys : List Event) : removed (xs ++ ys) = removed xs ++ removed ys := by
  simp [removed]
@[simp] theorem written_append (xs ys : List Event) : written (xs ++ ys) = written xs ++ written ys :=
  List.filterMap_append
@[simp] theorem attempted_nil : attempted [] = [] := rfl
@[simp] theorem terminated_nil : terminated [] = [] := rfl
@[simp] theorem removed_nil : removed [] = [] := rfl
@[simp] theorem written_nil : written [] = [] := rfl

theorem removed_cons (e : Event) (es : List Event) :
    removed (e :: es) = (if e.effective then (terminateTarget e).toList else []) ++ removed es := by
  cases h : e.effective with
  | false => simp [removed,h]
  | true =>
    rw [removed,List.filter_cons_of_pos h,attempted,List.filterMap_cons]
    cases terminateTarget e <;> rfl

def Call.terminates : Call → Bool
  | .terminateInstances .. => true
  | _ => false

theorem attempted_eq_nil {es : List Event} (h : ∀ e ∈ es, e.call.terminates = false) : attempted es = [] := by
  rw [attempted,List.filterMap_eq_nil_iff]
  intro e he
  have hc := h e he
  rw [terminateTarget]
  split
  · rename_i hcall
    rw [hcall] at hc
    cases hc
  · rfl

theorem terminated_eq_nil {es : List Event} (h : ∀ e ∈ es, e.call.terminates = false) : terminated es = [] :=
  attempted_eq_nil fun e he => h e (List.mem_filter.mp he).1

theorem removed_eq_nil {es : List Event} (h : ∀ e ∈ es, e.call.terminates = false) : removed es = [] :=
  attempted_eq_nil fun e he => h e (List.mem_filter.mp he).1

theorem terminated_sublist (es : List Event) : (terminated es).Sublist (attempted es) :=
  List.filter_sublist.filterMap terminateTarget

theorem written_eq_nil {es : List Event} (h : ∀ e ∈ es, e.call.keepsParameters = true) : written es = [] := by
  rw [written,List.filterMap_eq_nil_iff]
  intro e he
  have hc := h e he
  split
  · rename_i hcall
    rw [hcall] at hc
    cases hc
  · rfl

/-- Notifications. -/
def Call.notifies : Call → Bool
  | .publish .. => true
  | _ => false

/-- Listings of instances. -/
def Call.scans : Call → Bool
  | .describeInstances .. => true
  | _ => false

/-- Calls that at most remove one node. -/
def Call.onlyRemoves : Call → Bool
  | .terminateInstances _ [_] => true
  | .terminateInstances .. => false
  | .runInstances .. => false
  | .createTags .. => false
  | _ => true

theorem Call.notifies_quiet {c : Call} (h : c.notifies = true) : c.quiet = true := by
  cases c <;> first | rfl | cases h

theorem Call.notifies_scans {c : Call} (h : c.notifies = true) : c.scans = false := by
  cases c <;> first | rfl | cases h

theorem Call.quiet_terminates {c : Call} (h : c.quiet = true) : c.terminates = false := by
  cases c <;> first | rfl | cases h

theorem Call.quiet_onlyRemoves {c : Call} (h : c.quiet = true) : c.onlyRemoves = true := by
  cases c <;> first | rfl | cases h

theorem Call.quiet_keepsParameters {c : Call} (h : c.quiet = true) : c.keepsParameters = true := by
  cases c <;> first | rfl | cases h

theorem effect_onlyRemoves (env : Env) {c : Call} (hc : c.onlyRemoves = true) (w : World) :
    (env.effect c w).nodes = w.nodes ∧ terminateTarget ⟨c,none,true⟩ = none ∨
      ∃ k, terminateTarget ⟨c,none,true⟩ = some k ∧
        (env.effect c w).nodes = w.nodes.filter (fun n => decide (n.key ≠ k)) := by
  cases c with
  | terminateInstances r ids =>
    match ids with
    | [i] =>
      refine Or.inr ⟨(r,i),rfl,?_⟩
      rw [nodes_terminate]
      refine List.filter_congr ?_
      intro n _
      simp [Node.key,Prod.ext_iff]
    | [] => cases hc
    | _ :: _ :: _ => cases hc
  | runInstances => cases hc
  | createTags => cases hc
  | _ => exact Or.inl ⟨rfl,rfl⟩

theorem replay_nodes (env : Env) {es : List Event} (hes : ∀ e ∈ es, e.call.onlyRemoves = true) (w : World) :
    (env.service.replay w es).nodes = w.nodes.filter (fun n => !decide (n.key ∈ removed es)) := by
  induction es generalizing w with
  | nil => simp
  | cons e es ih =>
    have hrest := ih (fun e he => hes e (List.mem_cons_of_mem _ he))
    have htarget : terminateTarget ⟨e.call,none,true⟩ = terminateTarget e := rfl
    rw [Service.replay_cons,hrest,removed_cons]
    cases e.effective with
    | false => rfl
    | true =>
      simp only [↓reduceIte]
      change ((env.effect e.call w).nodes.filter _) = _
      rw [← htarget]
      rcases effect_onlyRemoves env (hes e List.mem_cons_self) w with ⟨hn,ht⟩ | ⟨k,ht,hn⟩
      · rw [hn,ht]
        rfl
      · rw [hn,ht,List.filter_filter]
        refine List.filter_congr ?_
        intro n _
        simp [Bool.and_comm]

/-- Calls that change no instance. -/
def Call.keepsNodes : Call → Bool
  | .runInstances .. => false
  | .terminateInstances .. => false
  | .createTags .. => false
  | _ => true

theorem Call.quiet_keepsNodes {c : Call} (h : c.quiet = true) : c.keepsNodes = true := by
  cases c <;> first | rfl | cases h

theorem replay_keepsNodes (env : Env) {es : List Event} (hes : ∀ e ∈ es, e.call.keepsNodes = true) (w : World) :
    (env.service.replay w es).nodes = w.nodes :=
  Service.replay_rel (R := fun v w : World => w.nodes = v.nodes) (fun _ => rfl) (fun _ _ _ h k => k.trans h)
    (Q := fun c => c.keepsNodes = true) (fun c _ hc => by cases c <;> first | rfl | cases hc) hes w

/-- Launches. -/
def Call.runs : Call → Bool
  | .runInstances .. => true
  | _ => false

theorem Call.quiet_runs {c : Call} (h : c.quiet = true) : c.runs = false := by
  cases c <;> first | rfl | cases h

/-- The launches that took effect, whatever they reported. -/
def launches (es : List Event) : List Event := es.filter (fun e => e.effective && e.call.runs)

@[simp] theorem launches_append (xs ys : List Event) : launches (xs ++ ys) = launches xs ++ launches ys :=
  List.filter_append xs ys

theorem launches_eq_nil {es : List Event} (h : ∀ e ∈ es, e.call.keepsNodes = true) : launches es = [] := by
  rw [launches,List.filter_eq_nil_iff]
  intro e he hl
  have hc := h e he
  generalize e.call = c at hc hl
  cases c with
  | runInstances => cases hc
  | _ => simp [Call.runs] at hl

end ShardVPN
