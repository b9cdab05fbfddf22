import ShardVPN.Cloud.Call
import ShardVPN.Effect.Steps

/-! # The environment of one invocation

An environment chooses which occurrence of which call fails and how, in which order
regions and instances are listed, the ids of new resources, and what the HTTP
service answers. Everything else follows from the world: a describe call reports
exactly the resources that match, a successful write is read back, and no failure
poses as the answer that a parameter does not exist.
-/
namespace ShardVPN
open Effect

abbrev Event := Effect.Event Call ServiceError

def parameterNotFound : Text := text "ParameterNotFound"

/-- Any failure but the claim that a parameter does not exist. -/
def Honest : Fault ServiceError → Prop
  | .refused (.client code _) => code ≠ parameterNotFound
  | .lost (.client code _) => code ≠ parameterNotFound
  | _ => True

structure Env where
  fault : Call → ℕ → Fault ServiceError
  regionOrder : ℕ → List Text → List Text
  reservations : Text → ℕ → List Instance → List (List Instance)
  instanceId : World → Text
  groupId : World → Text
  http : Request → ℕ → Except ServiceError Bytes
  fault_honest : ∀ c n, Honest (fault c n)
  regionOrder_perm : ∀ n rs, (regionOrder n rs).Perm rs
  reservations_perm : ∀ r n is, (reservations r n is).flatten.Perm is
  instanceId_fresh : ∀ w, instanceId w ∉ w.instanceIds
  instanceId_scalar : ∀ w, Scalar (instanceId w)
  instanceId_ne_nil : ∀ w, instanceId w ≠ []

namespace Env

/-- No call is refused and no answer is lost. -/
def Clean (env : Env) : Prop := ∀ c n, env.fault c n = .none

def launched (env : Env) (w : World) (request : RunInstances) : Instance :=
  ⟨env.instanceId w,.pending,none,request.tags⟩

def answer (env : Env) : (c : Call) → ℕ → World → Except ServiceError (Resp c)
  | .getParameter r name _,_,w => match w.parameters r name with
    | some value => .ok value
    | none => .error (.client parameterNotFound [])
  | .putParameter ..,_,_ => .ok ()
  | .describeRegions _,n,w => .ok (env.regionOrder n w.regions)
  | .describeInstances r filters,n,w =>
    .ok (env.reservations r n ((w.instancesIn r).filter (fun i => matchesAll i.filterValues filters)))
  | .describeVpcs r filters,_,w => .ok ((w.vpcs r).filter (fun v => matchesAll v.filterValues filters))
  | .describeSecurityGroups r filters,_,w =>
    .ok ((w.groups r).filter (fun g => matchesAll g.filterValues filters))
  | .createSecurityGroup ..,_,w => .ok (env.groupId w)
  | .runInstances ..,_,w => .ok (env.instanceId w)
  | .terminateInstances ..,_,_ => .ok ()
  | .createTags ..,_,_ => .ok ()
  | .getMetricStatistics r query,_,w => .ok (w.metrics r query)
  | .publish ..,_,_ => .ok ()
  | .urlopen request _,n,_ => env.http request n

def effect (env : Env) : Call → World → World
  | .putParameter r name value _ _,w => w.setParameter r name value
  | .createSecurityGroup r name description vpcId,w =>
    w.addGroup r ⟨env.groupId w,name,description,vpcId,0⟩
  | .runInstances r request,w =>
    w.addInstance r (env.launched w request) (env.instanceId_fresh w) (env.instanceId_scalar w)
      (env.instanceId_ne_nil w)
  | .terminateInstances r ids,w =>
    w.mapInstances (fun s i => if s = r ∧ i.instanceId ∈ ids then i.terminate else i)
      (fun _ _ => by split <;> simp)
  | .createTags r ids tags,w =>
    w.mapInstances (fun s i => if s = r ∧ i.instanceId ∈ ids then tags.foldl Instance.setTag i else i)
      (fun _ _ => by split <;> simp [Instance.foldl_setTag_id])
  | _,w => w

def service (env : Env) : Service Call Resp World ServiceError where
  fault := env.fault
  answer := env.answer
  effect := env.effect

end Env

/-! ## Frames -/

/-- Two worlds with the same regions, instances, parameters and metrics. -/
structure Same (v w : World) : Prop where
  regions : w.regions = v.regions
  instances : w.instances = v.instances
  parameters : w.parameters = v.parameters
  metrics : w.metrics = v.metrics

theorem Same.refl (w : World) : Same w w := ⟨rfl,rfl,rfl,rfl⟩

theorem Same.trans {u v w : World} (h : Same u v) (k : Same v w) : Same u w :=
  ⟨k.regions.trans h.regions,k.instances.trans h.instances,k.parameters.trans h.parameters,
    k.metrics.trans h.metrics⟩

theorem Same.symm {v w : World} (h : Same v w) : Same w v :=
  ⟨h.regions.symm,h.instances.symm,h.parameters.symm,h.metrics.symm⟩

theorem Env.effect_quiet (env : Env) {c : Call} (hc : c.quiet = true) (w : World) : Same w (env.effect c w) := by
  cases c with
  | putParameter => cases hc
  | runInstances => cases hc
  | terminateInstances => cases hc
  | createTags => cases hc
  | _ => exact ⟨rfl,rfl,rfl,rfl⟩

theorem Env.effect_reads (env : Env) {c : Call} (hc : c.reads = true) (w : World) : env.effect c w = w := by
  cases c <;> first | rfl | cases hc

theorem replay_reads (env : Env) {es : List Event} (hes : ∀ e ∈ es, e.call.reads = true) (w : World) :
    env.service.replay w es = w :=
  Service.replay_rel (R := fun v w : World => w = v) (fun _ => rfl) (fun _ _ _ h k => k.trans h)
    (Q := fun c => c.reads = true) (fun _ w hc => env.effect_reads hc w) hes w

/-- No call but a parameter write changes a parameter. -/
def Call.keepsParameters : Call → Bool
  | .putParameter .. => false
  | _ => true

theorem Env.effect_parameters (env : Env) {c : Call} (hc : c.keepsParameters = true) (w : World) :
    (env.effect c w).parameters = w.parameters := by
  cases c with
  | putParameter => cases hc
  | _ => rfl

theorem Env.effect_regions (env : Env) (c : Call) (w : World) : (env.effect c w).regions = w.regions := by
  cases c <;> rfl

theorem Env.effect_metrics (env : Env) (c : Call) (w : World) : (env.effect c w).metrics = w.metrics := by
  cases c <;> rfl

theorem replay_regions (env : Env) (w : World) (es : List Event) :
    (env.service.replay w es).regions = w.regions :=
  Service.replay_rel (R := fun v w : World => w.regions = v.regions) (fun _ => rfl) (fun _ _ _ h k => k.trans h)
    (Q := fun _ => True) (fun c w _ => env.effect_regions c w) (fun _ _ => trivial) w

theorem replay_metrics (env : Env) (w : World) (es : List Event) :
    (env.service.replay w es).metrics = w.metrics :=
  Service.replay_rel (R := fun v w : World => w.metrics = v.metrics) (fun _ => rfl) (fun _ _ _ h k => k.trans h)
    (Q := fun _ => True) (fun c w _ => env.effect_metrics c w) (fun _ _ => trivial) w

theorem replay_quiet (env : Env) {es : List Event} (hes : ∀ e ∈ es, e.call.quiet = true) (w : World) :
    Same w (env.service.replay w es) :=
  Service.replay_rel Same.refl (fun _ _ _ => Same.trans) (Q := fun c => c.quiet = true)
    (fun _ w hc => env.effect_quiet hc w) hes w

theorem replay_parameters (env : Env) {es : List Event} (hes : ∀ e ∈ es, e.call.keepsParameters = true)
    (w : World) : (env.service.replay w es).parameters = w.parameters :=
  Service.replay_rel (R := fun v w : World => w.parameters = v.parameters) (fun _ => rfl)
    (fun _ _ _ h k => k.trans h) (Q := fun c => c.keepsParameters = true)
    (fun _ w hc => env.effect_parameters hc w) hes w

end ShardVPN
