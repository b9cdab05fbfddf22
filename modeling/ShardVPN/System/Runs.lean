import ShardVPN.Effect.Runs
import ShardVPN.Request.Entry

/-! # Runs of the whole system

The Lambda has one instance at a time, so the system takes one step after the other:
an invocation with its own environment and process memory, the operator setting a
default, or an instance that ends or boots by itself.
-/
namespace ShardVPN.System
open Effect Settings Handler

/-- One invocation: what it meets, what its process remembers, and its input. -/
structure Invocation where
  env : Env
  proc : Proc
  requestId : Text
  event : Dict

/-- The parameters an operator changes while the system runs. -/
inductive Default
  | region
  | ttl

def Default.name : Default → ParamName
  | .region => .defaultRegion
  | .ttl => .defaultTtl

inductive Label
  | invoke (i : Invocation)
  | setDefault (d : Default) (value : Text)
  | nodeEnds (instanceId : Text)
  | nodeBoots (instanceId : Text) (publicIp : Option Text)

def ended (instanceId : Text) (i : Instance) : Instance :=
  if i.instanceId = instanceId then { i with state := .terminated } else i

def booted (instanceId : Text) (publicIp : Option Text) (i : Instance) : Instance :=
  if i.instanceId = instanceId ∧ i.state = .pending then
    { i with state := .running, publicIpAddress := publicIp }
  else i

theorem ended_id (instanceId : Text) (i : Instance) : (ended instanceId i).instanceId = i.instanceId := by
  rw [ended]
  split <;> rfl

theorem booted_id (instanceId : Text) (publicIp : Option Text) (i : Instance) :
    (booted instanceId publicIp i).instanceId = i.instanceId := by
  rw [booted]
  split <;> rfl

variable (rt : Runtime)

def Invocation.start (i : Invocation) (w : World) : State := ⟨w,i.proc,[]⟩

def Invocation.reply (i : Invocation) (w : World) : Except Exn Reply :=
  ((lambdaHandler rt i.requestId i.event).exec i.env.service (i.start w)).1

def Invocation.events (i : Invocation) (w : World) : List Event :=
  (lambdaHandler rt i.requestId i.event).events i.env.service (i.start w)

def Invocation.after (i : Invocation) (w : World) : World :=
  ((lambdaHandler rt i.requestId i.event).exec i.env.service (i.start w)).2.world

/-- The world after a step. -/
def after (w : World) : Label → World
  | .invoke i => i.after rt w
  | .setDefault d value => w.setParameter rt.controlRegion d.name.path value
  | .nodeEnds instanceId => w.mapInstances (fun _ i => ended instanceId i) (fun _ _ => ended_id _ _)
  | .nodeBoots instanceId publicIp =>
    w.mapInstances (fun _ i => booted instanceId publicIp i) (fun _ _ => booted_id _ _ _)

/-- The calls of a step. -/
def calls (w : World) : Label → List Event
  | .invoke i => i.events rt w
  | _ => []

/-- Every call of a step succeeds. -/
def Succeeds (w : World) (l : Label) : Prop := ∀ e ∈ calls rt w l, e.succeeded = true

/-- An authenticated request would ask for this. -/
def Asks (ask : Dict → Prop) (i : Invocation) : Prop := ∃ body, requestBody i.event = some body ∧ ask body

/-- The invocation answers an HTTP request with success. -/
def Answers (i : Invocation) (w : World) (response : Response) : Prop :=
  i.reply rt w = .ok (.http response) ∧ response.statusCode = 200

section
variable {rt} {w : World} {i : Invocation}

theorem Invocation.steps (i : Invocation) (w : World) : Steps i.env.service
    (lambdaHandler rt i.requestId i.event) (i.start w) (i.reply rt w) (i.events rt w)
      ((lambdaHandler rt i.requestId i.event).exec i.env.service (i.start w)).2 :=
  (lambdaHandler rt i.requestId i.event).steps_exec i.env.service (i.start w)

theorem Invocation.handled (rt : Runtime) (i : Invocation) (w : World) :
    Handled rt i.env i.requestId i.event w (i.reply rt w) (i.events rt w) :=
  lambdaHandler_cases (i.steps w)

theorem Invocation.after_eq (i : Invocation) (w : World) :
    i.after rt w = i.env.service.replay w (i.events rt w) := (i.steps w).world

/-- A success is the success of the action that was asked for. -/
theorem Answers.performed {response : Response} (h : Answers rt i w response) :
    ∃ body xs ys u t, requestBody i.event = some body ∧ i.events rt w = xs ++ ys ∧
      (∀ e ∈ xs, e.call.reads = true) ∧ u.world = w ∧
      Steps i.env.service (perform rt body) u (.ok response) ys t := by
  obtain ⟨hreply,hstatus⟩ := h
  have hhandled := i.handled rt w
  rw [hreply] at hhandled
  generalize i.events rt w = es at hhandled
  generalize hr : (Except.ok (Reply.http response) : Except Exn Reply) = r at hhandled
  cases hhandled with
  | swept _ _ _ => cases hr
  | refused _ hn => exact absurd hstatus (hn response hr.symm)
  | @performed body v u t xs ys hb hxs hu hp =>
    obtain rfl : response = answerOf i.requestId v := by
      injection hr with hr
      injection hr
    rw [answerOf_success hstatus] at hp
    exact ⟨body,xs,ys,u,t,hb,rfl,hxs,hu,hp⟩

end

/-! ## Nodes between the requests -/

section
variable {rt} {w : World}

theorem isNode_ended (instanceId : Text) (i : Instance) :
    isNode (ended instanceId i) = (isNode i && decide (i.instanceId ≠ instanceId)) := by
  rw [ended]
  split
  · rename_i h
    simp [isNode,isLive,h]
  · rename_i h
    simp [h]

theorem isNode_booted (instanceId : Text) (publicIp : Option Text) (i : Instance) :
    isNode (booted instanceId publicIp i) = isNode i := by
  rw [booted]
  split
  · rename_i h
    simp [isNode,isLive,hasRole,h.2]
  · rfl

theorem nodes_nodeEnds (w : World) (instanceId : Text) : (after rt w (.nodeEnds instanceId)).nodes =
    w.nodes.filter (fun n => decide (n.2.instanceId ≠ instanceId)) := by
  simp only [World.nodes,after,World.mapInstances,List.filter_map,Function.comp_def,isNode_ended]
  rw [List.filter_filter]
  have hsame : ∀ n ∈ w.instances.filter (fun n => isNode n.2 && decide (n.2.instanceId ≠ instanceId)),
      ((n.1,ended instanceId n.2) : Node) = n := by
    intro n hn
    have hne := (Bool.and_eq_true_iff.mp (List.mem_filter.mp hn).2).2
    rw [ended,if_neg (of_decide_eq_true hne)]
  rw [List.map_congr_left hsame,List.map_id']
  refine List.filter_congr ?_
  intro n _
  rw [Bool.and_comm]

theorem nodes_nodeBoots (w : World) (instanceId : Text) (publicIp : Option Text) :
    (after rt w (.nodeBoots instanceId publicIp)).nodes =
      w.nodes.map (fun n => (n.1,booted instanceId publicIp n.2)) := by
  simp only [World.nodes,after,World.mapInstances,List.filter_map,Function.comp_def,isNode_booted]

theorem keys_nodeBoots (w : World) (instanceId : Text) (publicIp : Option Text) :
    (after rt w (.nodeBoots instanceId publicIp)).nodes.map Node.key = w.nodes.map Node.key := by
  rw [nodes_nodeBoots,List.map_map]
  refine List.map_congr_left ?_
  intro n _
  rw [Function.comp_apply,Node.key,Node.key,booted_id]

theorem storedPointer_setDefault (w : World) (d : Default) (value : Text) :
    storedPointer rt (after rt w (.setDefault d value)) = storedPointer rt w := by
  have hpath : ParamName.currentNode.path ≠ d.name.path := by cases d <;> decide
  simp [storedPointer,after,World.setParameter,hpath]

end

end ShardVPN.System

namespace ShardVPN.Plain
open ShardVPN.System

/-- One request in an environment. -/
def invoke (env : Env) (body : Text) : Label := .invoke ⟨env,proc,[],request body⟩

/-- Refuse to write parameters. -/
def unwritable : Env := refuse (fun c => !c.keepsParameters)

end ShardVPN.Plain

namespace ShardVPN.System

/-- The first request of the plain account. -/
def firstUp : Invocation := ⟨Plain.clean,Plain.proc,[],Plain.request Plain.upText⟩

end ShardVPN.System
