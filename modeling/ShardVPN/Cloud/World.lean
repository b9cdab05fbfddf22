import ShardVPN.Json.Value
import ShardVPN.Time.DateTime
import Mathlib.Data.List.Nodup

/-! # The state of the cloud account

Regions, instances with their tags, stored parameters, networks and metrics, as
far as the program reads or changes them. Instance ids are not empty and unique over
all regions, and names hold Unicode scalar values only: fields of the world say so.
-/
namespace ShardVPN

inductive InstanceState
  | pending
  | running
  | shuttingDown
  | terminated
  | stopping
  | stopped
deriving DecidableEq

def InstanceState.name : InstanceState → Text
  | .pending => text "pending"
  | .running => text "running"
  | .shuttingDown => text "shutting-down"
  | .terminated => text "terminated"
  | .stopping => text "stopping"
  | .stopped => text "stopped"

structure Tag where
  key : Text
  value : Text
deriving DecidableEq

structure Instance where
  instanceId : Text
  state : InstanceState
  publicIpAddress : Option Text
  tags : List Tag
deriving DecidableEq

/-- An instance with its region. -/
abbrev Node := Text × Instance

/-- The region and the id of an instance. -/
def Node.key (n : Node) : Text × Text := (n.1,n.2.instanceId)

structure Vpc where
  vpcId : Text
  isDefault : Bool
deriving DecidableEq

/-- Of the ingress rules only their number matters. -/
structure SecurityGroup where
  groupId : Text
  groupName : Text
  description : Text
  vpcId : Text
  ipPermissions : ℕ
deriving DecidableEq

/-- The arguments of a `get_metric_statistics` call. -/
structure MetricQuery where
  nameSpace : Text
  metricName : Text
  instanceId : Text
  startTime : Time.DateTime
  endTime : Time.DateTime
  period : ℕ
  statistics : List Text
deriving DecidableEq

structure Datapoint where
  timestamp : Time.DateTime
  sum : Rat
deriving DecidableEq

/-! ## Filters -/

/-- A describe filter: one of the values must be among those of the named attribute. -/
structure Filter where
  name : Text
  values : List Text
deriving DecidableEq

def Instance.filterValues (i : Instance) (name : Text) : List Text :=
  if name = text "instance-state-name" then [i.state.name]
  else if name.take 4 = text "tag:" then (i.tags.filter (fun t => t.key = name.drop 4)).map Tag.value
  else []

def Vpc.filterValues (v : Vpc) (name : Text) : List Text :=
  if name = text "isDefault" then [if v.isDefault then text "true" else text "false"] else []

def SecurityGroup.filterValues (g : SecurityGroup) (name : Text) : List Text :=
  if name = text "group-name" then [g.groupName]
  else if name = text "vpc-id" then [g.vpcId]
  else []

def matchesAll (valuesOf : Text → List Text) (filters : List Filter) : Bool :=
  filters.all (fun f => (valuesOf f.name).any (· ∈ f.values))

/-! ## The world -/

structure World where
  regions : List Text
  instances : List Node
  parameters : Text → Text → Option Text
  vpcs : Text → List Vpc
  groups : Text → List SecurityGroup
  metrics : Text → MetricQuery → List Datapoint
  regions_nodup : regions.Nodup
  regions_scalar : ∀ r ∈ regions, Scalar r
  ids_nodup : (instances.map (·.2.instanceId)).Nodup
  ids_scalar : ∀ n ∈ instances, Scalar n.2.instanceId
  ids_ne_nil : ∀ n ∈ instances, n.2.instanceId ≠ []

namespace World

def instanceIds (w : World) : List Text := w.instances.map (·.2.instanceId)

/-- The instances of a region, of any state and with any tags. -/
def instancesIn (w : World) (region : Text) : List Instance :=
  (w.instances.filter (fun n => n.1 = region)).map (·.2)

/-- Change instances one by one without changing their ids. -/
def mapInstances (w : World) (f : Text → Instance → Instance)
    (hf : ∀ r i, (f r i).instanceId = i.instanceId) : World where
  regions := w.regions
  instances := w.instances.map (fun n => (n.1,f n.1 n.2))
  parameters := w.parameters
  vpcs := w.vpcs
  groups := w.groups
  metrics := w.metrics
  regions_nodup := w.regions_nodup
  regions_scalar := w.regions_scalar
  ids_nodup := by
    rw [List.map_map]
    simpa [Function.comp_def,hf] using w.ids_nodup
  ids_scalar := by
    intro n hn
    obtain ⟨m,hm,rfl⟩ := List.mem_map.mp hn
    rw [hf]
    exact w.ids_scalar m hm
  ids_ne_nil := by
    intro n hn
    obtain ⟨m,hm,rfl⟩ := List.mem_map.mp hn
    rw [hf]
    exact w.ids_ne_nil m hm

def setParameter (w : World) (region name value : Text) : World :=
  { w with parameters := fun r n => if r = region ∧ n = name then some value else w.parameters r n }

def addInstance (w : World) (region : Text) (i : Instance) (hfresh : i.instanceId ∉ w.instanceIds)
    (hscalar : Scalar i.instanceId) (hne : i.instanceId ≠ []) : World where
  regions := w.regions
  instances := w.instances ++ [(region,i)]
  parameters := w.parameters
  vpcs := w.vpcs
  groups := w.groups
  metrics := w.metrics
  regions_nodup := w.regions_nodup
  regions_scalar := w.regions_scalar
  ids_nodup := by
    rw [List.map_append]
    refine List.nodup_append.mpr ⟨w.ids_nodup,by simp,?_⟩
    intro a ha b hb
    rw [List.map_cons,List.map_nil,List.mem_singleton] at hb
    rintro rfl
    exact hfresh (hb ▸ ha)
  ids_scalar := by
    intro n hn
    rcases List.mem_append.mp hn with hn | hn
    · exact w.ids_scalar n hn
    · rw [List.mem_singleton.mp hn]
      exact hscalar
  ids_ne_nil := by
    intro n hn
    rcases List.mem_append.mp hn with hn | hn
    · exact w.ids_ne_nil n hn
    · rw [List.mem_singleton.mp hn]
      exact hne

def addGroup (w : World) (region : Text) (g : SecurityGroup) : World :=
  { w with groups := fun r => if r = region then w.groups r ++ [g] else w.groups r }

end World

/-! ## What the control plane does to an instance -/

/-- A terminate request on an instance. -/
def Instance.terminate (i : Instance) : Instance :=
  { i with state := if i.state = .terminated then .terminated else .shuttingDown }

/-- Tag keys are unique: a known key changes its value. -/
def Instance.setTag (i : Instance) (t : Tag) : Instance :=
  { i with tags := if i.tags.any (fun u => u.key = t.key) then
      i.tags.map (fun u => if u.key = t.key then t else u) else i.tags ++ [t] }

@[simp] theorem Instance.terminate_id (i : Instance) : i.terminate.instanceId = i.instanceId := rfl
@[simp] theorem Instance.setTag_id (i : Instance) (t : Tag) : (i.setTag t).instanceId = i.instanceId := rfl
@[simp] theorem Instance.setTag_state (i : Instance) (t : Tag) : (i.setTag t).state = i.state := rfl
@[simp] theorem Instance.terminate_tags (i : Instance) : i.terminate.tags = i.tags := rfl

theorem Instance.foldl_setTag_id (ts : List Tag) (i : Instance) :
    (ts.foldl Instance.setTag i).instanceId = i.instanceId := by
  induction ts generalizing i with
  | nil => rfl
  | cons t ts ih => rw [List.foldl_cons,ih,Instance.setTag_id]

end ShardVPN
