import ShardVPN.Program.Ec2ops

/-! # The live nodes of a world

What `find_nodes` can see, and how each call changes it: a terminate removes the
nodes it names, a launch adds one, a tag other than the role keeps them all, and
every other call leaves them alone.
-/
namespace ShardVPN
open Effect Ec2ops

def isLive (i : Instance) : Bool := i.state = .pending || i.state = .running

def hasRole (i : Instance) : Bool := i.tags.any (fun t => decide (t.key = tagRole) && decide (t.value = roleValue))

def isNode (i : Instance) : Bool := hasRole i && isLive i

/-- The live exit nodes of all regions. -/
def World.nodes (w : World) : List Node := w.instances.filter (fun n => isNode n.2)

/-- The live exit nodes of one region. -/
def World.nodesIn (w : World) (region : Text) : List Instance := (w.instancesIn region).filter isNode

theorem matchesAll_nodeFilters (i : Instance) : matchesAll i.filterValues nodeFilters = isNode i := by
  have hrole : (text "tag:" ++ tagRole = text "instance-state-name") = False := by decide
  have htake : (text "tag:" ++ tagRole).take 4 = text "tag:" := by decide
  have hdrop : (text "tag:" ++ tagRole).drop 4 = tagRole := by decide
  have hstates : ∀ st : InstanceState, decide (st.name ∈ liveStates) =
      (decide (st = .pending) || decide (st = .running)) := by
    intro st
    cases st <;> decide
  simp only [matchesAll,nodeFilters,List.all_cons,List.all_nil,Bool.and_true,Instance.filterValues,hrole,
    ↓reduceIte,htake,hdrop,List.any_cons,List.any_nil,Bool.or_false,hstates,isNode,hasRole,isLive]
  congr 1
  rw [List.any_map,List.any_filter]
  simp

theorem mem_nodesIn {w : World} {r : Text} {i : Instance} : i ∈ w.nodesIn r ↔ (r,i) ∈ w.nodes := by
  simp [World.nodesIn,World.nodes,World.instancesIn]

theorem nodesIn_eq (w : World) (r : Text) :
    w.nodesIn r = (w.nodes.filter (fun n => decide (n.1 = r))).map (·.2) := by
  rw [World.nodesIn,World.instancesIn,World.nodes,List.filter_map,List.filter_filter,List.filter_filter]
  congr 1
  refine List.filter_congr ?_
  intro n _
  rw [Function.comp_apply,Bool.and_comm]

theorem nodes_nodup (w : World) : (w.nodes.map Node.key).Nodup := by
  refine List.Nodup.of_map (f := Prod.snd) ?_
  rw [List.map_map]
  exact w.ids_nodup.sublist (List.filter_sublist.map _)

/-- A node is determined by its id. -/
theorem node_unique {w : World} {m n : Node} (hm : m ∈ w.nodes) (hn : n ∈ w.nodes)
    (h : m.2.instanceId = n.2.instanceId) : m = n :=
  List.inj_on_of_nodup_map w.ids_nodup (List.mem_filter.mp hm).1 (List.mem_filter.mp hn).1 h

theorem node_scalar {w : World} {n : Node} (hn : n ∈ w.nodes) : Scalar n.2.instanceId :=
  w.ids_scalar n (List.mem_filter.mp hn).1

theorem node_id_ne_nil {w : World} {n : Node} (hn : n ∈ w.nodes) : n.2.instanceId ≠ [] :=
  w.ids_ne_nil n (List.mem_filter.mp hn).1

theorem Same.nodes {v w : World} (h : Same v w) : w.nodes = v.nodes := by
  rw [World.nodes,h.instances]
  rfl

theorem Same.nodesIn {v w : World} (h : Same v w) (r : Text) : w.nodesIn r = v.nodesIn r := by
  rw [World.nodesIn,World.instancesIn,h.instances]
  rfl

/-! ## Effects of the calls -/

theorem isNode_terminate (i : Instance) : isNode i.terminate = false := by
  have hl : isLive i.terminate = false := by
    rw [isLive,Instance.terminate]
    split <;> rfl
  rw [isNode,hl,Bool.and_false]

theorem nodes_terminate (env : Env) (r : Text) (ids : List Text) (w : World) :
    (env.effect (.terminateInstances r ids) w).nodes =
      w.nodes.filter (fun n => !(decide (n.1 = r) && decide (n.2.instanceId ∈ ids))) := by
  simp only [World.nodes,Env.effect,World.mapInstances]
  generalize w.instances = l
  induction l with
  | nil => rfl
  | cons n l ih =>
    rw [List.map_cons,List.filter_cons,List.filter_cons]
    by_cases h : n.1 = r ∧ n.2.instanceId ∈ ids
    · rw [if_pos h,isNode_terminate,if_neg (by decide),ih]
      split
      · rw [List.filter_cons_of_neg (by simp [h])]
      · rfl
    · rw [if_neg h,ih]
      split
      · rw [List.filter_cons_of_pos (by simpa [imp_iff_not_or] using h)]
      · rfl

theorem nodes_run (env : Env) (r : Text) (request : RunInstances) (w : World)
    (h : hasRole (env.launched w request) = true) :
    (env.effect (.runInstances r request) w).nodes = w.nodes ++ [(r,env.launched w request)] := by
  have hn : isNode (env.launched w request) = true := by
    rw [isNode,h]
    rfl
  simp [World.nodes,Env.effect,World.addInstance,List.filter_append,hn]

/-- The node as a tag call leaves it. -/
def stamped (r : Text) (ids : List Text) (t : Tag) (n : Node) : Node :=
  if n.1 = r ∧ n.2.instanceId ∈ ids then (n.1,n.2.setTag t) else n

@[simp] theorem stamped_key (r : Text) (ids : List Text) (t : Tag) (n : Node) :
    (stamped r ids t n).key = n.key := by
  rw [stamped]
  split <;> rfl

theorem tagValue_setTag_self (i : Instance) (t : Tag) : tagValue (i.setTag t) t.key = some t.value := by
  rw [tagValue,Instance.setTag]
  dsimp only
  split
  · rename_i hany
    have hkey : ((fun u : Tag => decide (u.key = t.key)) ∘ fun u => if u.key = t.key then t else u) =
        fun u => decide (u.key = t.key) := by
      funext u
      by_cases hu : u.key = t.key <;> simp [hu]
    rw [List.find?_map,hkey]
    obtain ⟨u,hu⟩ := Option.isSome_iff_exists.mp (List.find?_isSome.mpr (List.any_eq_true.mp hany))
    have hut : u.key = t.key := by simpa using List.find?_some hu
    rw [hu]
    simp [hut]
  · rename_i hany
    have hnone : i.tags.find? (fun u => decide (u.key = t.key)) = none :=
      List.find?_eq_none.mpr fun u hu hk => hany (List.any_eq_true.mpr ⟨u,hu,hk⟩)
    rw [List.find?_append,hnone]
    simp

theorem find_replaced {t : Tag} {key : Text} (ht : t.key ≠ key) (tags : List Tag) :
    (tags.map (fun u => if u.key = t.key then t else u)).find? (fun u => u.key = key) =
      tags.find? (fun u => u.key = key) := by
  induction tags with
  | nil => rfl
  | cons u tags ih =>
    rw [List.map_cons,List.find?_cons,List.find?_cons,ih]
    by_cases hu : u.key = t.key
    · have hne : u.key ≠ key := hu ▸ ht
      simp [hu,ht]
    · simp [hu]

/-- Another tag's value is kept. -/
theorem tagValue_setTag_of_ne (i : Instance) {t : Tag} {key : Text} (ht : t.key ≠ key) :
    tagValue (i.setTag t) key = tagValue i key := by
  unfold tagValue Instance.setTag
  dsimp only
  split
  · rw [find_replaced ht]
  · rw [List.find?_append]
    simp [ht]

theorem hasRole_setTag {t : Tag} (ht : t.key ≠ tagRole) (i : Instance) : hasRole (i.setTag t) = hasRole i := by
  have hmap : (i.tags.map (fun u => if u.key = t.key then t else u)).any
      (fun t => decide (t.key = tagRole) && decide (t.value = roleValue)) = hasRole i := by
    rw [List.any_map,hasRole]
    congr 1
    funext u
    by_cases hu : u.key = t.key
    · have hne : u.key ≠ tagRole := hu ▸ ht
      simp [hu,ht]
    · simp [hu]
  rw [hasRole,Instance.setTag]
  dsimp only
  split
  · exact hmap
  · simp [hasRole,ht]

theorem nodes_stamp (env : Env) (r : Text) (ids : List Text) {t : Tag} (ht : t.key ≠ tagRole) (w : World) :
    (env.effect (.createTags r ids [t]) w).nodes = w.nodes.map (stamped r ids t) := by
  simp only [World.nodes,Env.effect,World.mapInstances,List.foldl_cons,List.foldl_nil]
  have hstamp : (fun n : Node => (n.1,if n.1 = r ∧ n.2.instanceId ∈ ids then n.2.setTag t else n.2)) =
      stamped r ids t := by
    funext n
    rw [stamped]
    split <;> rfl
  have hnode : ∀ n : Node, isNode (stamped r ids t n).2 = isNode n.2 := by
    intro n
    rw [stamped]
    split
    · rw [isNode,hasRole_setTag ht]
      rfl
    · rfl
  rw [hstamp,List.filter_map]
  simp only [Function.comp_def,hnode]

end ShardVPN
