import ShardVPN.Sweep.Repair
import ShardVPN.Sweep.Warrants
import ShardVPN.System.Runs

/-! # How the account evolves, whatever fails

Under any failures a step does little to the instances on record: each keeps its id,
its region and all its tags but the time of the last alert, and none comes back to
life. One may be added, launched in a region without a live node. What these changes
preserve holds in every run, so no region ever gets a second live node.
-/
namespace ShardVPN.System
open Effect Time Ec2ops Settings Handler Watchdog

/-- The later instance is the earlier one, perhaps alerted about, perhaps ended. -/
structure Ages (m n : Node) : Prop where
  key : n.key = m.key
  tags : ∀ key, key ≠ tagAlerted → tagValue n.2 key = tagValue m.2 key
  role : hasRole n.2 = hasRole m.2
  live : isLive n.2 = true → isLive m.2 = true

/-- What happens to the instances between two worlds. -/
inductive Evolves (v w : World) : Prop
  | aged (f : Node → Node) : (∀ n, Ages n (f n)) → w.instances = v.instances.map f → Evolves v w
  | launched (l : Launch) (i : Instance) : l.region ∈ v.regions → v.nodesIn l.region = [] → i.tags = l.tags →
      i.state = .pending → w.instances = v.instances ++ [(l.region,i)] → Evolves v w

theorem Ages.refl (n : Node) : Ages n n := ⟨rfl,fun _ _ => rfl,rfl,id⟩

theorem Ages.region {m n : Node} (h : Ages m n) : n.1 = m.1 := (Prod.mk.inj h.key).1

theorem Ages.isNode {m n : Node} (h : Ages m n) (hn : isNode n.2 = true) : isNode m.2 = true := by
  obtain ⟨hrole,hlive⟩ := Bool.and_eq_true_iff.mp hn
  exact Bool.and_eq_true_iff.mpr ⟨h.role ▸ hrole,h.live hlive⟩

theorem ages_terminate (region : Text) (i : Instance) : Ages (region,i) (region,i.terminate) where
  key := rfl
  tags _ _ := rfl
  role := rfl
  live := by
    have hdead : isLive i.terminate = false := by
      unfold isLive Instance.terminate
      dsimp only
      split <;> rfl
    intro hlive
    rw [hdead] at hlive
    cases hlive

theorem ages_setTag (region : Text) (i : Instance) {t : Tag} (ht : t.key = tagAlerted) :
    Ages (region,i) (region,i.setTag t) where
  key := rfl
  tags key hkey := tagValue_setTag_of_ne i (by rw [ht]; exact hkey.symm)
  role := hasRole_setTag (by rw [ht]; decide) i
  live := id

theorem ages_ended (instanceId region : Text) (i : Instance) : Ages (region,i) (region,ended instanceId i) := by
  unfold ended
  split
  · exact ⟨rfl,fun _ _ => rfl,rfl,fun h => by cases h⟩
  · exact .refl _

theorem ages_booted (instanceId region : Text) (publicIp : Option Text) (i : Instance) :
    Ages (region,i) (region,booted instanceId publicIp i) := by
  unfold booted
  split
  · rename_i h
    exact ⟨rfl,fun _ _ => rfl,rfl,fun _ => by simp [isLive,h.2]⟩
  · exact .refl _

theorem evolves_of_instances {v w : World} (h : w.instances = v.instances) : Evolves v w :=
  .aged id Ages.refl (by rw [h,List.map_id])

variable {rt : Runtime}

/-- A warranted call lets the account evolve. -/
theorem evolves_effect (env : Env) {w : World} {c : Call} (hc : Warranted rt w c) : Evolves w (env.effect c w) := by
  cases hc with
  | launch ho =>
    obtain ⟨l,rfl,htags,-⟩ := ho.tagged
    exact .launched l _ ho.valid ho.free htags rfl rfl
  | @terminate n hn hrole =>
    refine .aged (fun m => (m.1,if m.1 = n.1 ∧ m.2.instanceId ∈ [n.2.instanceId] then m.2.terminate else m.2)) ?_ rfl
    intro m
    split
    · exact ages_terminate m.1 m.2
    · exact .refl _
  | @stamp n value hn hrole =>
    refine .aged (fun m => (m.1,if m.1 = n.1 ∧ m.2.instanceId ∈ [n.2.instanceId] then
      [⟨tagAlerted,value⟩].foldl Instance.setTag m.2 else m.2)) ?_ rfl
    intro m
    split
    · exact ages_setTag m.1 m.2 rfl
    · exact .refl _
  | _ => exact evolves_of_instances rfl

/-- The environment's own steps let the account evolve. -/
theorem evolves_outside {w : World} {l : Label} (hl : ∀ i, l ≠ .invoke i) : Evolves w (after rt w l) := by
  cases l with
  | invoke i => exact absurd rfl (hl i)
  | setDefault d value => exact evolves_of_instances rfl
  | nodeEnds instanceId => exact .aged (fun n => (n.1,ended instanceId n.2)) (fun n => ages_ended _ _ _) rfl
  | nodeBoots instanceId publicIp =>
    exact .aged (fun n => (n.1,booted instanceId publicIp n.2)) (fun n => ages_booted _ _ _ _) rfl

/-- A property of worlds that no warranted call and no step from outside ends. -/
structure Lasting (rt : Runtime) (I : World → Prop) : Prop where
  call : ∀ (env : Env) (w : World) (c : Call), I w → Warranted rt w c → I (env.effect c w)
  outside : ∀ (w : World) (l : Label), I w → (∀ i, l ≠ .invoke i) → I (after rt w l)

theorem Invocation.warrants (i : Invocation) (w : World) : Warrants rt i.env w (i.events rt w) :=
  lambdaHandler_warrants (i.steps w)

section
variable {I : World → Prop} (h : Lasting rt I) {w : World}
include h

theorem Lasting.replay {env : Env} {es : List Event} (hes : Warrants rt env w es) (hw : I w) :
    I (env.service.replay w es) :=
  hes.invariant (fun v c => h.call env v c) hw

theorem Lasting.step (l : Label) (hw : I w) : I (after rt w l) := by
  by_cases hl : ∃ i, l = .invoke i
  · obtain ⟨i,rfl⟩ := hl
    change I (i.after rt w)
    rw [i.after_eq]
    exact h.replay (i.warrants w) hw
  · exact h.outside w l hw fun i hi => hl ⟨i,hi⟩

theorem Lasting.run (ls : List Label) (hw : I w) : I (Effect.run (after rt) w ls) := by
  induction ls generalizing w with
  | nil => exact hw
  | cons l ls ih => exact ih (h.step l hw)

end

/-- A property of instances and regions alone, preserved as the account evolves. -/
theorem lasting_of_evolves {I : World → Prop}
    (hI : ∀ v w, Evolves v w → w.regions = v.regions → I v → I w) : Lasting rt I where
  call env w c hw hc := hI w _ (evolves_effect env hc) (env.effect_regions c w) hw
  outside w l hw hl := by
    refine hI w _ (evolves_outside hl) ?_ hw
    cases l with
    | invoke i => exact absurd rfl (hl i)
    | _ => rfl

/-! ## One live node in a region -/

/-- How many nodes of a region are live. -/
def liveIn (region : Text) (nodes : List Node) : ℕ := nodes.countP fun n => decide (n.1 = region) && isNode n.2

theorem length_nodesIn (w : World) (region : Text) : (w.nodesIn region).length = liveIn region w.instances := by
  unfold liveIn
  rw [nodesIn_eq,List.length_map,← List.countP_eq_length_filter,World.nodes,List.countP_filter]

theorem Evolves.single {v w : World} {region : Text} (h : Evolves v w) (hv : (v.nodesIn region).length ≤ 1) :
    (w.nodesIn region).length ≤ 1 := by
  cases h with
  | aged f hf hw =>
    rw [length_nodesIn] at hv ⊢
    refine le_trans ?_ hv
    unfold liveIn
    rw [hw,List.countP_map]
    refine List.countP_mono_left fun n _ hn => ?_
    obtain ⟨hregion,hnode⟩ := Bool.and_eq_true_iff.mp hn
    simp only [decide_eq_true_eq,(hf n).region] at hregion
    simp [hregion,(hf n).isNode hnode]
  | launched l i hvalid hfree htags hstate hw =>
    have hsum : (w.nodesIn region).length = (v.nodesIn region).length + liveIn region [(l.region,i)] := by
      rw [length_nodesIn,length_nodesIn,hw]
      exact List.countP_append
    by_cases hregion : l.region = region
    · have hone : liveIn region [(l.region,i)] ≤ 1 := List.countP_le_length
      rw [← hregion,hfree] at hsum
      simpa [hsum,← hregion] using hone
    · have hzero : liveIn region [(l.region,i)] = 0 := by simp [liveIn,hregion]
      omega

/-- Whatever fails in whatever run, a region with at most one live node never gets a second one. -/
theorem one_node_per_region (rt : Runtime) (w : World) (ls : List Label) (region : Text)
    (h : (w.nodesIn region).length ≤ 1) : ((run (after rt) w ls).nodesIn region).length ≤ 1 := by
  have hlasting : Lasting rt fun w => (w.nodesIn region).length ≤ 1 :=
    lasting_of_evolves fun v w hvw _ hv => hvw.single hv
  exact hlasting.run ls h

/-- A launch whose pointer is not written, and two more requests. -/
theorem one_node_per_region_plain :
    ((run (after Plain.runtime) Plain.empty [Plain.invoke Plain.unwritable Plain.upText,
      Plain.invoke Plain.clean Plain.upEastText,Plain.invoke Plain.clean Plain.upText]).nodesIn Plain.region0).length
        ≤ 1 :=
  one_node_per_region Plain.runtime Plain.empty _ Plain.region0 (Nat.zero_le 1)

end ShardVPN.System
