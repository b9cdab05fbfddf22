import ShardVPN.System.Evolution

/-! # The security groups of the program

A group is created only where a lookup found none, so whatever fails no VPC ever gets
a second one, and every node is launched behind a group of the program on a default
VPC that has no ingress rules at that moment.
-/
namespace ShardVPN.System
open Effect Ec2ops Settings Handler

/-- The groups of the program on a VPC. -/
def walls (w : World) (region vpcId : Text) : List SecurityGroup :=
  (w.groups region).filter (fun g => decide (g.groupName = sgName) && decide (g.vpcId = vpcId))

def OneWall (w : World) : Prop := ∀ region vpcId, (walls w region vpcId).length ≤ 1

theorem oneWall_congr {v w : World} (h : w.groups = v.groups) (hv : OneWall v) : OneWall w := by
  intro region vpcId
  unfold walls
  rw [h]
  exact hv region vpcId

/-- A group where there was none. -/
theorem oneWall_addGroup {w : World} {region vpcId groupId : Text} (hw : OneWall w)
    (hnone : ∀ g ∈ w.groups region, g.groupName = sgName → g.vpcId ≠ vpcId) :
    OneWall (w.addGroup region ⟨groupId,sgName,sgDescription,vpcId,0⟩) := by
  intro region' vpcId'
  unfold walls World.addGroup
  dsimp only
  split
  · rename_i hregion
    subst hregion
    rw [List.filter_append,List.length_append]
    by_cases hvpc : vpcId = vpcId'
    · subst hvpc
      have hempty : (w.groups region').filter
          (fun g => decide (g.groupName = sgName) && decide (g.vpcId = vpcId)) = [] := by
        rw [List.filter_eq_nil_iff]
        intro g hg hmatch
        obtain ⟨hname,hv⟩ := Bool.and_eq_true_iff.mp hmatch
        exact hnone g hg (of_decide_eq_true hname) (of_decide_eq_true hv)
      rw [hempty]
      exact (Nat.zero_add _).le.trans (List.length_filter_le _ _)
    · have hother : [(⟨groupId,sgName,sgDescription,vpcId,0⟩ : SecurityGroup)].filter
          (fun g => decide (g.groupName = sgName) && decide (g.vpcId = vpcId')) = [] := by
        simp [hvpc]
      rw [hother]
      exact hw region' vpcId'
  · exact hw region' vpcId'

theorem oneWall_lasting (rt : Runtime) : Lasting rt OneWall where
  call env w c hw hc := by
    cases hc with
    | wall hv hdefault hnone => exact oneWall_addGroup hw hnone
    | _ => exact oneWall_congr rfl hw
  outside w l hw hl := by
    cases l with
    | invoke i => exact absurd rfl (hl i)
    | _ => exact oneWall_congr rfl hw

/-- Every launch of a step is behind a closed group, as the world is at that moment. -/
def LaunchesWalled (rt : Runtime) (w : World) : Label → Prop
  | .invoke i => ∀ pre e post, i.events rt w = pre ++ e :: post → ∀ region request,
      e.call = .runInstances region request →
      ∃ g, Walled (i.env.service.replay w pre) region g ∧ request.securityGroupIds = [g.groupId]
  | _ => True

theorem launchesWalled (rt : Runtime) (w : World) (l : Label) : LaunchesWalled rt w l := by
  cases l with
  | invoke i =>
    intro pre e post hes region request hcall
    have hwarrants : Warrants rt i.env w (i.events rt w) := i.warrants w
    have hwarranted := Service.permits_iff.mp hwarrants pre e post hes
    rw [hcall] at hwarranted
    cases hwarranted with
    | launch ho => exact ho.walled
  | _ => trivial

/-- In every run, whatever fails, a VPC has one group of the program at most, and every launch
is behind such a group without ingress rules. -/
theorem nodes_walled (rt : Runtime) (w : World) (ls : List Label)
    (h : ∀ region vpcId, (walls w region vpcId).length ≤ 1) :
    (∀ region vpcId, (walls (run (after rt) w ls) region vpcId).length ≤ 1) ∧
      Along (after rt) (LaunchesWalled rt) w ls :=
  ⟨(oneWall_lasting rt).run ls h,along_iff.mpr fun _ _ _ _ => launchesWalled rt _ _⟩

/-- Two launches in one region, the first of them lost by the pointer. -/
def walledRun : List Label := [Plain.invoke Plain.unwritable Plain.upText,Plain.invoke Plain.clean Plain.downText,
  Plain.invoke Plain.clean Plain.upText]

theorem nodes_walled_plain :
    (walls (run (after Plain.runtime) Plain.empty walledRun) Plain.region0 (text "vpc-0")).length ≤ 1 ∧
      Along (after Plain.runtime) (LaunchesWalled Plain.runtime) Plain.empty walledRun := by
  obtain ⟨hwalls,hlaunches⟩ := nodes_walled Plain.runtime Plain.empty walledRun fun _ _ => Nat.zero_le 1
  exact ⟨hwalls _ _,hlaunches⟩

end ShardVPN.System
