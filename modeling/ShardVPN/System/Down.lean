import ShardVPN.System.Runs

/-! # A successful `down`

A request to go down that succeeds has emptied one region. A node is left in the
default region when the pointer names another one.
-/
namespace ShardVPN.System
open Effect Settings Handler

/-- From `v` to `w`, no node is left where the pointer pointed or in the default region. -/
structure Gone (rt : Runtime) (v w : World) : Prop where
  pointed : ∀ p region, storedPointer rt v = .ok (some p) → clientRegion rt p.region = .ok region →
    w.nodesIn region = []
  default : ∀ region, v.parameters rt.controlRegion ParamName.defaultRegion.path = some region →
    w.nodesIn region = []

/-- A pointer names the default region, or no node is live there. -/
def Covered (rt : Runtime) (w : World) : Prop := ∀ p region default, storedPointer rt w = .ok (some p) →
  clientRegion rt p.region = .ok region →
  w.parameters rt.controlRegion ParamName.defaultRegion.path = some default →
  region = default ∨ w.nodesIn default = []

/-- A successful request to go down. -/
def Downed (rt : Runtime) (w : World) (l : Label) : Prop :=
  ∃ i, l = .invoke i ∧ Asks asksDown i ∧ ∃ response, Answers rt i w response

variable {rt : Runtime} {w : World}

theorem Downed.effects {l : Label} (h : Downed rt w l) : ∃ region, DownRegion rt w region ∧
    (after rt w l).nodes = w.nodes.filter (fun n => decide (n.1 ≠ region)) ∧
    storedPointer rt (after rt w l) = .ok none := by
  obtain ⟨i,rfl,⟨body,hbody,hdown⟩,response,hanswers⟩ := h
  obtain ⟨body',xs,ys,u,t,hbody',hes,hxs,hu,hperform⟩ := hanswers.performed
  obtain rfl : body = body' := Option.some.inj (hbody.symm.trans hbody')
  have hafter : after rt w (.invoke i) = i.env.service.replay w ys := by
    change i.after rt w = _
    rw [i.after_eq,hes,Service.replay_append,replay_reads i.env hxs]
  rcases perform_cases hperform with ⟨hup,-⟩ | ⟨-,hrun⟩ | ⟨-,hnot,-⟩
  · rw [asksDown] at hdown
    rw [asksUp,hdown] at hup
    exact absurd hup (by decide)
  · rw [hu] at hrun
    obtain ⟨region,hregion,hnodes,-,hpointer⟩ := hrun.effects i.env
    rw [hafter]
    exact ⟨region,hregion,hnodes,hpointer⟩
  · exact absurd hdown hnot

theorem nodesIn_filter {v w : World} {region : Text}
    (h : w.nodes = v.nodes.filter (fun n => decide (n.1 ≠ region))) (r : Text) :
    w.nodesIn r = if r = region then [] else v.nodesIn r := by
  rw [nodesIn_eq,nodesIn_eq,h,List.filter_filter]
  split
  · rename_i hr
    rw [List.map_eq_nil_iff,List.filter_eq_nil_iff]
    intro n _
    simp [hr]
  · rename_i hr
    congr 1
    refine List.filter_congr ?_
    intro n _
    by_cases hn : n.1 = r
    · simp [hn,hr]
    · simp [hn]

/-- After a success the nodes are gone iff the pointer covered the default region. -/
theorem Downed.gone_iff {l : Label} (h : Downed rt w l) : Gone rt w (after rt w l) ↔ Covered rt w := by
  obtain ⟨region,hregion,hnodes,-⟩ := h.effects
  have hin := nodesIn_filter hnodes
  constructor
  · rintro ⟨-,hdefault⟩ p region' default hp hclient hd
    have hnil := hdefault default hd
    obtain rfl := hregion.pointed hp hclient
    by_cases heq : region' = default
    · exact Or.inl heq
    · rw [hin,if_neg (Ne.symm heq)] at hnil
      exact Or.inr hnil
  · intro hcovered
    refine ⟨?_,?_⟩
    · intro p region' hp hclient
      obtain rfl := hregion.pointed hp hclient
      rw [hin,if_pos rfl]
    · intro default hd
      rw [hin]
      split
      · rfl
      · rename_i hne
        rcases hregion with ⟨-,hd'⟩ | ⟨q,hq,hclient⟩
        · exact absurd (Option.some.inj (hd.symm.trans hd')) hne
        · exact (hcovered q region default hq hclient hd).resolve_left (Ne.symm hne)

/-- In a run, every successful request to go down leaves no node where the request path
looks iff each of them finds the default region covered. -/
theorem downs_gone_iff (rt : Runtime) (w : World) (ls : List Label) :
    Along (after rt) (fun v l => Downed rt v l → Gone rt v (after rt v l)) w ls ↔
      Along (after rt) (fun v l => Downed rt v l → Covered rt v) w ls :=
  ⟨Along.mono fun _ _ h hd => hd.gone_iff.mp (h hd),Along.mono fun _ _ h hd => hd.gone_iff.mpr (h hd)⟩

/-- A node dies in another region, and the next one is launched in the default region
while the pointer cannot be written. -/
def staleDown : List Label := [Plain.invoke Plain.clean Plain.upEastText,
  .nodeEnds (Plain.longerId Plain.empty),Plain.invoke Plain.unwritable Plain.upText,
  Plain.invoke Plain.clean Plain.downText]

theorem stale_down_leaves_node : ¬Along (after Plain.runtime) (fun v l => Downed Plain.runtime v l →
    Gone Plain.runtime v (after Plain.runtime v l)) Plain.empty staleDown := by
  intro h
  have hdown := along_iff.mp h (staleDown.take 3) (Plain.invoke Plain.clean Plain.downText) [] rfl
  have hrun : (Invocation.reply Plain.runtime ⟨Plain.clean,Plain.proc,[],Plain.request Plain.downText⟩
        (run (after Plain.runtime) Plain.empty (staleDown.take 3)) = .ok (.http (respond 200 Statusdoc.absent))) ∧
      (run (after Plain.runtime) Plain.empty (staleDown.take 3)).parameters Plain.runtime.controlRegion
        ParamName.defaultRegion.path = some Plain.region0 ∧
      (after Plain.runtime (run (after Plain.runtime) Plain.empty (staleDown.take 3))
        (Plain.invoke Plain.clean Plain.downText)).nodesIn Plain.region0 ≠ [] := by decide +kernel
  obtain ⟨hreply,hdefault,hnodes⟩ := hrun
  have hdowned : Downed Plain.runtime (run (after Plain.runtime) Plain.empty (staleDown.take 3))
      (Plain.invoke Plain.clean Plain.downText) :=
    ⟨_,rfl,⟨[(text "action",.str (text "down"))],by decide +kernel,rfl⟩,_,hreply,rfl⟩
  exact hnodes ((hdown hdowned).default Plain.region0 hdefault)

end ShardVPN.System
