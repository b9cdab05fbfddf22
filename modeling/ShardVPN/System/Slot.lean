import ShardVPN.Request.Documents
import ShardVPN.Sweep.Repair
import ShardVPN.System.Down
import ShardVPN.System.Up

/-! # One node at a time

The account as a whole is meant to be one slot that a node takes and leaves. When
every call succeeds, each step of the system is matched by steps of the slot, and the
pointer names the node in it.
-/
namespace ShardVPN.System
open Effect Settings Handler Relation

/-- A slot is taken when it is free, and left. -/
inductive SlotStep {K : Type} : Option K → Option K → Prop
  | take (k : K) : SlotStep none (some k)
  | leave (k : K) : SlotStep (some k) none

/-- The nodes of a world are those in the slot, and the pointer names them. -/
structure Represents (rt : Runtime) (w : World) (slot : Option (Text × Text)) : Prop where
  nodes : w.nodes.map Node.key = slot.toList
  enumerated : ∀ k ∈ slot, k.1 ∈ w.regions
  pointer : ∃ p, storedPointer rt w = .ok p ∧ ∀ k ∈ slot, p = some ⟨.str k.1,.str k.2⟩

variable {rt : Runtime} {w : World} {a : Option (Text × Text)}

theorem Represents.of_same {v : World} (h : Represents rt v a) (hsame : Same v w) : Represents rt w a where
  nodes := by
    rw [hsame.nodes]
    exact h.nodes
  enumerated := by
    rw [hsame.regions]
    exact h.enumerated
  pointer := by
    rw [hsame.storedPointer]
    exact h.pointer

theorem Represents.key (h : Represents rt w a) {n : Node} (hn : n ∈ w.nodes) : a = some n.key := by
  have hk := List.mem_map_of_mem (f := Node.key) hn
  rw [h.nodes] at hk
  exact Option.mem_toList.mp hk

theorem Represents.taken {k : Text × Text} (h : Represents rt w (some k)) :
    ∃ i, w.nodes = [(k.1,i)] ∧ i.instanceId = k.2 ∧ storedPointer rt w = .ok (some ⟨.str k.1,.str k.2⟩) := by
  obtain ⟨n,hn,rfl⟩ := List.map_eq_singleton_iff.mp h.nodes
  obtain ⟨p,hp,hk⟩ := h.pointer
  exact ⟨n.2,hn,rfl,hp.trans (congrArg Except.ok (hk _ rfl))⟩

theorem Represents.atMostOne (h : Represents rt w a) : w.nodes.length ≤ 1 := by
  rw [← List.length_map (f := Node.key),h.nodes]
  exact Option.length_toList_le

theorem Represents.pointsTo (h : Represents rt w a) {n : Node} (hn : n ∈ w.nodes) :
    storedPointer rt w = .ok (some (pointerTo n)) := by
  obtain rfl := h.key hn
  exact h.taken.choose_spec.2.2

theorem Represents.free (h : Represents rt w none) : w.nodes = [] := List.map_eq_nil_iff.mp h.nodes

/-- With no node where the pointer points, there is none at all. -/
theorem Represents.free_of_untracked (h : Represents rt w a) (hu : Untracked rt w) : a = none := by
  cases a with
  | none => rfl
  | some k =>
    obtain ⟨i,hi,-,hp⟩ := h.taken
    obtain ⟨region,hclient,hnil⟩ := hu _ hp
    obtain rfl : k.1 = region := clientRegion_str hclient
    have hmem : i ∈ w.nodesIn k.1 := by
      rw [mem_nodesIn,hi]
      exact List.mem_singleton_self _
    rw [hnil] at hmem
    cases hmem

theorem Represents.trackable (h : Represents rt w a) : Trackable rt w := by
  intro p region hp hregion
  rw [List.eq_nil_iff_forall_not_mem]
  by_cases hlive : ∃ i, i ∈ w.nodesIn region
  · obtain ⟨i,hi⟩ := hlive
    obtain rfl := h.key (mem_nodesIn.mp hi)
    obtain ⟨-,-,-,hp'⟩ := h.taken
    rw [hp] at hp'
    refine Or.inr ⟨i,hi,congrArg Pointer.instanceId (Option.some.inj (Except.ok.inj hp'))⟩
  · exact Or.inl fun i hi => hlive ⟨i,hi⟩

/-! ## Every step is matched -/

theorem UpRun.represents {env : Env} {body : Dict} {r : Except Exn Response} {es : List Event}
    (h : UpRun rt env body w r es) (hes : ∀ e ∈ es, e.succeeded = true) (hw : Represents rt w a) :
    ∃ b, ReflTransGen SlotStep a b ∧ Represents rt (env.service.replay w es) b := by
  cases h with
  | tracked hquiet _ _ _ _ => exact ⟨a,.refl,hw.of_same (replay_quiet env hquiet w)⟩
  | declined hquiet _ => exact ⟨a,.refl,hw.of_same (replay_quiet env hquiet w)⟩
  | recovered ht hi _ _ _ _ _ =>
    obtain rfl := hw.free_of_untracked ht.untracked
    have hmem := mem_nodesIn.mp hi
    rw [hw.free] at hmem
    cases hmem
  | failed _ _ _ _ _ hf =>
    rw [hes _ (List.mem_append_right _ (List.mem_singleton_self _))] at hf
    cases hf
  | @launched region request r e xs ht hn hxs hrole he heffective _ =>
    obtain rfl := hw.free_of_untracked ht.untracked
    refine ⟨_,.single (.take (region,(env.launched (env.service.replay w xs) request).instanceId)),?_,?_,?_⟩
    · rw [nodes_launched env hxs hrole he,hw.free]
      rfl
    · rintro k ⟨⟩
      rw [replay_regions]
      exact ht.valid
    · refine ⟨some (pointerTo (region,env.launched (env.service.replay w xs) request)),?_,by rintro k ⟨⟩; rfl⟩
      rw [Service.replay_append,Service.replay_cons]
      exact storedPointer_written env he (heffective (hes e (by simp))) (by simp) (w.regions_scalar _ ht.valid)
        (env.instanceId_scalar _)

/-- A region that a request to go down empties is that of the node. -/
theorem Represents.emptied {v : World} {region : Text} (h : Represents rt v a) (hregion : DownRegion rt v region)
    (hnodes : w.nodes = v.nodes.filter (fun n => decide (n.1 ≠ region))) : w.nodes = [] := by
  rw [hnodes,List.filter_eq_nil_iff]
  intro n hn
  obtain rfl := h.key hn
  obtain ⟨-,-,-,hp⟩ := h.taken
  rcases hregion with ⟨hnone,-⟩ | ⟨p,hp',hclient⟩
  · rw [hp] at hnone
    cases hnone
  · rw [hp] at hp'
    cases hp'
    obtain rfl : n.1 = region := clientRegion_str hclient
    simp

theorem Represents.cleared (h : w.nodes = []) {p : Option Pointer} (hp : storedPointer rt w = .ok p) :
    Represents rt w none where
  nodes := List.map_eq_nil_iff.mpr h
  enumerated := by simp
  pointer := ⟨p,hp,by simp⟩

theorem leaves (a : Option (Text × Text)) : ReflTransGen SlotStep a none := by
  cases a with
  | none => exact .refl
  | some k => exact .single (.leave k)

theorem DownRun.represents {env : Env} {r : Except Exn Response} {es : List Event} (h : DownRun rt w r es)
    (hes : ∀ e ∈ es, e.succeeded = true) (hw : Represents rt w a) :
    ∃ b, ReflTransGen SlotStep a b ∧ Represents rt (env.service.replay w es) b := by
  cases r with
  | ok response =>
    obtain ⟨region,hregion,hnodes,-,hpointer⟩ := h.effects env
    exact ⟨none,leaves a,.cleared (hw.emptied hregion hnodes) hpointer⟩
  | error x =>
    cases h with
    | failed _ hf =>
      rcases hf with hquiet | ⟨e,he,hf⟩
      · exact ⟨a,.refl,hw.of_same (replay_quiet env hquiet w)⟩
      · rw [hes e he] at hf
        cases hf

theorem Represents.repairable (h : Represents rt w a) (now : Time.DateTime) : Watchdog.Repairable rt now w where
  enumerated n hn := h.enumerated _ (h.key hn)
  launches hlength := by
    have hle := List.length_filter_le (fun n => !Watchdog.overdue now n) w.nodes
    have hone := h.atMostOne
    rw [Watchdog.unexpired] at hlength
    omega
  readable := by
    obtain ⟨p,hp,-⟩ := h.pointer
    exact ⟨p,hp⟩
  consistent p hp n hn hid := by
    obtain rfl := h.key hn
    obtain ⟨-,-,-,hp'⟩ := h.taken
    rw [hp] at hp'
    cases hp'
    rfl

/-- A clean sweep keeps the node in the slot or has it leave. -/
theorem Represents.swept {v : World} {now : Time.DateTime} {kept : Option Node} (h : Represents rt v a)
    (hkept : Watchdog.Repaired rt now v w kept) (hregions : w.regions = v.regions) :
    ∃ b, ReflTransGen SlotStep a b ∧ Represents rt w b := by
  have hkeys : ∀ n ∈ kept, a = some n.key := by
    intro n hn
    obtain ⟨m,hm,hkey⟩ := List.mem_map.mp (hkept.origin n hn)
    rw [← hkey]
    exact h.key (List.mem_filter.mp hm).1
  cases kept with
  | none => exact ⟨none,leaves a,.cleared hkept.nodes hkept.pointer⟩
  | some n =>
    obtain rfl := hkeys n rfl
    refine ⟨_,.refl,congrArg (List.map Node.key) hkept.nodes,?_,_,hkept.pointer,by rintro k ⟨⟩; rfl⟩
    rw [hregions]
    exact h.enumerated

theorem step_represents {l : Label} (hw : Represents rt w a) (hs : Succeeds rt w l) :
    ∃ b, ReflTransGen SlotStep a b ∧ Represents rt (after rt w l) b := by
  cases l with
  | setDefault d value =>
    refine ⟨a,.refl,hw.nodes,hw.enumerated,?_⟩
    rw [storedPointer_setDefault]
    exact hw.pointer
  | nodeBoots instanceId publicIp =>
    exact ⟨a,.refl,(keys_nodeBoots w instanceId publicIp).trans hw.nodes,hw.enumerated,hw.pointer⟩
  | nodeEnds instanceId =>
    cases a with
    | none =>
      refine ⟨none,.refl,.cleared ?_ hw.pointer.choose_spec.1⟩
      rw [nodes_nodeEnds,hw.free]
      rfl
    | some k =>
      obtain ⟨i,hi,hid,hp⟩ := hw.taken
      by_cases hk : i.instanceId = instanceId
      · refine ⟨none,leaves _,.cleared ?_ hp⟩
        rw [nodes_nodeEnds,hi]
        simp [hk]
      · refine ⟨some k,.refl,?_,hw.enumerated,hw.pointer⟩
        rw [nodes_nodeEnds,← hw.nodes,hi]
        simp [hk]
  | invoke i =>
    have hhandled := i.handled rt w
    change ∃ b, ReflTransGen SlotStep a b ∧ Represents rt (i.after rt w) b
    change ∀ e ∈ i.events rt w, e.succeeded = true at hs
    rw [i.after_eq]
    generalize i.events rt w = es at hhandled hs
    generalize i.reply rt w = r at hhandled
    cases hhandled with
    | @swept now summary u t es _ hu hsweep =>
      obtain ⟨kept,hkept,-⟩ := Watchdog.sweep_repaired hsweep hs (hu ▸ hw.repairable _)
      rw [hsweep.world,hu] at hkept
      exact hw.swept hkept (replay_regions _ _ _)
    | refused hes _ =>
      rw [replay_reads i.env hes]
      exact ⟨a,.refl,hw⟩
    | @performed body r u t xs ys hbody hxs hu hperform =>
      have hys : ∀ e ∈ ys, e.succeeded = true := fun e he => hs e (List.mem_append_right _ he)
      rw [Service.replay_append,replay_reads i.env hxs]
      rcases perform_cases hperform with ⟨-,hup⟩ | ⟨-,hdown⟩ | ⟨-,-,hquiet⟩
      · exact UpRun.represents (hu ▸ hup) hys hw
      · exact DownRun.represents (hu ▸ hdown) hys hw
      · exact ⟨a,.refl,hw.of_same (replay_quiet i.env hquiet w)⟩

/-- A run whose calls all succeed is a run of the slot. -/
theorem run_represents {ls : List Label} (h : Along (after rt) (Succeeds rt) w ls) (hw : Represents rt w a) :
    ∃ b, ReflTransGen SlotStep a b ∧ Represents rt (run (after rt) w ls) b :=
  h.refines (fun _ _ _ hv hs => step_represents hv hs) hw

/-! ## What the requests promise -/

/-- At most one node is live, and the pointer names it. -/
structure OneNode (rt : Runtime) (w : World) : Prop where
  atMostOne : w.nodes.length ≤ 1
  pointer : ∀ n ∈ w.nodes, storedPointer rt w = .ok (some (pointerTo n))

/-- A successful request for the status. -/
def Asked (rt : Runtime) (w : World) (l : Label) (response : Response) : Prop :=
  ∃ i, l = .invoke i ∧ Asks asksStatus i ∧ Answers rt i w response

/-- The response describes the only node there is, or says that there is none. -/
def Depicts (w : World) (response : Response) : Prop :=
  w.nodes = [] ∧ response = respond 200 Statusdoc.absent ∨
    ∃ n, w.nodes = [n] ∧ Reports response (.str n.1) (.str n.2.instanceId)

/-- A success reports the only node there is, or that there is none. -/
structure Truthful (rt : Runtime) (w : World) (l : Label) : Prop where
  up : ∀ response, Upped rt w l response →
    ∃ n, (after rt w l).nodes = [n] ∧ Reports response (.str n.1) (.str n.2.instanceId)
  down : Downed rt w l → (after rt w l).nodes = [] ∧ storedPointer rt (after rt w l) = .ok none
  status : ∀ response, Asked rt w l response → Depicts (after rt w l) response

theorem perform_status {env : Env} {s t : State} {es : List Event} {body : Dict} {r : Except Exn Response}
    (hask : asksStatus body) (h : Steps env.service (perform rt body) s r es t) :
    Steps env.service (status rt) s r es t := by
  unfold perform at h
  rw [show body.get (text "action") = some (.str (text "status")) from hask,if_neg (by decide),if_neg (by decide),
    if_pos rfl] at h
  exact h

/-- What the pointer names is described. -/
theorem Represents.told {env : Env} {s t : State} {es : List Event} {response : Response}
    (h : Represents rt s.world a) (hs : Steps env.service (status rt) s (.ok response) es t) :
    Depicts s.world response := by
  obtain ⟨p,d,u,xs,rfl,hp,hsame,hdescribe⟩ := status_cases hs
  cases p with
  | none =>
    obtain rfl := Except.ok.inj (Steps.pure_iff.mp hdescribe).1
    cases a with
    | none => exact .inl ⟨h.free,rfl⟩
    | some k =>
      obtain ⟨i,-,-,hp'⟩ := h.taken
      cases hp.symm.trans hp'
  | some p =>
    obtain ⟨region,hclient,hcases⟩ := describe_cases hdescribe rfl
    unfold Selected at hcases
    rw [hsame.nodesIn] at hcases
    rcases hcases with ⟨hnil,rfl⟩ | ⟨i,⟨hi,-⟩,hdescribes⟩
    · have hfree : Untracked rt s.world := by
        intro q hq
        obtain rfl := Option.some.inj (Except.ok.inj (hp.symm.trans hq))
        exact ⟨region,hclient,hnil⟩
      obtain rfl := h.free_of_untracked hfree
      exact .inl ⟨h.free,rfl⟩
    · obtain rfl := h.key (mem_nodesIn.mp hi)
      obtain ⟨j,hj,hid,hp'⟩ := h.taken
      obtain rfl := Option.some.inj (Except.ok.inj (hp.symm.trans hp'))
      refine .inr ⟨_,hj,d,rfl,hdescribes.region,?_⟩
      rw [hid]
      exact hdescribes.instanceId

theorem Represents.truthful (h : Represents rt w a) {l : Label} (hs : Succeeds rt w l) : Truthful rt w l where
  up response hup := by
    obtain ⟨b,-,hb⟩ := step_represents h hs
    obtain ⟨n,hn,region,hreports⟩ := hup.live
    obtain ⟨region',instanceId,hreports',hstored⟩ := hup.named_iff.mpr h.trackable
    obtain ⟨rfl,rfl⟩ := Reports.unique hreports hreports'
    have hp := hb.pointsTo hn
    rw [hstored] at hp
    obtain rfl : region = .str n.1 := congrArg Pointer.region (Option.some.inj (Except.ok.inj hp))
    refine ⟨n,?_,hreports⟩
    obtain ⟨m,hm⟩ := List.length_eq_one_iff.mp (le_antisymm hb.atMostOne (List.length_pos_of_mem hn))
    rw [hm] at hn ⊢
    rw [List.mem_singleton.mp hn]
  down hdown := by
    obtain ⟨region,hregion,hnodes,hpointer⟩ := hdown.effects
    exact ⟨h.emptied hregion hnodes,hpointer⟩
  status response hasked := by
    obtain ⟨i,rfl,⟨body,hbody,hask⟩,hanswers⟩ := hasked
    obtain ⟨body',xs,ys,u,t,hbody',hes,hxs,rfl,hperform⟩ := hanswers.performed
    obtain rfl : body = body' := Option.some.inj (hbody.symm.trans hbody')
    have hstatus := perform_status hask hperform
    have hafter : (i.after rt u.world).nodes = u.world.nodes := by
      rw [i.after_eq,hes,Service.replay_append,replay_reads i.env hxs,← hstatus.world]
      exact (status_quiet.same hstatus).nodes
    unfold Depicts
    change (i.after rt u.world).nodes = [] ∧ _ ∨ ∃ n, (i.after rt u.world).nodes = [n] ∧ _
    rw [hafter]
    exact h.told hstatus

/-- From an empty account, with every call served, the pointer always names the only node
there is, and every success tells the truth. -/
theorem one_node (rt : Runtime) (w : World) (ls : List Label) (hnodes : w.nodes = [])
    (hpointer : storedPointer rt w = .ok none) (h : Along (after rt) (Succeeds rt) w ls) :
    OneNode rt (run (after rt) w ls) ∧ Along (after rt) (Truthful rt) w ls := by
  have hinit : Represents rt w none := .cleared hnodes hpointer
  refine ⟨?_,?_⟩
  · obtain ⟨b,-,hb⟩ := run_represents h hinit
    exact ⟨hb.atMostOne,fun n hn => hb.pointsTo hn⟩
  · rw [along_iff]
    rintro pre l post rfl
    obtain ⟨hpre,hl,-⟩ := along_append.mp h
    obtain ⟨b,-,hb⟩ := run_represents hpre hinit
    exact hb.truthful hl

theorem one_node_plain : OneNode Plain.runtime (run (after Plain.runtime) Plain.empty
    [Plain.invoke Plain.clean Plain.upText,Plain.invoke Plain.clean Plain.downText]) ∧
    Along (after Plain.runtime) (Truthful Plain.runtime) Plain.empty
      [Plain.invoke Plain.clean Plain.upText,Plain.invoke Plain.clean Plain.downText] := by
  refine one_node Plain.runtime Plain.empty _ (by decide +kernel) (by decide +kernel) ⟨?_,?_,trivial⟩
  · change ∀ e ∈ Invocation.events Plain.runtime _ Plain.empty, e.succeeded = true
    decide +kernel
  · change ∀ e ∈ Invocation.events Plain.runtime _ (after Plain.runtime Plain.empty _), e.succeeded = true
    decide +kernel

end ShardVPN.System
