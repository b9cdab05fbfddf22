import ShardVPN.Sweep.Listing
import ShardVPN.Sweep.Tags

/-! # The pointer a sweep leaves

Step 4 compares the pointer with the kept node by id alone. So a pointer with the id of
the kept node and another region stays as it is, and every other pointer that can be
read becomes the region and the id of the node.
-/
namespace ShardVPN.Watchdog
open Effect Ec2ops Settings Time

/-- The pointer names the id of the node and another region. -/
def Misplaces (p : Option Pointer) (n : Node) : Prop :=
  ∃ q, p = some q ∧ q.instanceId = .str n.2.instanceId ∧ q.region ≠ .str n.1

/-- A sweep that can read the pointer and has a node to keep. -/
structure Keeps (rt : Runtime) (env : Env) (now : DateTime) (s : State) (p : Option Pointer) (n : Node) : Prop where
  readable : pointerSeen rt env s.trace s.world = .ok p
  kept : keptSeen rt env s.trace s.world now = some n

section
variable {rt : Runtime} {env : Env} {s : State} {n : Node} {now : DateTime} {p : Option Pointer}

/-- A pointer that is read is the stored one. -/
theorem pointerSeen_stored (h : pointerSeen rt env s.trace s.world = .ok p) : storedPointer rt s.world = .ok p := by
  have hread := (readPointer rt.controlRegion .currentNode).steps_exec env.service s
  obtain ⟨hseen,-,-⟩ := readPointer_seen hread
  rw [h] at hseen
  rw [hseen] at hread
  rcases (readPointer_cases hread).2.2 with hstored | ⟨x,hx⟩
  · exact hstored.symm
  · cases hx

/-- The kept node is in a region that was listed. -/
theorem keptSeen_region {before : List Event} {w : World} (h : keptSeen rt env before w now = some n) :
    ∃ regions, regionsSeen rt env before w = .ok regions ∧ n.1 ∈ w.regions := by
  obtain ⟨-,regions,hregions,hregion⟩ := foundNodes_seen (keptNode_mem h)
  exact ⟨regions,hregions,(regionsSeen_perm hregions).mem_iff.mp hregion⟩

theorem Keeps.scalar (h : Keeps rt env now s p n) : Scalar n.1 ∧ Scalar n.2.instanceId := by
  obtain ⟨-,-,hregion⟩ := keptSeen_region h.kept
  exact ⟨s.world.regions_scalar _ hregion,node_scalar (keptSeen_mem h.kept)⟩

/-- A kept node is compared with the pointer. -/
theorem Keeps.decision (h : Keeps rt env now s p n) : decisionSeen rt env s.trace s.world now =
    if untracked p n.2.instanceId then some (some (pointerTo n)) else none := by
  obtain ⟨regions,hregions,-⟩ := keptSeen_region h.kept
  have hordered : (orderSurvivors (remaining now (scansSeen rt env s.trace s.world))).2 = true := by
    by_contra hunordered
    have hnone := (unordered_surplus (Bool.not_eq_true _ ▸ hunordered)).1
    cases hnone.symm.trans h.kept
  have hkept : keptNode (remaining now (scansSeen rt env s.trace s.world)) = some n := h.kept
  unfold decisionSeen Watchdog.decision
  rw [hregions,h.readable]
  dsimp only
  rw [if_pos hordered,hkept]
  rfl

theorem untracked_eq_false {id : Text} : untracked p id = false ↔ ∃ q, p = some q ∧ q.instanceId = .str id := by
  cases p <;> simp [untracked]

/-- A pointer with the id of the kept node stays as it is. -/
theorem Keeps.tracked (h : Keeps rt env now s p n) (hp : untracked p n.2.instanceId = false) :
    storedPointer rt ((sweep rt now).exec env.service s).2.world = .ok p := by
  have hputs := puts_sweep rt now env s
  rw [h.decision,hp] at hputs
  rw [← pointerSeen_stored h.readable]
  unfold storedPointer
  rw [(sweepEvents_steps rt now env s).world,replay_puts env env _ rfl,hputs]
  rfl

/-- Any other pointer is replaced, if the write succeeds. -/
theorem Keeps.untracked (h : Keeps rt env now s p n) (hp : untracked p n.2.instanceId = true)
    (hwrite : ∀ e ∈ sweepEvents rt now env s, e.call.keepsParameters = false → e.succeeded = true) :
    storedPointer rt ((sweep rt now).exec env.service s).2.world = .ok (some (pointerTo n)) := by
  have hputs := puts_sweep rt now env s
  rw [h.decision,hp,if_pos rfl,Option.toList_some,List.map_singleton] at hputs
  have hmem : env.service.event s.trace s.world (pointerWrite rt (some (pointerTo n))) ∈
      puts (sweepEvents rt now env s) := by
    rw [hputs]
    exact List.mem_singleton_self _
  have heffective := Service.event_effective (hwrite _ (List.mem_filter.mp hmem).1 (by rw [Service.event_call]; rfl))
  have hwritten := (storedPointer_write env rt (some (pointerTo n)) s.world).trans
    (decode_pointerTo h.scalar.1 h.scalar.2)
  rw [← hwritten]
  unfold storedPointer
  rw [(sweepEvents_steps rt now env s).world,replay_puts env env _ rfl,hputs,Service.replay_cons,heffective,
    if_pos rfl,Service.event_call]
  rfl

end

/-- A sweep that keeps a node leaves its region and its id as the pointer, exactly when the pointer it read
did not name the id with another region. -/
theorem address_kept_iff (rt : Runtime) (env : Env) (now : DateTime) (s : State) (p : Option Pointer) (n : Node)
    (h : Keeps rt env now s p n)
    (hwrite : ∀ e ∈ sweepEvents rt now env s, e.call.keepsParameters = false → e.succeeded = true) :
    storedPointer rt ((sweep rt now).exec env.service s).2.world = .ok (some (pointerTo n)) ↔ ¬Misplaces p n := by
  cases hp : untracked p n.2.instanceId with
  | true =>
    refine iff_of_true (h.untracked hp hwrite) ?_
    rintro ⟨q,hq,hid,-⟩
    cases hp.symm.trans (untracked_eq_false.mpr ⟨q,hq,hid⟩)
  | false =>
    obtain ⟨q,rfl,hid⟩ := untracked_eq_false.mp hp
    rw [h.tracked hp]
    constructor
    · rintro hsame ⟨_,hq,-,hregion⟩
      obtain rfl := Option.some.inj hq
      rw [Option.some.inj (Except.ok.inj hsame)] at hregion
      exact hregion rfl
    · intro hplaced
      have hregion : q.region = .str n.1 := by
        by_contra hregion
        exact hplaced ⟨q,rfl,hid,hregion⟩
      cases q
      cases hid
      cases hregion
      rfl

/-- One running node without an expiry. -/
def lone : Node := Plain.node Plain.region0 Plain.instance0 Plain.newYearsEve Ttl.never

def loneWorld (pointer : Text) : World := Plain.world pointer [lone] (by decide) (by decide) (by decide)

/-- Without a pointer, the node is adopted. -/
theorem address_kept_lone : storedPointer Plain.runtime ((sweep Plain.runtime Plain.midnight.toDateTime).exec
    Plain.clean.service (Plain.state (loneWorld Settings.empty))).2.world = .ok (some (pointerTo lone)) := by
  refine (address_kept_iff Plain.runtime Plain.clean Plain.midnight.toDateTime (Plain.state (loneWorld Settings.empty))
    none lone ⟨by decide +kernel,by decide +kernel⟩ (by decide +kernel)).mpr ?_
  rintro ⟨_,hq,-⟩
  cases hq

/-- A pointer to the node in another region outlives a sweep in which every call succeeds. -/
theorem misplaced_stays :
    let s := Plain.state (loneWorld (Plain.pointsTo Plain.region1 Plain.instance0))
    Keeps Plain.runtime Plain.clean Plain.midnight.toDateTime s
        (some ⟨.str Plain.region1,.str Plain.instance0⟩) lone ∧
      (∀ e ∈ sweepEvents Plain.runtime Plain.midnight.toDateTime Plain.clean s, e.succeeded = true) ∧
      storedPointer Plain.runtime ((sweep Plain.runtime Plain.midnight.toDateTime).exec Plain.clean.service s).2.world ≠
        .ok (some (pointerTo lone)) := by
  exact ⟨⟨by decide +kernel,by decide +kernel⟩,by decide +kernel,by decide +kernel⟩

end ShardVPN.Watchdog
