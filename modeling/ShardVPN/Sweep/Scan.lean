import ShardVPN.Program.Specs
import ShardVPN.Program.Watchdog
import Mathlib.Data.List.Nodup

/-! # What the scan finds

Every enumerated region is scanned once. Together the successful scans find exactly
the live nodes of their regions, each of them once.
-/
namespace ShardVPN.Watchdog
open Effect Ec2ops

/-- The call that scans a region. -/
def scanCall (region : Text) : Call := .describeInstances region nodeFilters

/-- Some scan of the region succeeded. -/
def scannedOk (es : List Event) (region : Text) : Bool :=
  es.any (fun e => decide (e.call = scanCall region) && e.succeeded)

/-- One scan and its event in a world. -/
inductive ScanEvent (w : World) : Scan → Event → Prop
  | found {region : Text} {nodes : List Instance} : nodes.Perm (w.nodesIn region) →
      ScanEvent w ⟨region,nodes,none⟩ ⟨scanCall region,none,true⟩
  | failed {region : Text} {e : ServiceError} {effective : Bool} :
      ScanEvent w ⟨region,[],some (.service e)⟩ ⟨scanCall region,some e,effective⟩

variable {env : Env} {s t : State} {es : List Event}

theorem scan_cases {region : Text} {x : Scan} (h : Steps env.service (scan region) s (.ok x) es t) :
    t.world = s.world ∧ x.region = region ∧ ∃ e, es = [e] ∧ ScanEvent s.world x e := by
  obtain ⟨v,u,xs,ys,h1,h2,rfl⟩ := h.bind_attempt
  obtain ⟨hw,-,⟨nodes,rfl,hperm,rfl⟩ | ⟨e,b,rfl,rfl⟩⟩ := findNodes_cases h1
  · obtain ⟨hx,rfl,rfl⟩ := Steps.pure_iff.mp h2
    cases hx
    exact ⟨hw,rfl,_,rfl,.found hperm⟩
  · obtain ⟨hx,rfl,rfl⟩ := Steps.pure_iff.mp h2
    cases hx
    exact ⟨hw,rfl,_,rfl,.failed⟩

theorem scanAll_cases {regions : List Text} {scanned : List Scan}
    (h : Steps env.service (scanAll regions) s (.ok scanned) es t) :
    t.world = s.world ∧ scanned.map Scan.region = regions ∧ List.Forall₂ (ScanEvent s.world) scanned es := by
  induction regions generalizing s es scanned with
  | nil =>
    obtain ⟨hx,rfl,rfl⟩ := Steps.pure_iff.mp h
    cases hx
    exact ⟨rfl,rfl,.nil⟩
  | cons region rest ih =>
    obtain ⟨x,u,xs,ys,h1,h2,rfl⟩ := h.bind_total
    obtain ⟨others,v,ys,zs,h3,h4,rfl⟩ := h2.bind_total
    obtain ⟨hx,rfl,rfl⟩ := Steps.pure_iff.mp h4
    cases hx
    obtain ⟨hw1,hr1,e,rfl,he⟩ := scan_cases h1
    obtain ⟨hw2,hr2,hall⟩ := ih h3
    rw [hw1] at hall
    rw [List.append_nil]
    exact ⟨hw2.trans hw1,by rw [List.map_cons,hr1,hr2],.cons he hall⟩

theorem ScanEvent.call {w : World} {x : Scan} {e : Event} (h : ScanEvent w x e) : e.call = scanCall x.region := by
  cases h <;> rfl

theorem ScanEvent.succeeded {w : World} {x : Scan} {e : Event} (h : ScanEvent w x e) :
    e.succeeded = x.error.isNone := by
  cases h <;> rfl

theorem ScanEvent.mem_nodes {w : World} {x : Scan} {e : Event} (h : ScanEvent w x e) {i : Instance} :
    i ∈ x.nodes ↔ x.error = none ∧ i ∈ w.nodesIn x.region := by
  cases h with
  | found hperm => simp [hperm.mem_iff]
  | failed => simp

theorem ScanEvent.nodup {w : World} {x : Scan} {e : Event} (h : ScanEvent w x e) : x.nodes.Nodup := by
  cases h with
  | found hperm =>
    refine hperm.nodup_iff.mpr ?_
    rw [nodesIn_eq]
    refine List.Nodup.map_on ?_ ((nodes_nodup w).of_map.filter _)
    intro m hm n hn heq
    have hm' := (List.mem_filter.mp hm).2
    have hn' := (List.mem_filter.mp hn).2
    simp only [decide_eq_true_eq] at hm' hn'
    exact Prod.ext (hm'.trans hn'.symm) heq
  | failed => exact List.nodup_nil

theorem forall₂_mem {w : World} {scanned : List Scan} (h : List.Forall₂ (ScanEvent w) scanned es) :
    (∀ x ∈ scanned, ∃ e ∈ es, ScanEvent w x e) ∧ ∀ e ∈ es, ∃ x ∈ scanned, ScanEvent w x e := by
  induction h with
  | nil => exact ⟨by simp,by simp⟩
  | @cons x e scanned es hxe hrest ih =>
    refine ⟨?_,?_⟩
    · intro y hy
      rcases List.mem_cons.mp hy with rfl | hy
      · exact ⟨e,List.mem_cons_self,hxe⟩
      · obtain ⟨f,hf,hyf⟩ := ih.1 y hy
        exact ⟨f,List.mem_cons_of_mem _ hf,hyf⟩
    · intro f hf
      rcases List.mem_cons.mp hf with rfl | hf
      · exact ⟨x,List.mem_cons_self,hxe⟩
      · obtain ⟨y,hy,hyf⟩ := ih.2 f hf
        exact ⟨y,List.mem_cons_of_mem _ hy,hyf⟩

theorem scanCall_injective {r r' : Text} (h : scanCall r = scanCall r') : r = r' := by
  cases h
  rfl

section
variable {w : World} {scanned : List Scan} (hall : List.Forall₂ (ScanEvent w) scanned es)
  (hregions : (scanned.map Scan.region).Nodup)
include hall hregions

/-- Of a region there is one scan, and its event tells how it went. -/
theorem scannedOk_iff {x : Scan} (hx : x ∈ scanned) : scannedOk es x.region = true ↔ x.error = none := by
  rw [scannedOk,List.any_eq_true]
  constructor
  · rintro ⟨e,he,hc⟩
    simp only [Bool.and_eq_true,decide_eq_true_eq] at hc
    obtain ⟨y,hy,hye⟩ := (forall₂_mem hall).2 e he
    have hxy : y = x := by
      refine List.inj_on_of_nodup_map hregions hy hx ?_
      exact scanCall_injective (hye.call.symm.trans hc.1)
    rw [← hxy]
    exact Option.isNone_iff_eq_none.mp (hye.succeeded.symm.trans hc.2)
  · intro herr
    obtain ⟨e,he,hxe⟩ := (forall₂_mem hall).1 x hx
    exact ⟨e,he,by simp [hxe.call,hxe.succeeded,herr]⟩

theorem mem_foundNodes {n : Node} : n ∈ foundNodes scanned ↔ n ∈ w.nodes ∧ scannedOk es n.1 = true := by
  rw [foundNodes,List.mem_flatMap]
  constructor
  · rintro ⟨x,hx,hn⟩
    obtain ⟨i,hi,rfl⟩ := List.mem_map.mp hn
    obtain ⟨e,-,hxe⟩ := (forall₂_mem hall).1 x hx
    obtain ⟨herr,hnode⟩ := hxe.mem_nodes.mp hi
    exact ⟨mem_nodesIn.mp hnode,(scannedOk_iff hall hregions hx).mpr herr⟩
  · rintro ⟨hn,hok⟩
    obtain ⟨e,he,hc⟩ := List.any_eq_true.mp hok
    simp only [Bool.and_eq_true,decide_eq_true_eq] at hc
    obtain ⟨x,hx,hxe⟩ := (forall₂_mem hall).2 e he
    have hr : x.region = n.1 := scanCall_injective (hxe.call.symm.trans hc.1)
    refine ⟨x,hx,List.mem_map.mpr ⟨n.2,hxe.mem_nodes.mpr ⟨?_,?_⟩,by rw [hr]⟩⟩
    · exact Option.isNone_iff_eq_none.mp (hxe.succeeded.symm.trans hc.2)
    · rw [hr]
      exact mem_nodesIn.mpr hn

theorem foundNodes_nodup : (foundNodes scanned).Nodup := by
  rw [foundNodes,List.nodup_flatMap]
  refine ⟨?_,?_⟩
  · intro x hx
    obtain ⟨e,-,hxe⟩ := (forall₂_mem hall).1 x hx
    exact hxe.nodup.map (fun i j h => (Prod.mk.inj h).2)
  · refine (List.pairwise_map.mp hregions).imp ?_
    intro x y hne n hx hy
    obtain ⟨i,-,rfl⟩ := List.mem_map.mp hx
    obtain ⟨j,-,hj⟩ := List.mem_map.mp hy
    exact hne (congrArg Prod.fst hj).symm

/-- The scan finds exactly the live nodes of the regions it could scan. -/
theorem foundNodes_perm :
    (foundNodes scanned).Perm (w.nodes.filter (fun n => scannedOk es n.1)) := by
  refine (List.perm_ext_iff_of_nodup (foundNodes_nodup hall hregions) ((nodes_nodup w).of_map.filter _)).mpr ?_
  intro n
  rw [mem_foundNodes hall hregions,List.mem_filter]

theorem mem_scanFailedRegions {r : Text} :
    r ∈ scanFailedRegions scanned ↔ r ∈ scanned.map Scan.region ∧ scannedOk es r = false := by
  rw [scanFailedRegions,List.mem_map,List.mem_map]
  constructor
  · rintro ⟨x,hx,rfl⟩
    obtain ⟨hx,herr⟩ := List.mem_filter.mp hx
    refine ⟨⟨x,hx,rfl⟩,?_⟩
    rw [← Bool.not_eq_true,scannedOk_iff hall hregions hx,← ne_eq,← Option.isSome_iff_ne_none]
    exact herr
  · rintro ⟨⟨x,hx,rfl⟩,hok⟩
    rw [← Bool.not_eq_true,scannedOk_iff hall hregions hx,← ne_eq,← Option.isSome_iff_ne_none] at hok
    exact ⟨x,List.mem_filter.mpr ⟨hx,hok⟩,rfl⟩

end

end ShardVPN.Watchdog
