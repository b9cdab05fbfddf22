import ShardVPN.Program.Watchdog

/-! # Which survivor is kept

Survivors are ordered by launch time, or not at all when one of several has none
that can be read. The first of the order is launched last.
-/
namespace ShardVPN.Watchdog
open Ec2ops Time

def launchTime (n : Node) : Option DateTime := (tagValue n.2 tagLaunched).bind parseRfc3339

/-- No node of the list was launched after `kept`. -/
def Newest (nodes : List Node) (kept : Node) : Prop :=
  ∀ n ∈ nodes, ∀ a b, launchTime n = some a → launchTime kept = some b → a.instant ≤ b.instant

theorem parseLaunches_cons (n : Node) (rest : List Node) : parseLaunches (n :: rest) =
    (launchTime n).bind (fun a => (parseLaunches rest).map ((a,n) :: ·)) := by
  rw [parseLaunches,launchTime]
  cases tagValue n.2 tagLaunched with
  | none => rfl
  | some raw =>
    simp only [Option.bind_eq_bind,Option.bind_some]
    cases parseRfc3339 raw with
    | none => rfl
    | some a => cases parseLaunches rest <;> rfl

theorem parseLaunches_some {nodes : List Node} {parsed : List (DateTime × Node)}
    (h : parseLaunches nodes = some parsed) :
    parsed.map (·.2) = nodes ∧ ∀ p ∈ parsed, launchTime p.2 = some p.1 := by
  induction nodes generalizing parsed with
  | nil =>
    cases h
    exact ⟨rfl,by simp⟩
  | cons n rest ih =>
    rw [parseLaunches_cons] at h
    obtain ⟨a,ha,hrest⟩ := Option.bind_eq_some_iff.mp h
    obtain ⟨others,hothers,rfl⟩ := Option.map_eq_some_iff.mp hrest
    obtain ⟨hmap,hall⟩ := ih hothers
    refine ⟨by rw [List.map_cons,hmap],?_⟩
    intro p hp
    rcases List.mem_cons.mp hp with rfl | hp
    · exact ha
    · exact hall p hp

theorem parseLaunches_none {nodes : List Node} :
    parseLaunches nodes = none ↔ ∃ n ∈ nodes, launchTime n = none := by
  induction nodes with
  | nil => simp [parseLaunches]
  | cons n rest ih =>
    rw [parseLaunches_cons]
    cases hn : launchTime n with
    | none => simp [hn]
    | some a => simp [hn,ih]

theorem newerFirst_total : ∀ a b : DateTime × Node, newerFirst a b ∨ newerFirst b a :=
  fun a b => le_total b.1.instant a.1.instant

theorem newerFirst_trans : ∀ a b c : DateTime × Node, newerFirst a b → newerFirst b c → newerFirst a c :=
  fun _ _ _ hab hbc => le_trans hbc hab

instance : Std.Total newerFirst := ⟨newerFirst_total⟩
instance : IsTrans (DateTime × Node) newerFirst := ⟨newerFirst_trans⟩

/-- There is no order iff one of several survivors has no launch time. -/
theorem orderSurvivors_unordered {survivors : List Node} : (orderSurvivors survivors).2 = false ↔
    2 ≤ survivors.length ∧ ∃ n ∈ survivors, launchTime n = none := by
  rw [orderSurvivors]
  split
  · rename_i h
    simp only [Bool.true_eq_false,false_iff]
    omega
  · rename_i h
    cases hp : parseLaunches survivors with
    | none =>
      simp only [true_iff]
      exact ⟨by omega,parseLaunches_none.mp hp⟩
    | some parsed =>
      simp only [Bool.true_eq_false,false_iff]
      rintro ⟨-,hn⟩
      rw [parseLaunches_none.mpr hn] at hp
      cases hp

/-- An order has the same survivors, and its first is the newest. -/
theorem orderSurvivors_ordered {survivors : List Node} (h : (orderSurvivors survivors).2 = true) :
    (orderSurvivors survivors).1.Perm survivors ∧
      ∀ kept, (orderSurvivors survivors).1.head? = some kept → Newest survivors kept := by
  rw [orderSurvivors] at h ⊢
  split at h
  · rename_i hlen
    rw [if_pos hlen]
    refine ⟨.refl _,?_⟩
    intro kept hkept n hn a b ha hb
    have hsingle : n = kept := by
      match survivors,hlen with
      | [m],_ =>
        rw [List.mem_singleton.mp hn]
        exact Option.some.inj hkept
    subst hsingle
    exact le_of_eq (congrArg DateTime.instant (Option.some.inj (ha.symm.trans hb)))
  · rename_i hlen
    rw [if_neg hlen]
    cases hp : parseLaunches survivors with
    | none =>
      rw [hp] at h
      cases h
    | some parsed =>
      obtain ⟨hmap,hall⟩ := parseLaunches_some hp
      have hperm := List.perm_insertionSort newerFirst parsed
      have hsorted := List.pairwise_insertionSort newerFirst parsed
      dsimp only
      refine ⟨(hperm.map _).trans (by rw [hmap]),?_⟩
      intro kept hkept n hn a b ha hb
      cases hs : parsed.insertionSort newerFirst with
      | nil =>
        rw [hs] at hkept
        cases hkept
      | cons p rest =>
        rw [hs] at hkept hsorted hperm
        obtain rfl : p.2 = kept := Option.some.inj hkept
        have hpb := hall p (hperm.mem_iff.mp List.mem_cons_self)
        rw [hb] at hpb
        obtain rfl := Option.some.inj hpb
        rw [← hmap] at hn
        obtain ⟨q,hq,rfl⟩ := List.mem_map.mp hn
        have hqa := hall q hq
        rw [ha] at hqa
        obtain rfl := Option.some.inj hqa
        rcases List.mem_cons.mp (hperm.mem_iff.mpr hq) with rfl | hq
        · exact le_refl _
        · exact (List.pairwise_cons.mp hsorted).1 q hq

end ShardVPN.Watchdog
