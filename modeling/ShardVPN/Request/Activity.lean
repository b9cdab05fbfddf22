import ShardVPN.Search.Latest
import ShardVPN.Program.Specs
import ShardVPN.Program.Watchdog
import ShardVPN.System.Plain
import ShardVPN.Time.Seconds

/-! # The idle figure

CloudWatch answers in any order. The figure is the age of the last point above the
floor, or of the first point when there is none above it, and it depends on the set
of the points alone.
-/
namespace ShardVPN.Watchdog
open Effect Time Ec2ops Search

/-- `idle_seconds` of the points in the order `network_out` puts them in. -/
def idleFigure (points : List Datapoint) (now : DateTime) (floor : Rat) : Option ℤ :=
  idleSeconds (points.insertionSort pointLe) now floor

def time (p : Datapoint) : ℤ := p.timestamp.instant

/-- The figure counts from the last point above the floor, or from the first point of all. -/
def CountsFrom (points : List Datapoint) (floor : Rat) (t : ℤ) : Prop :=
  IsGreatest (keysWith time (fun p => floor < p.sum) points) t ∨
    (∀ p ∈ points, ¬floor < p.sum) ∧ IsLeast (keysWith time (fun _ => True) points) t

/-- The seconds between two instants as the figure counts them. -/
def secondsSince (t now : ℤ) : ℤ := max (wholeSeconds (now - t)) 0

/-- Whole seconds between two instants, none when the first is not the earlier. -/
def wholeSecondsSince (t now : ℤ) : ℤ := max 0 ((now - t) / microsPerSecond)

variable {points points' : List Datapoint} {now : DateTime} {floor : Rat} {t u : ℤ} {p : Datapoint}

/-! ## The order of the points -/

instance : Std.Total pointLe := ⟨fun p q => by
  unfold pointLe
  rcases lt_trichotomy p.timestamp.instant q.timestamp.instant with h | h | h
  · exact .inl (.inl h)
  · exact Rat.le_total.imp (fun hle => .inr ⟨h,hle⟩) (fun hle => .inr ⟨h.symm,hle⟩)
  · exact .inr (.inl h)⟩

instance : IsTrans Datapoint pointLe := ⟨fun p q r hpq hqr => by
  unfold pointLe at *
  rcases hpq with hpq | ⟨hpq,hle⟩
  · rcases hqr with hqr | ⟨hqr,-⟩
    · exact .inl (hpq.trans hqr)
    · exact .inl (hqr ▸ hpq)
  · rcases hqr with hqr | ⟨hqr,hle'⟩
    · exact .inl (hpq ▸ hqr)
    · exact .inr ⟨hpq.trans hqr,Rat.le_trans hle hle'⟩⟩

theorem time_le_of_pointLe {q : Datapoint} (h : pointLe p q) : time p ≤ time q := by
  rcases h with h | ⟨h,-⟩
  · exact Int.le_of_lt h
  · exact Int.le_of_eq h

theorem insertionSort_times (points : List Datapoint) :
    (points.insertionSort pointLe).Pairwise fun p q => time p ≤ time q :=
  (List.pairwise_insertionSort pointLe points).imp fun h => time_le_of_pointLe h

/-! ## Where the figure counts from -/

theorem CountsFrom.unique (h : CountsFrom points floor t) (h' : CountsFrom points floor u) : t = u := by
  have hbusy : ∀ {v}, IsGreatest (keysWith time (fun p => floor < p.sum) points) v →
      ¬∀ p ∈ points, ¬floor < p.sum := by
    rintro v ⟨⟨p,hp,hsum,-⟩,-⟩ hall
    exact hall p hp hsum
  rcases h with h | ⟨hall,h⟩
  · rcases h' with h' | ⟨hall,-⟩
    · exact h.unique h'
    · exact absurd hall (hbusy h)
  · rcases h' with h' | ⟨-,h'⟩
    · exact absurd hall (hbusy h')
    · exact h.unique h'

theorem CountsFrom.congr (hperm : points'.Perm points) :
    CountsFrom points' floor t ↔ CountsFrom points floor t := by
  unfold CountsFrom
  rw [keysWith_congr fun _ => hperm.mem_iff,keysWith_congr fun _ => hperm.mem_iff]
  simp only [hperm.mem_iff]

/-- Doubles tell microseconds apart for 2^34 seconds. -/
theorem secondsSince_eq {now : ℤ} (h : now - t < 2 ^ 34 * microsPerSecond) :
    secondsSince t now = wholeSecondsSince t now := by
  unfold secondsSince wholeSecondsSince
  rcases Int.le_total 0 (now - t) with hpos | hneg
  · rw [wholeSeconds_eq hpos h,max_comm]
  · have hdiv : (now - t) / microsPerSecond ≤ 0 := by
      unfold microsPerSecond
      omega
    rw [max_eq_right (wholeSeconds_nonpos hneg),max_eq_left hdiv]

theorem secondsSince_anti (h : t ≤ u) (now : ℤ) : secondsSince u now ≤ secondsSince t now :=
  max_le_max_right _ (wholeSeconds_mono (Int.sub_le_sub_left h now))

/-- The figure of points in the order of their times. -/
theorem idleSeconds_counts (hsorted : points.Pairwise fun p q => time p ≤ time q) (hne : points ≠ []) :
    ∃ t, CountsFrom points floor t ∧ idleSeconds points now floor = some (secondsSince t now.instant) := by
  cases points with
  | nil => exact absurd rfl hne
  | cons first rest =>
    unfold idleSeconds
    dsimp only
    cases hfind : (first :: rest).reverse.find? fun p => decide (floor < p.sum) with
    | some p =>
      refine ⟨time p,.inl ?_,rfl⟩
      have h := isGreatest_of_find? hsorted hfind
      simp only [decide_eq_true_eq] at h
      exact h
    | none =>
      refine ⟨time first,.inr ⟨?_,isLeast_head hsorted⟩,rfl⟩
      intro p hp
      have h := List.find?_eq_none.mp hfind p (List.mem_reverse.mpr hp)
      simpa using h

/-! ## The figure -/

theorem idleFigure_counts (now : DateTime) (floor : Rat) (hne : points ≠ []) :
    ∃ t, CountsFrom points floor t ∧ idleFigure points now floor = some (secondsSince t now.instant) := by
  have hperm := points.perm_insertionSort pointLe
  have hsorted : points.insertionSort pointLe ≠ [] := by
    intro h
    rw [h] at hperm
    exact hne hperm.symm.eq_nil
  obtain ⟨t,ht,hfigure⟩ := idleSeconds_counts (insertionSort_times points) hsorted
  exact ⟨t,(CountsFrom.congr hperm).mp ht,hfigure⟩

theorem idleFigure_eq (h : CountsFrom points floor t) :
    idleFigure points now floor = some (secondsSince t now.instant) := by
  have hne : points ≠ [] := by
    rintro rfl
    rcases h with ⟨⟨p,hp,-⟩,-⟩ | ⟨-,⟨p,hp,-⟩,-⟩ <;> cases hp
  obtain ⟨u,hu,hfigure⟩ := idleFigure_counts now floor hne
  rw [hfigure,h.unique hu]

/-- A later point above the floor moves the beginning to itself. -/
theorem CountsFrom.push (h : CountsFrom points floor t) (hbusy : ∃ q ∈ points, floor < q.sum)
    (hp : floor < p.sum) (hle : t ≤ time p) : CountsFrom (p :: points) floor (time p) := by
  rcases h with h | ⟨hall,-⟩
  · refine .inl ⟨⟨p,List.mem_cons_self,hp,rfl⟩,?_⟩
    rintro k ⟨q,hq,hsum,rfl⟩
    rcases List.mem_cons.mp hq with rfl | hq
    · exact le_rfl
    · exact (h.2 ⟨q,hq,hsum,rfl⟩).trans hle
  · obtain ⟨q,hq,hsum⟩ := hbusy
    exact absurd hsum (hall q hq)

/-- What `network_out` returns is the answer of CloudWatch in order. -/
theorem networkOut_sorts {env : Env} {s v : State} {es : List Event} {region instanceId : Text} {hours : ℕ}
    {sorted : List Datapoint}
    (h : Steps env.service (networkOut region instanceId hours now) s (.ok sorted) es v) :
    ∃ start raw, env.service.reply s.trace s.world
        (.getMetricStatistics region (networkQuery instanceId start now)) = .ok raw ∧
      sorted = raw.insertionSort pointLe := by
  rcases networkOut_outcome h with ⟨-,hx,-⟩ | ⟨start,-,hr,-⟩
  · cases hx
  · cases hreply : env.service.reply s.trace s.world
        (.getMetricStatistics region (networkQuery instanceId start now)) with
    | ok raw =>
      rw [hreply] at hr
      exact ⟨start,raw,hreply,Except.ok.inj hr⟩
    | error e =>
      rw [hreply] at hr
      cases hr

/-- The figure is the age of the last real traffic, in whole seconds below 2^34 of them. It does not depend on
the order of the answer, it does not grow when traffic is added, and it is not negative. -/
theorem idle_figure (points : List Datapoint) (now : DateTime) (floor : Rat) :
    (∀ (env : Env) (s v : State) es region instanceId hours sorted,
      Steps env.service (networkOut region instanceId hours now) s (.ok sorted) es v →
        ∃ start raw, env.service.reply s.trace s.world
            (.getMetricStatistics region (networkQuery instanceId start now)) = .ok raw ∧
          idleSeconds sorted now floor = idleFigure raw now floor) ∧
    (idleFigure points now floor = none ↔ points = []) ∧
    (points ≠ [] → ∃ t, CountsFrom points floor t ∧ (∀ u, CountsFrom points floor u → u = t) ∧
      idleFigure points now floor = some (secondsSince t now.instant) ∧
      (now.instant - t < 2 ^ 34 * microsPerSecond →
        idleFigure points now floor = some (wholeSecondsSince t now.instant))) ∧
    (∀ points' : List Datapoint, points'.Perm points → idleFigure points' now floor = idleFigure points now floor) ∧
    (∀ points' p t before after, CountsFrom points floor t → (∃ q ∈ points, floor < q.sum) → floor < p.sum →
      t ≤ time p → points'.Perm (p :: points) → idleFigure points now floor = some before →
        idleFigure points' now floor = some after → after ≤ before) ∧
    ∀ seconds, idleFigure points now floor = some seconds → 0 ≤ seconds := by
  refine ⟨?_,?_,?_,?_,?_,?_⟩
  · intro env s v es region instanceId hours sorted h
    obtain ⟨start,raw,hreply,rfl⟩ := networkOut_sorts h
    exact ⟨start,raw,hreply,rfl⟩
  · constructor
    · intro h
      by_contra hne
      obtain ⟨t,-,hfigure⟩ := idleFigure_counts now floor hne
      cases h.symm.trans hfigure
    · rintro rfl
      rfl
  · intro hne
    obtain ⟨t,ht,hfigure⟩ := idleFigure_counts now floor hne
    refine ⟨t,ht,fun u hu => hu.unique ht,hfigure,?_⟩
    intro hgap
    rw [hfigure,secondsSince_eq hgap]
  · intro points' hperm
    cases points with
    | nil => rw [hperm.eq_nil]
    | cons q rest =>
      obtain ⟨t,ht,hfigure⟩ := idleFigure_counts now floor (List.cons_ne_nil q rest)
      rw [hfigure]
      exact idleFigure_eq ((CountsFrom.congr hperm).mpr ht)
  · intro points' p t before after ht hbusy hp hle hperm hbefore hafter
    rw [idleFigure_eq ht] at hbefore
    rw [idleFigure_eq ((CountsFrom.congr hperm).mpr (ht.push hbusy hp hle))] at hafter
    rw [← Option.some.inj hbefore,← Option.some.inj hafter]
    exact secondsSince_anti hle now.instant
  · intro seconds h
    cases points with
    | nil => cases h
    | cons q rest =>
      obtain ⟨t,-,hfigure⟩ := idleFigure_counts now floor (List.cons_ne_nil q rest)
      rw [← Option.some.inj (hfigure.symm.trans h)]
      exact le_max_right _ _

end ShardVPN.Watchdog

namespace ShardVPN.Plain
open Time

/-- The last microsecond of a minute. -/
def lastMicrosecond : DateTime := ⟨63902822459999999,0,by decide,DateTime.zero_utcoffset_lt⟩

theorem firstDay_lt : 0 < maxOrdinal * microsPerDay := by decide

/-- The first datetime there is. -/
def firstDay : DateTime := ⟨0,0,firstDay_lt,DateTime.zero_utcoffset_lt⟩

/-- Noon and eleven o'clock before midnight. -/
def noon : DateTime := ⟨63902779200000000,0,by decide,DateTime.zero_utcoffset_lt⟩
def eleven : DateTime := ⟨63902775600000000,0,by decide,DateTime.zero_utcoffset_lt⟩

/-- Traffic at eleven, and background noise at noon. -/
def traffic : List Datapoint := [⟨noon,11751⟩,⟨eleven,2000000⟩]

/-- An account whose metrics show that traffic. -/
def metered : World := { empty with metrics := fun _ _ => traffic }

end ShardVPN.Plain

namespace ShardVPN.Watchdog
open Effect Time Ec2ops Search Plain

/-- Over two thousand years a double does not tell the last microsecond of a second from the next second. -/
theorem idle_figure_millennia : CountsFrom [⟨firstDay,2000000⟩] idleBucketFloorBytes firstDay.instant ∧
    idleFigure [⟨firstDay,2000000⟩] lastMicrosecond idleBucketFloorBytes ≠
      some (wholeSecondsSince firstDay.instant lastMicrosecond.instant) := by
  refine ⟨.inl ⟨⟨_,List.mem_singleton_self _,by decide +kernel,rfl⟩,?_⟩,by decide +kernel⟩
  rintro _ ⟨p,hp,-,rfl⟩
  rw [List.mem_singleton.mp hp]
  exact le_rfl

/-- Traffic at eleven is thirteen hours old at midnight, and twelve when there is more at noon. -/
theorem idle_figure_midnight :
    (∃ start raw, clean.service.reply [] metered
        (.getMetricStatistics region0 (networkQuery instance0 start midnight.toDateTime)) = .ok raw ∧
      idleSeconds [⟨eleven,2000000⟩,⟨noon,11751⟩] midnight.toDateTime idleBucketFloorBytes =
        idleFigure raw midnight.toDateTime idleBucketFloorBytes) ∧
    idleFigure traffic midnight.toDateTime idleBucketFloorBytes =
      some (wholeSecondsSince eleven.instant midnight.instant) ∧
    idleFigure traffic.reverse midnight.toDateTime idleBucketFloorBytes =
      idleFigure traffic midnight.toDateTime idleBucketFloorBytes ∧
    (∃ after ≤ 46800, idleFigure (⟨noon,3000000⟩ :: traffic) midnight.toDateTime idleBucketFloorBytes = some after) ∧
    ∃ seconds ≥ 0, idleFigure traffic midnight.toDateTime idleBucketFloorBytes = some seconds := by
  obtain ⟨hread,-,hcounts,hperm,hadd,hpos⟩ := idle_figure traffic midnight.toDateTime idleBucketFloorBytes
  have hfigure : idleFigure traffic midnight.toDateTime idleBucketFloorBytes = some 46800 := by decide +kernel
  have hafter : idleFigure (⟨noon,3000000⟩ :: traffic) midnight.toDateTime idleBucketFloorBytes = some 43200 := by
    decide +kernel
  have hsteps := (networkOut region0 instance0 24 midnight.toDateTime).steps_exec clean.service (state metered)
  have hsorted : ((networkOut region0 instance0 24 midnight.toDateTime).exec clean.service (state metered)).1 =
      .ok [⟨eleven,2000000⟩,⟨noon,11751⟩] := by decide +kernel
  rw [hsorted] at hsteps
  have hbusy : CountsFrom traffic idleBucketFloorBytes eleven.instant := by
    refine .inl ⟨⟨⟨eleven,2000000⟩,by decide,by decide +kernel,rfl⟩,?_⟩
    rintro _ ⟨p,hp,hsum,rfl⟩
    rcases List.mem_pair.mp hp with rfl | rfl
    · exact absurd hsum (by decide +kernel)
    · exact le_rfl
  obtain ⟨t,ht,hunique,-,hwhole⟩ := hcounts (List.cons_ne_nil _ _)
  obtain rfl := hunique _ hbusy
  refine ⟨hread _ _ _ _ _ _ _ _ hsteps,hwhole (by decide),hperm _ (List.reverse_perm _),⟨43200,?_,hafter⟩,
    46800,hpos _ hfigure,hfigure⟩
  exact hadd _ ⟨noon,3000000⟩ _ _ _ hbusy ⟨⟨eleven,2000000⟩,by decide,by decide +kernel⟩ (by decide +kernel)
    (by decide) (List.Perm.refl _) hfigure hafter

end ShardVPN.Watchdog
