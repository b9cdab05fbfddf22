import ShardVPN.Sweep.Tags
import ShardVPN.System.Ticks

/-! # One alert a day

The stamp of an alert is the only memory of it. Along sweeps at times that never go
back, whose stamps take effect while no tag changes otherwise, two alerts about one
instance are a day apart, up to the second that the stamp rounds off.
-/
namespace ShardVPN.System
open Effect Watchdog Ec2ops Settings Time

/-- An account, the tags each instance was last seen with, and the time of the last sweep. -/
structure Watch where
  world : World
  book : Text × Text → Option (List Tag)
  time : ℤ

def Watch.start (w : World) (time : ℤ) : Watch := ⟨w,w.tagsOf,time⟩

def Tick.clock (time : ℤ) : Tick → ℤ
  | .sweep _ _ now => now.wall
  | .elapse _ => time

/-- The book keeps the tags of an instance that is gone. -/
def watched (rt : Runtime) (s : Watch) (tick : Tick) : Watch where
  world := ticked rt s.world tick
  book key := ((ticked rt s.world tick).tagsOf key).or (s.book key)
  time := tick.clock s.time

/-- A sweep is no earlier than the one before and its stamps take effect; no other tick changes a tag. -/
def Regular (rt : Runtime) (s : Watch) : Tick → Prop
  | .sweep env proc now =>
    s.time ≤ now.wall ∧ Stamped (sweepEvents rt now.toDateTime env (sweptFrom s.world proc))
  | .elapse w => ∀ key tags known, w.tagsOf key = some tags → s.book key = some known → tags = known

/-- The book holds what the world shows. -/
def Current (s : Watch) : Prop := ∀ key tags, s.world.tagsOf key = some tags → s.book key = some tags

/-- The book holds the stamp of an alert about an instance, at a time or later. -/
def Marked (key : Text × Text) (time : ℤ) (s : Watch) : Prop :=
  ∃ (alert : WallClock) (i : Instance), time ≤ alert.wall ∧ alert.wall ≤ s.time ∧ s.book key = some i.tags ∧
    tagValue i tagAlerted = some (strftime alert.toDateTime)

section
variable {rt : Runtime} {s : Watch} {key : Text × Text}

theorem current_start (w : World) (time : ℤ) : Current (.start w time) := fun _ _ h => h

theorem current_watched (tick : Tick) : Current (watched rt s tick) := by
  intro key tags h
  change ((ticked rt s.world tick).tagsOf key).or (s.book key) = some tags
  rw [show (ticked rt s.world tick).tagsOf key = some tags from h]
  rfl

theorem current_run (w : World) (time : ℤ) (ticks : List Tick) :
    Current (run (watched rt) (.start w time) ticks) := by
  induction ticks using List.reverseRecOn with
  | nil => exact current_start w time
  | append_singleton ticks tick ih =>
    rw [run_append]
    exact current_watched tick

/-- An alert marks its instance. -/
theorem marked_of_alert {env : Env} {proc : Proc} {now : WallClock}
    (hregular : Regular rt s (.sweep env proc now))
    (h : AlertsAbout rt env now.toDateTime (sweptFrom s.world proc) key) :
    Marked key now.wall (watched rt s (.sweep env proc now)) := by
  obtain ⟨n,bytes,hsome,hkey⟩ := h.seen
  have hsteps := sweepEvents_steps rt now.toDateTime env (sweptFrom s.world proc)
  rcases sweep_tags hsteps hregular.2 key with ⟨-,hother⟩ | ⟨i,htags,halert⟩
  · exact absurd hkey (hother n bytes hsome)
  · exact ⟨now,i,le_rfl,le_rfl,current_watched _ _ _ htags,halert⟩

/-- A regular tick keeps the mark. -/
theorem Marked.watched {time : ℤ} {tick : Tick} (h : Marked key time s) (hcurrent : Current s)
    (hregular : Regular rt s tick) : Marked key time (watched rt s tick) := by
  obtain ⟨alert,i,htime,hlast,hbook,halert⟩ := h
  cases tick with
  | elapse w =>
    refine ⟨alert,i,htime,hlast,?_,halert⟩
    change (w.tagsOf key).or (s.book key) = some i.tags
    cases htags : w.tagsOf key with
    | none => exact hbook
    | some tags =>
      rw [hregular key tags i.tags htags hbook]
      rfl
  | sweep env proc now =>
    have hsteps := sweepEvents_steps rt now.toDateTime env (sweptFrom s.world proc)
    rcases sweep_tags hsteps hregular.2 key with ⟨hsame,-⟩ | ⟨j,htags,hmark⟩
    · refine ⟨alert,i,htime,hlast.trans hregular.1,?_,halert⟩
      change ((ticked rt s.world (.sweep env proc now)).tagsOf key).or (s.book key) = some i.tags
      rw [show (ticked rt s.world (.sweep env proc now)).tagsOf key = s.world.tagsOf key from hsame]
      cases htags : s.world.tagsOf key with
      | none => exact hbook
      | some tags => exact (hcurrent key tags htags).symm.trans hbook
    · exact ⟨now,j,htime.trans (hlast.trans hregular.1),le_rfl,current_watched _ _ _ htags,hmark⟩

theorem Marked.run {time : ℤ} {ticks : List Tick} (h : Marked key time s) (hcurrent : Current s)
    (hregular : Along (System.watched rt) (Regular rt) s ticks) :
    Marked key time (run (System.watched rt) s ticks) := by
  have hstep : ∀ s tick, Marked key time s ∧ Current s → Regular rt s tick →
      Marked key time (System.watched rt s tick) ∧ Current (System.watched rt s tick) :=
    fun _ tick hs hok => ⟨hs.1.watched hs.2 hok,current_watched tick⟩
  exact (hregular.invariant hstep ⟨h,hcurrent⟩).1

/-- A marked instance is not alerted about within a day, less the second the stamp may have lost. -/
theorem Marked.alert {time : ℤ} {env : Env} {proc : Proc} {now : WallClock} (h : Marked key time s)
    (hcurrent : Current s) (halerts : AlertsAbout rt env now.toDateTime (sweptFrom s.world proc) key) :
    alertInterval - microsPerSecond < now.wall - time := by
  obtain ⟨alert,i,htime,-,hbook,halert⟩ := h
  obtain ⟨n,bytes,hsome,rfl⟩ := halerts.seen
  obtain ⟨hkept,hbytes⟩ := alertSeen_iff.mp hsome
  obtain ⟨-,k,start,points,-,-,-,-,hs⟩ := alertBytes_iff.mp hbytes
  have htags := (hcurrent _ _ (tagsOf_node (keptSeen_mem hkept))).symm.trans hbook
  have hstamp : tagValue n.2 tagAlerted = some (strftime alert.toDateTime) :=
    (tagValue_congr (Option.some.inj htags) tagAlerted).trans halert
  have helapsed := (shouldAlert_iff.mp hs).2.2
  rw [hstamp] at helapsed
  have hdue := helapsed alert.floorSecond (parse_strftime alert.toDateTime)
  have hmod := Nat.mod_lt alert.wall (show 0 < microsPerSecond by decide)
  have hdiv := Nat.div_add_mod alert.wall microsPerSecond
  simp only [DateTime.instant,DateTime.floorSecond,now.utc,alertInterval,microsPerSecond] at *
  omega

theorem metricRead_stored {env : Env} {before : List Event} {w : World} {now start : DateTime} {n : Node}
    {points : List Datapoint} (h : env.service.reply before w (metricRead now start n) = .ok points) :
    points = w.metrics n.1 (networkQuery n.2.instanceId start now) :=
  (Except.ok.inj (Service.reply_ok h).1).symm

/-- An alert is about a node that was launched a day ago and sent less than the stored threshold, as the source adds
it up; byte counts are added up exactly. -/
theorem alert_founded {env : Env} {proc : Proc} {w : World} {now : WallClock} {n : Node} (hn : n ∈ w.nodes)
    (h : AlertsAbout rt env now.toDateTime (sweptFrom w proc) n.key) :
    Elapsed (tagValue n.2 tagLaunched) now.toDateTime ∧ ∃ k start,
      storedThreshold rt w = some k ∧
      windowStart idleWindowHours now.toDateTime = some start ∧
      idleBytes ((w.metrics n.1 (networkQuery n.2.instanceId start now.toDateTime)).insertionSort pointLe) < k ∧
      (ByteCounts (w.metrics n.1 (networkQuery n.2.instanceId start now.toDateTime)) →
        ((w.metrics n.1 (networkQuery n.2.instanceId start now.toDateTime)).map Datapoint.sum).sum < k) := by
  obtain ⟨m,bytes,hsome,hkey⟩ := h.seen
  obtain ⟨hkept,hbytes⟩ := alertSeen_iff.mp hsome
  obtain rfl := node_unique (keptSeen_mem hkept) hn (Prod.mk.inj hkey).2
  obtain ⟨-,k,start,points,hk,hstart,hreply,rfl,hs⟩ := alertBytes_iff.mp hbytes
  obtain ⟨hlow,hlaunched,-⟩ := shouldAlert_iff.mp hs
  obtain rfl := metricRead_stored hreply
  refine ⟨hlaunched,k,start,?_,hstart,hlow,?_⟩
  · rcases thresholdSeen_cases rt env [] w with ⟨-,hstored⟩ | ⟨-,hnone⟩
    · exact hstored.symm.trans hk
    · cases hnone.symm.trans hk
  · intro hcounts
    rw [← hcounts.idleBytes]
    exact Int.cast_lt.mpr hlow

end

/-- Alerts about one instance are a day apart, less a second; an alert is founded; and below the
threshold only a launch or an alert of the last day holds one back. -/
theorem alerts_debounced (rt : Runtime) :
    (∀ w time ticks, Along (watched rt) (Regular rt) (.start w time) ticks →
      ∀ pre env₁ proc₁ now₁ mid env₂ proc₂ now₂ post key,
      ticks = pre ++ .sweep env₁ proc₁ now₁ :: (mid ++ .sweep env₂ proc₂ now₂ :: post) →
      AlertsAbout rt env₁ now₁.toDateTime (sweptFrom (run (watched rt) (.start w time) pre).world proc₁) key →
      AlertsAbout rt env₂ now₂.toDateTime (sweptFrom (run (watched rt) (.start w time)
        (pre ++ .sweep env₁ proc₁ now₁ :: mid)).world proc₂) key →
      alertInterval - microsPerSecond < (now₂.wall : ℤ) - now₁.wall) ∧
    (∀ w env proc (now : WallClock) n, n ∈ w.nodes →
      AlertsAbout rt env now.toDateTime (sweptFrom w proc) n.key →
      Elapsed (tagValue n.2 tagLaunched) now.toDateTime ∧ ∃ k start,
        storedThreshold rt w = some k ∧
        windowStart idleWindowHours now.toDateTime = some start ∧
        idleBytes ((w.metrics n.1 (networkQuery n.2.instanceId start now.toDateTime)).insertionSort pointLe) < k ∧
        (ByteCounts (w.metrics n.1 (networkQuery n.2.instanceId start now.toDateTime)) →
          ((w.metrics n.1 (networkQuery n.2.instanceId start now.toDateTime)).map Datapoint.sum).sum < k)) ∧
    ∀ w env proc (now : WallClock) n k start points, keptSeen rt env [] w now.toDateTime = some n →
      n.2.state = .running → thresholdSeen rt env [] w = some k →
      windowStart idleWindowHours now.toDateTime = some start →
      env.service.reply [] w (metricRead now.toDateTime start n) = .ok points →
      idleBytes (points.insertionSort pointLe) < k →
      (AttemptsAlert rt env now.toDateTime (sweptFrom w proc) n ↔
        Elapsed (tagValue n.2 tagLaunched) now.toDateTime ∧ Elapsed (tagValue n.2 tagAlerted) now.toDateTime) := by
  refine ⟨?_,fun w env proc now n hn h => alert_founded hn h,?_⟩
  · rintro w time ticks hrun pre env₁ proc₁ now₁ mid env₂ proc₂ now₂ post key rfl h₁ h₂
    obtain ⟨hfirst,hmid⟩ := (along_append.mp hrun).2
    have hmarked := (marked_of_alert hfirst h₁).run (current_watched _) (along_append.mp hmid).1
    rw [run_append,run_cons] at h₂
    refine hmarked.alert ?_ h₂
    rw [← run_cons,← run_append]
    exact current_run w time _
  · intro w env proc now n k start points hkept hrunning hk hstart hreply hlow
    have hdue : AttemptsAlert rt env now.toDateTime (sweptFrom w proc) n ↔
        ∃ bytes, alertSeen rt env [] w now.toDateTime = some (n,bytes) := attemptsAlert_iff hkept
    rw [hdue]
    constructor
    · rintro ⟨bytes,hsome⟩
      obtain ⟨_,_,_,_,_,_,_,_,hs⟩ := alertBytes_iff.mp (alertSeen_iff.mp hsome).2
      exact (shouldAlert_iff.mp hs).2
    · intro helapsed
      refine ⟨_,alertSeen_iff.mpr ⟨hkept,alertBytes_iff.mpr ⟨hrunning,k,start,points,hk,hstart,hreply,rfl,?_⟩⟩⟩
      exact shouldAlert_iff.mpr ⟨hlow,helapsed⟩

end ShardVPN.System

namespace ShardVPN.Plain
open ShardVPN.System ShardVPN.Watchdog

/-- A day after midnight. -/
def nextMidnight : Time.WallClock :=
  ⟨⟨63902908800000000,0,by decide,Time.DateTime.zero_utcoffset_lt⟩,rfl,by decide⟩

/-- The unused node with the stamp of its first alert. -/
def alerted : Node := alertStamp midnight (node region0 instance0 newYearsEve Ttl.never)

/-- The account a day after that alert. -/
def stillUnused : World := world (pointsTo region0 instance0) [alerted] (by decide) (by decide) (by decide)

def twoSweeps : List Tick := [.sweep clean proc midnight,.elapse stillUnused,.sweep clean proc nextMidnight]

end ShardVPN.Plain

namespace ShardVPN.System
open Effect Watchdog Time

theorem tagsOf_congr {v w : World} (h : w.instances = v.instances) (key : Text × Text) :
    w.tagsOf key = v.tagsOf key := by
  unfold World.tagsOf
  rw [h]

/-- An unused node, with no bytes sent, is alerted about at midnight and again a day later. -/
theorem alerts_debounced_daily :
    Along (watched Plain.runtime) (Regular Plain.runtime) (.start Plain.unused 0) Plain.twoSweeps ∧
      alertInterval - microsPerSecond < (Plain.nextMidnight.wall : ℤ) - Plain.midnight.wall ∧
      ∃ k start, storedThreshold Plain.runtime Plain.unused = some k ∧
        ((Plain.unused.metrics Plain.region0 (Ec2ops.networkQuery Plain.instance0 start Plain.midnight.toDateTime)).map
          Datapoint.sum).sum < k := by
  have hfirst : (∀ e ∈ sweepEvents Plain.runtime Plain.midnight.toDateTime Plain.clean
        (sweptFrom Plain.unused Plain.proc), e.effective = true) ∧
      keptSeen Plain.runtime Plain.clean [] Plain.unused Plain.midnight.toDateTime =
        some (Plain.node Plain.region0 Plain.instance0 Plain.newYearsEve Ttl.never) ∧
      (∃ e ∈ sweepEvents Plain.runtime Plain.midnight.toDateTime Plain.clean (sweptFrom Plain.unused Plain.proc),
        e.call = publishCall Plain.runtime
          (idleMessage (Plain.node Plain.region0 Plain.instance0 Plain.newYearsEve Ttl.never) 0)) ∧
      (ticked Plain.runtime Plain.unused (.sweep Plain.clean Plain.proc Plain.midnight)).instances =
        [Plain.alerted] := by decide +kernel
  have hsecond : (∀ e ∈ sweepEvents Plain.runtime Plain.nextMidnight.toDateTime Plain.clean
        (sweptFrom Plain.stillUnused Plain.proc), e.effective = true) ∧
      keptSeen Plain.runtime Plain.clean [] Plain.stillUnused Plain.nextMidnight.toDateTime = some Plain.alerted ∧
      ∃ e ∈ sweepEvents Plain.runtime Plain.nextMidnight.toDateTime Plain.clean
        (sweptFrom Plain.stillUnused Plain.proc),
        e.call = publishCall Plain.runtime (idleMessage Plain.alerted 0) := by decide +kernel
  obtain ⟨hstamped₁,hkept₁,hpublished₁,hinstances⟩ := hfirst
  obtain ⟨hstamped₂,hkept₂,hpublished₂⟩ := hsecond
  have hrun : Along (watched Plain.runtime) (Regular Plain.runtime) (.start Plain.unused 0) Plain.twoSweeps := by
    refine ⟨⟨Int.natCast_nonneg _,fun e he _ _ _ _ => hstamped₁ e he⟩,?_,
      ⟨?_,fun e he _ _ _ _ => hstamped₂ e he⟩,trivial⟩
    · intro key tags known htags hknown
      have hbook : (watched Plain.runtime (.start Plain.unused 0)
          (.sweep Plain.clean Plain.proc Plain.midnight)).book key = some tags :=
        current_watched _ key tags ((tagsOf_congr hinstances key).trans htags)
      exact Option.some.inj (hbook.symm.trans hknown)
    · apply Int.ofNat_le.mpr
      show Plain.midnight.wall ≤ Plain.nextMidnight.wall
      decide
  have halerts : AlertsAbout Plain.runtime Plain.clean Plain.midnight.toDateTime (sweptFrom Plain.unused Plain.proc)
      (Plain.region0,Plain.instance0) := ⟨_,0,hkept₁,rfl,hpublished₁⟩
  have hnode : Plain.node Plain.region0 Plain.instance0 Plain.newYearsEve Ttl.never ∈ Plain.unused.nodes :=
    keptSeen_mem hkept₁
  obtain ⟨-,k,start,hk,-,-,hbytes⟩ := (alerts_debounced Plain.runtime).2.1 Plain.unused Plain.clean Plain.proc
    Plain.midnight _ hnode halerts
  have hnothing : ByteCounts [] := ⟨fun p hp => (by cases hp),by norm_num⟩
  refine ⟨hrun,?_,k,start,hk,hbytes hnothing⟩
  exact (alerts_debounced Plain.runtime).1 Plain.unused 0 _ hrun [] _ _ _ [.elapse Plain.stillUnused] _ _ _ []
    (Plain.region0,Plain.instance0) rfl halerts ⟨_,0,hkept₂,rfl,hpublished₂⟩

end ShardVPN.System
