import ShardVPN.Effect.Runs
import ShardVPN.Sweep.Isolation
import ShardVPN.Sweep.Stamps

/-! # Runs of sweeps

Every hour the sweep meets the account as it has become, with failures of its own.
Between two sweeps anything may happen to the account.
-/
namespace ShardVPN.System
open Effect Watchdog Time

inductive Tick
  | sweep (env : Env) (proc : Proc) (now : WallClock)
  | elapse (w : World)

def sweptFrom (w : World) (proc : Proc) : State := ⟨w,proc,[]⟩

/-- The account after a tick. -/
def ticked (rt : Runtime) (w : World) : Tick → World
  | .sweep env proc now => ((sweep rt now.toDateTime).exec env.service (sweptFrom w proc)).2.world
  | .elapse w => w

/-- A sweep marks an alert as sent only if it was sent. -/
def MarksAlerts (rt : Runtime) (w : World) : Tick → Prop
  | .sweep env proc now => MarksTruly rt (sweepSummary rt now.toDateTime env (sweptFrom w proc))
      (sweepEvents rt now.toDateTime env (sweptFrom w proc))
  | .elapse _ => True

/-- If a sweep is to mark an alert, there is a topic and SNS accepts the message. -/
def AlertsHeard (rt : Runtime) (w : World) : Tick → Prop
  | .sweep env _ now => Heard rt env [] w now.toDateTime
  | .elapse _ => True

theorem marksAlerts_iff {rt : Runtime} {w : World} (tick : Tick) :
    MarksAlerts rt w tick ↔ AlertsHeard rt w tick := by
  cases tick with
  | sweep env proc now =>
    have h := marksTruly_iff (sweepEvents_steps rt now.toDateTime env (sweptFrom w proc))
    exact h
  | elapse w => exact Iff.rfl

/-- In every run, each sweep marks an alert as sent only if it was sent exactly when each message
that is followed by a stamp is accepted. -/
theorem alerts_marked_iff (rt : Runtime) (w : World) (ticks : List Tick) :
    Along (ticked rt) (MarksAlerts rt) w ticks ↔ Along (ticked rt) (AlertsHeard rt) w ticks :=
  ⟨.mono fun _ tick => (marksAlerts_iff tick).mp,.mono fun _ tick => (marksAlerts_iff tick).mpr⟩

end ShardVPN.System

namespace ShardVPN.Plain
open ShardVPN.System

/-- One tracked node that has run for a day without a datapoint. -/
def unused : World := world (pointsTo region0 instance0) [node region0 instance0 newYearsEve Ttl.never]
  (by decide) (by decide) (by decide)

end ShardVPN.Plain

namespace ShardVPN.System
open Effect Watchdog Time

/-- SNS refuses the idle message, and the node is stamped all the same. -/
theorem alerts_marked_unheard : ¬Along (ticked Plain.runtime) (MarksAlerts Plain.runtime) Plain.unused
    [.sweep (Plain.refuse Call.notifies) Plain.proc Plain.midnight] := by
  have hfacts : Plain.instance0 ∈ (sweepSummary Plain.runtime Plain.midnight.toDateTime
      (Plain.refuse Call.notifies) (sweptFrom Plain.unused Plain.proc)).alerted ∧
      ∀ e ∈ sweepEvents Plain.runtime Plain.midnight.toDateTime (Plain.refuse Call.notifies)
        (sweptFrom Plain.unused Plain.proc), e.effective = true → e.call.notifies = false := by decide +kernel
  rintro ⟨hmarks,-⟩
  obtain ⟨region,e,he,heffective,n,bytes,-,hc⟩ := hmarks.listed _ hfacts.1
  have hquiet := hfacts.2 e he heffective
  rw [hc] at hquiet
  cases hquiet

end ShardVPN.System
