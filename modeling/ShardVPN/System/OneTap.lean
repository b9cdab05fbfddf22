import ShardVPN.System.Tap

/-! # One tap launches one node

A tap that goes up makes at most four attempts, and together they launch at most one
node, in the region that the phone names or in the default, although answers get lost
and sweeps run in between, as long as no node of that region goes away meanwhile.
-/
namespace ShardVPN.Phone
open Effect Settings Handler Script ShardVPN.System

/-! ## What calls launch in a region -/

/-- The calls launch nothing, or one node in the region, which had none and keeps it. -/
inductive Launched (region : Text) (v w : World) (es : List Event) : Prop
  | none : launches es = [] → (v.nodesIn region ≠ [] → w.nodesIn region ≠ []) → Launched region v w es
  | one {e : Event} {request : RunInstances} : launches es = [e] → e.call = .runInstances region request →
      v.nodesIn region = [] → w.nodesIn region ≠ [] → Launched region v w es

theorem Launched.refl (region : Text) (w : World) : Launched region w w [] := .none rfl id

theorem Launched.trans {region : Text} {u v w : World} {xs ys : List Event} (h : Launched region u v xs)
    (k : Launched region v w ys) : Launched region u w (xs ++ ys) := by
  rcases h with ⟨hnil,hkept⟩ | ⟨hone,hcall,hbefore,hafter⟩ <;> rcases k with ⟨knil,kkept⟩ | ⟨kone,kcall,kbefore,kafter⟩
  · exact .none (by rw [launches_append,hnil,knil]; rfl) (kkept ∘ hkept)
  · refine .one (by rw [launches_append,hnil,kone]; rfl) kcall ?_ kafter
    by_contra hne
    exact hkept hne kbefore
  · exact .one (by rw [launches_append,hone,knil]; rfl) hcall hbefore (kkept hafter)
  · exact absurd kbefore hafter

theorem launches_call {es : List Event} {e : Event} (h : e ∈ launches es) : e ∈ es ∧ e.call.runs = true := by
  obtain ⟨he,hruns⟩ := List.mem_filter.mp h
  exact ⟨he,(Bool.and_eq_true_iff.mp hruns).2⟩

section
variable {rt : Runtime} {region target : Text} {w : World}

/-- What a request to go up launches, it launches in the region that it resolves to. -/
theorem upRun_target {env : Env} {body : Dict} {r : Except Exn Response} {es : List Event}
    (h : UpRun rt env body w r es) (hr : Resolves rt w body target) {e : Event} (he : e ∈ es)
    (hruns : e.call.runs = true) : ∃ request, e.call = .runInstances target request := by
  have hquiet : ∀ {es : List Event}, (∀ e ∈ es, e.call.quiet = true) → e ∉ es := fun hes hmem => by
    rw [Call.quiet_runs (hes e hmem)] at hruns
    cases hruns
  have hwrite : ∀ {f : Event} {p : Option Pointer}, f.call = pointerWrite rt p → e ≠ f := by
    rintro f p hf rfl
    rw [hf] at hruns
    cases hruns
  have htarget : ∀ {region'}, Target rt body w region' → region' = target := fun ht =>
    Json.str.inj (Option.some.inj (ht.resolves.symm.trans hr))
  cases h with
  | tracked hes _ _ _ _ => exact absurd he (hquiet hes)
  | declined hes _ => exact absurd he (hquiet hes)
  | recovered _ _ hxs hcall hys _ _ =>
    rcases List.mem_append.mp he with he | he
    · exact absurd he (hquiet hxs)
    rcases List.mem_cons.mp he with he | he
    · exact absurd he (hwrite hcall)
    · exact absurd he (hquiet hys)
  | failed ht _ hxs hcall _ _ =>
    rcases List.mem_append.mp he with he | he
    · exact absurd he (hquiet hxs)
    · rw [List.mem_singleton.mp he,hcall,htarget ht]
      exact ⟨_,rfl⟩
  | launched ht _ hxs _ hcall _ _ =>
    rcases List.mem_append.mp he with he | he
    · exact absurd he (hquiet hxs)
    rcases List.mem_pair.mp he with rfl | he
    · rw [htarget ht]
      exact ⟨_,rfl⟩
    · exact absurd he (hwrite hcall)

/-- So does an invocation that asks for it. -/
theorem invocation_target {i : Invocation} (hcontext : i.event.get (text "requestContext") ≠ none) {body : Dict}
    (hbody : requestBody i.event = some body) (hup : asksUp body) (hr : Resolves rt w body target) {e : Event}
    (he : e ∈ i.events rt w) (hruns : e.call.runs = true) : ∃ request, e.call = .runInstances target request := by
  have hreads : ∀ {es : List Event}, (∀ e ∈ es, e.call.reads = true) → e ∉ es := fun hes hmem => by
    rw [Call.quiet_runs (Call.quiet_of_reads (hes e hmem))] at hruns
    cases hruns
  have hhandled := i.handled rt w
  generalize i.events rt w = es at he hhandled
  generalize i.reply rt w = r at hhandled
  cases hhandled with
  | swept hnone _ _ => exact absurd hnone hcontext
  | refused hes _ => exact absurd he (hreads hes)
  | @performed body' v u t xs ys hbody' hxs hu hperform =>
    obtain rfl : body = body' := Option.some.inj (hbody.symm.trans hbody')
    rcases List.mem_append.mp he with he | he
    · exact absurd he (hreads hxs)
    rw [perform_up hup] at hperform
    have hrun := up_cases hperform
    rw [hu] at hrun
    exact upRun_target hrun hr he hruns

/-! ## Where a tap goes up -/

/-- The region the phone names, or the default. -/
def Aims (rt : Runtime) (region : Option Text) (w : World) (target : Text) : Prop :=
  (region.filter (· ≠ [])).or (w.parameters rt.controlRegion ParamName.defaultRegion.path) = some target

/-- It is the region that the server resolves the request to. -/
theorem Aims.resolves {named : Option Text} (h : Aims rt named w target) (action : Text) :
    Resolves rt w (asked action named) target := by
  unfold Resolves requestedValue
  unfold Aims at h
  rw [asked_region]
  cases hnamed : named.filter (· ≠ []) with
  | none =>
    rw [hnamed,Option.none_or] at h
    exact congrArg (Option.map Json.str) h
  | some r =>
    have hne : r ≠ [] := of_decide_eq_true (Option.mem_filter_iff.mp hnamed).2
    rw [hnamed,Option.some_or] at h
    rw [Option.map_some,Option.filter_some,if_pos (by simpa [Json.truthy] using hne)]
    exact congrArg (Option.map Json.str) h

theorem Aims.of_default {named : Option Text} {v : World} (h : Aims rt named v target)
    (hdefault : w.parameters rt.controlRegion ParamName.defaultRegion.path =
      v.parameters rt.controlRegion ParamName.defaultRegion.path) : Aims rt named w target := by
  unfold Aims
  rw [hdefault]
  exact h

/-- A step of the account that is no request, takes no node out of the region, and changes the default region
only for a phone that names one. -/
structure Calm (rt : Runtime) (named : Option Text) (target : Text) (w : World) (l : Label) : Prop where
  sweeps : ∀ i, l = .invoke i → i.Sweeps
  default : ∀ value, l = .setDefault .region value → named.filter (· ≠ []) ≠ none
  keeps : w.nodesIn target ≠ [] → (after rt w l).nodesIn target ≠ []

/-- What can happen while a tap goes up in a region. -/
def Steady (rt : Runtime) (tap : Tap) (target : Text) (s : Session) (m : Move) : Prop :=
  Genuine rt tap s m ∧ ∀ l, m = .account l → Calm rt tap.region target s.world l

theorem Calm.launched {named : Option Text} {l : Label} (h : Calm rt named target w l) :
    Launched target w (after rt w l) (calls rt w l) := by
  refine .none ?_ h.keeps
  cases l with
  | invoke i =>
    obtain ⟨u,t,summary,-,hsweep⟩ := (h.sweeps i rfl).steps rt w
    refine List.filter_eq_nil_iff.mpr fun e he hruns => ?_
    rw [sweep_launchless _ hsweep e he,Bool.and_false] at hruns
    cases hruns
  | _ => rfl

theorem Calm.aims {named : Option Text} {l : Label} (h : Calm rt named target w l) (hw : Aims rt named w target) :
    Aims rt named (after rt w l) target := by
  cases l with
  | invoke i => exact hw.of_default (i.parameter_kept w (by decide))
  | setDefault d value =>
    cases d with
    | region =>
      obtain ⟨r,hr⟩ := Option.ne_none_iff_exists'.mp (h.default value rfl)
      unfold Aims at hw ⊢
      rwa [hr] at hw ⊢
    | ttl =>
      refine hw.of_default ?_
      have hpath : ParamName.defaultRegion.path ≠ Default.ttl.name.path := by decide
      simp [after,World.setParameter,hpath]
  | nodeEnds instanceId => exact hw
  | nodeBoots instanceId publicIp => exact hw

end

section
variable {rt : Runtime} {tap : Tap} {target : Text} {s : Session} {ms : List Move}

/-- One move launches nothing, or one node where none was. -/
theorem move_launched (hup : tap.action = text "up") {m : Move} (h : Steady rt tap target s m)
    (hs : Aims rt tap.region s.world target) :
    Launched target s.world (moved rt tap s m).world (callsOf rt s m) := by
  cases m with
  | account l => exact (h.2 l rfl).launched
  | missed outcome => exact .refl target s.world
  | served dateNow i outcome =>
    obtain ⟨⟨-,-,hcontext,hdelivered,-⟩,-⟩ := h
    have hbody := requestBody_delivered tap.action_scalar tap.region_scalar hdelivered
    have hasks : asksUp (asked tap.action tap.region) := by
      rw [asksUp,asked_action,hup]
    have hresolves := hs.resolves tap.action
    rcases step_launches (l := .invoke i) ⟨hcontext,_,hbody,hasks,hresolves⟩ with ⟨hnil,hkeys⟩ | ⟨hone,hbefore,hafter⟩
    · refine .none hnil ?_
      rw [nodesIn_ne_nil,nodesIn_ne_nil]
      exact fun h => hkeys ▸ h
    · rename_i e
      obtain ⟨he,hruns⟩ := launches_call (hone ▸ List.mem_singleton_self e : e ∈ launches _)
      obtain ⟨request,hcall⟩ := invocation_target hcontext hbody hasks hresolves he hruns
      exact .one hone hcall hbefore hafter

theorem move_aims {m : Move} (h : Steady rt tap target s m) (hs : Aims rt tap.region s.world target) :
    Aims rt tap.region (moved rt tap s m).world target := by
  cases m with
  | account l => exact (h.2 l rfl).aims hs
  | missed outcome => exact hs
  | served dateNow i outcome => exact hs.of_default (i.parameter_kept s.world (by decide))

theorem run_launched (hup : tap.action = text "up") (h : Along (moved rt tap) (Steady rt tap target) s ms)
    (hs : Aims rt tap.region s.world target) :
    Launched target s.world (run (moved rt tap) s ms).world (emitted (moved rt tap) (callsOf rt) s ms) := by
  induction ms generalizing s with
  | nil => exact .refl target s.world
  | cons m ms ih => exact (move_launched hup h.1 hs).trans (ih h.2 (move_aims h.1 hs))

end

/-- A tap that goes up makes at most four attempts and launches at most one node, where none was. -/
theorem tap_launches_once (rt : Runtime) (tap : Tap) (w : World) (ms : List Move) (target : Text)
    (hup : tap.action = text "up") (htarget : Aims rt tap.region w target)
    (h : Along (moved rt tap) (Steady rt tap target) ⟨w,.trying 0 none⟩ ms) :
    (outcomes ms).length ≤ maxAttempts ∧ Launched target w (run (moved rt tap) ⟨w,.trying 0 none⟩ ms).world
      (emitted (moved rt tap) (callsOf rt) ⟨w,.trying 0 none⟩ ms) := by
  refine ⟨?_,run_launched hup h htarget⟩
  exact (Nat.le_add_right _ _).trans (outcomes_length (h.mono fun _ _ => And.left))

def upTap : Tap := ⟨plainEngine,Plain.secret,text "up",none,plain_secret_scalar,by decide,none_scalar⟩

def askUp : Invocation := ⟨Plain.clean,Plain.proc,[],midnightEvent (text "up") none⟩

/-- Two answers get lost, and in between the node of the first attempt boots. -/
def upMoves : List Move := [.served 1767225600999 askUp (.raised (text "Error: timed out")),
  .account (.nodeBoots (Plain.longerId Plain.empty) none),
  .served 1767225600999 askUp (.raised (text "Error: timed out"))]

theorem tap_launches_once_lost : (outcomes upMoves).length ≤ maxAttempts ∧
    Launched Plain.region0 Plain.empty (run (moved standard upTap) ⟨Plain.empty,.trying 0 none⟩ upMoves).world
      (emitted (moved standard upTap) (callsOf standard) ⟨Plain.empty,.trying 0 none⟩ upMoves) := by
  have hserved : ∀ {s : Session}, s.phase.Waiting → Steady standard upTap Plain.region0 s
      (.served 1767225600999 askUp (.raised (text "Error: timed out"))) := fun hwaiting =>
    ⟨⟨hwaiting,by decide,by rintro ⟨⟩,midnightEvent_delivered _ _,.lost _⟩,by rintro l ⟨⟩⟩
  refine tap_launches_once standard upTap Plain.empty upMoves Plain.region0 rfl (by unfold Aims; decide +kernel) ?_
  refine ⟨hserved ⟨0,none,rfl,by decide⟩,⟨by rintro _ ⟨⟩,?_⟩,hserved ⟨1,_,rfl,by decide⟩,trivial⟩
  rintro l ⟨⟩
  refine ⟨by rintro i ⟨⟩,by rintro v ⟨⟩,?_⟩
  rw [nodesIn_ne_nil,nodesIn_ne_nil,keys_nodeBoots]
  exact id

end ShardVPN.Phone
