import ShardVPN.System.Evolution
import ShardVPN.System.Slot

/-! # Recovery from any failures

In every run from a fresh deployment, whatever fails, every node was launched in an
enumerated region with a readable launch time, and the pointer is empty or names an
instance on record. In such a world a sweep whose calls succeed leaves one node at
most and the pointer to it, and from then on the account is again the slot that it is
when nothing fails.
-/
namespace ShardVPN.System
open Effect Time Ec2ops Settings Handler Watchdog

/-- The nodes on record can be ordered, and the pointer misplaces none of them. -/
structure Sound (rt : Runtime) (w : World) : Prop where
  placed : ∀ n ∈ w.instances, hasRole n.2 = true → n.1 ∈ w.regions
  dated : ∀ n ∈ w.instances, hasRole n.2 = true → launchTime n ≠ none
  pointed : storedPointer rt w = .ok none ∨
    ∃ n ∈ w.instances, hasRole n.2 = true ∧ storedPointer rt w = .ok (some (pointerTo n))

variable {rt : Runtime} {v w : World}

theorem Ages.launchTime {m n : Node} (h : Ages m n) : launchTime n = launchTime m := by
  unfold Watchdog.launchTime
  rw [h.tags tagLaunched (by decide)]

theorem Launch.launchTime {l : Launch} {i : Instance} (h : i.tags = l.tags) : launchTime (l.region,i) ≠ none := by
  have howns : (⟨l.region,l.suffix,l.ttl,l.now,l.expiresAt,i.instanceId,l.parsed⟩ : Launch).Owns i := ⟨rfl,h⟩
  unfold Watchdog.launchTime
  rw [howns.launched,Option.bind_some,l.now.rfc3339.2]
  exact Option.some_ne_none _

/-- What was on record with the role still is. -/
theorem Evolves.registered (h : Evolves v w) {key : Text × Text} (hv : Registered v key) : Registered w key := by
  obtain ⟨n,hn,hkey,hrole⟩ := hv
  cases h with
  | aged f hf hw =>
    refine ⟨f n,?_,(hf n).key.trans hkey,(hf n).role.trans hrole⟩
    rw [hw]
    exact List.mem_map_of_mem hn
  | launched l i _ _ _ _ hw =>
    refine ⟨n,?_,hkey,hrole⟩
    rw [hw]
    exact List.mem_append_left _ hn

/-- Every instance with the role is an earlier one or was launched. -/
theorem Evolves.origin (h : Evolves v w) {n : Node} (hn : n ∈ w.instances) :
    (∃ m ∈ v.instances, Ages m n) ∨ ∃ l : Launch, l.region ∈ v.regions ∧ n.1 = l.region ∧ n.2.tags = l.tags := by
  cases h with
  | aged f hf hw =>
    rw [hw] at hn
    obtain ⟨m,hm,rfl⟩ := List.mem_map.mp hn
    exact Or.inl ⟨m,hm,hf m⟩
  | launched l i hvalid _ htags _ hw =>
    rw [hw] at hn
    rcases List.mem_append.mp hn with hn | hn
    · exact Or.inl ⟨n,hn,.refl n⟩
    · obtain rfl := List.mem_singleton.mp hn
      exact Or.inr ⟨l,hvalid,rfl,htags⟩

/-- The account stays sound when the pointer does. -/
theorem Sound.evolve (hv : Sound rt v) (h : Evolves v w) (hregions : w.regions = v.regions)
    (hpointer : storedPointer rt w = storedPointer rt v ∨ storedPointer rt w = .ok none ∨
      ∃ n ∈ v.instances, hasRole n.2 = true ∧ storedPointer rt w = .ok (some (pointerTo n))) : Sound rt w where
  placed n hn hrole := by
    rw [hregions]
    rcases h.origin hn with ⟨m,hm,hages⟩ | ⟨l,hvalid,hl,-⟩
    · rw [hages.region]
      exact hv.placed m hm (hages.role ▸ hrole)
    · rwa [hl]
  dated n hn hrole := by
    rcases h.origin hn with ⟨m,hm,hages⟩ | ⟨l,-,hl,htags⟩
    · rw [hages.launchTime]
      exact hv.dated m hm (hages.role ▸ hrole)
    · obtain ⟨region,i⟩ := n
      obtain rfl : region = l.region := hl
      exact Launch.launchTime htags
  pointed := by
    have hlasts : ∀ n ∈ v.instances, hasRole n.2 = true → storedPointer rt w = .ok (some (pointerTo n)) →
        ∃ m ∈ w.instances, hasRole m.2 = true ∧ storedPointer rt w = .ok (some (pointerTo m)) := by
      intro n hn hrole hstored
      obtain ⟨m,hm,hkey,hmrole⟩ := h.registered ⟨n,hn,rfl,hrole⟩
      exact ⟨m,hm,hmrole,hstored.trans (by rw [pointerTo_of_key hkey])⟩
    rcases hpointer with hsame | hnone | ⟨n,hn,hrole,hstored⟩
    · rcases hv.pointed with hnone | ⟨n,hn,hrole,hstored⟩
      · exact Or.inl (hsame.trans hnone)
      · exact Or.inr (hlasts n hn hrole (hsame.trans hstored))
    · exact Or.inl hnone
    · exact Or.inr (hlasts n hn hrole hstored)

theorem storedPointer_congr (h : w.parameters = v.parameters) : storedPointer rt w = storedPointer rt v := by
  unfold storedPointer
  rw [h]

/-- Whatever fails, a sound account stays sound. -/
theorem sound_lasting (rt : Runtime) : Lasting rt (Sound rt) where
  call env w c hw hc := by
    refine hw.evolve (evolves_effect env hc) (env.effect_regions c w) ?_
    cases hc with
    | point hn hrole =>
      rename_i n
      refine Or.inr (Or.inr ⟨n,hn,hrole,(storedPointer_write env rt _ w).trans ?_⟩)
      exact decode_pointerTo (w.regions_scalar _ (hw.placed n hn hrole)) (w.ids_scalar n hn)
    | clear => exact Or.inr (Or.inl (storedPointer_write env rt none w))
    | _ => exact Or.inl (storedPointer_congr rfl)
  outside w l hw hl := by
    refine hw.evolve (evolves_outside hl) ?_ (Or.inl ?_)
    · cases l with
      | invoke i => exact absurd rfl (hl i)
      | _ => rfl
    · cases l with
      | invoke i => exact absurd rfl (hl i)
      | setDefault d value => exact storedPointer_setDefault w d value
      | _ => rfl

/-- A sound account can be repaired at any time. -/
theorem Sound.repairable (hw : Sound rt w) (now : DateTime) : Repairable rt now w where
  enumerated n hn := by
    obtain ⟨hmem,hnode⟩ := List.mem_filter.mp hn
    exact hw.placed n hmem (Bool.and_eq_true_iff.mp hnode).1
  launches _ n hn := by
    obtain ⟨hmem,hnode⟩ := List.mem_filter.mp (List.mem_filter.mp hn).1
    exact hw.dated n hmem (Bool.and_eq_true_iff.mp hnode).1
  readable := by
    rcases hw.pointed with hp | ⟨n,-,-,hp⟩
    · exact ⟨none,hp⟩
    · exact ⟨_,hp⟩
  consistent p hp n hn hid := by
    rcases hw.pointed with hnone | ⟨m,hm,-,hm'⟩
    · rw [hnone] at hp
      cases hp
    · rw [hm'] at hp
      cases hp
      have hmn : m = n := List.inj_on_of_nodup_map w.ids_nodup hm (List.mem_filter.mp hn).1 (Json.str.inj hid)
      rw [← hmn]
      rfl

/-- What a clean sweep of a sound account leaves is the slot. -/
theorem Sound.swept {now : DateTime} {kept : Option Node} (hw : Sound rt w)
    (h : Repaired rt now v w kept) : Represents rt w (kept.map Node.key) where
  nodes := by
    rw [h.nodes]
    cases kept <;> rfl
  enumerated k hk := by
    obtain ⟨n,hn,rfl⟩ := Option.mem_map.mp hk
    refine (hw.repairable now).enumerated n ?_
    rw [h.nodes]
    exact Option.mem_toList.mpr hn
  pointer := by
    refine ⟨_,h.pointer,?_⟩
    intro k hk
    obtain ⟨n,hn,rfl⟩ := Option.mem_map.mp hk
    rw [hn]
    rfl

/-- The first reading of the clock. -/
def Invocation.time (i : Invocation) : WallClock := i.proc.clock i.proc.ticks

/-- A scheduled event starts a sweep. -/
def Invocation.Sweeps (i : Invocation) : Prop := i.event.get (text "requestContext") = none

/-- Such an invocation is one sweep, at the time of the clock. -/
theorem Invocation.Sweeps.steps {i : Invocation} (h : i.Sweeps) (rt : Runtime) (w : World) :
    ∃ (u t : State) (summary : Summary), u.world = w ∧
      Steps i.env.service (sweep rt i.time.toDateTime) u (.ok summary) (i.events rt w) t := by
  have hsteps : Steps i.env.service (lambdaHandler rt i.requestId i.event) (i.start w) _ (i.events rt w) _ := i.steps w
  unfold lambdaHandler at hsteps
  rw [h] at hsteps
  rcases hsteps.bind_cases with ⟨now,u,xs,ys,h1,h2,hes⟩ | ⟨x,h1,-⟩
  · obtain ⟨hnow,rfl,hu⟩ := now_reply h1
    obtain rfl := Except.ok.inj hnow
    obtain ⟨summary,t,xs,zs,h3,h4,rfl⟩ := h2.bind_lifted
    obtain ⟨-,rfl,-⟩ := Steps.pure_iff.mp h4
    refine ⟨u,t,summary,?_,?_⟩
    · rw [hu]
      rfl
    · rw [hes,List.nil_append,List.append_nil]
      exact h3
  · cases (now_reply h1).1

/-- A sweep whose calls succeed brings a sound account back into the slot. -/
theorem Sound.recovers (hv : Sound rt v) {i : Invocation} (hsweep : i.Sweeps)
    (hclean : Succeeds rt v (.invoke i)) : ∃ slot, Represents rt (after rt v (.invoke i)) slot := by
  obtain ⟨u,t,summary,hu,h⟩ := hsweep.steps rt v
  subst hu
  obtain ⟨kept,hkept,-⟩ := sweep_repaired h hclean (hv.repairable _)
  have hafter : after rt u.world (.invoke i) = t.world := by
    change i.after rt u.world = t.world
    rw [i.after_eq,h.world]
  rw [hafter]
  refine ⟨_,Sound.swept ?_ hkept⟩
  rw [← hafter]
  exact (sound_lasting rt).step _ hv

/-- After any failures, one sweep whose calls succeed restores the account: then, and as long as
nothing fails, the pointer names the only live node there is, and every success tells the truth. -/
theorem sweep_recovers (rt : Runtime) (w : World) (ls ms : List Label) (i : Invocation)
    (hfresh : ∀ n ∈ w.instances, hasRole n.2 = false) (hpointer : storedPointer rt w = .ok none)
    (hsweep : i.Sweeps) (hclean : Along (after rt) (Succeeds rt) (run (after rt) w ls) (.invoke i :: ms)) :
    OneNode rt (run (after rt) w (ls ++ .invoke i :: ms)) ∧
      Along (after rt) (Truthful rt) (run (after rt) w (ls ++ [.invoke i])) ms := by
  have hsound : Sound rt w := by
    refine ⟨fun n hn hrole => ?_,fun n hn hrole => ?_,Or.inl hpointer⟩ <;>
    · rw [hfresh n hn] at hrole
      cases hrole
  obtain ⟨slot,hslot⟩ := ((sound_lasting rt).run ls hsound).recovers hsweep hclean.1
  rw [run_append,run_append]
  constructor
  · obtain ⟨b,-,hb⟩ := run_represents hclean.2 hslot
    exact ⟨hb.atMostOne,fun n hn => hb.pointsTo hn⟩
  · rw [along_iff]
    rintro pre l post rfl
    obtain ⟨hpre,hl,-⟩ := along_append.mp hclean.2
    obtain ⟨b,-,hb⟩ := run_represents hpre hslot
    exact hb.truthful hl

/-- Two requests that cannot write the pointer. -/
def untrackedUps : List Label := [Plain.invoke Plain.unwritable Plain.upText,Plain.invoke Plain.unwritable Plain.upEastText]

/-- Two nodes that nothing tracks, a sweep, and a request to go down. -/
theorem sweep_recovers_plain : OneNode Plain.runtime (run (after Plain.runtime) Plain.empty
    (untrackedUps ++ .invoke ⟨Plain.clean,Plain.proc,[],[]⟩ :: [Plain.invoke Plain.clean Plain.downText])) := by
  have hclean : Along (after Plain.runtime) (Succeeds Plain.runtime) (run (after Plain.runtime) Plain.empty untrackedUps)
      (.invoke ⟨Plain.clean,Plain.proc,[],[]⟩ :: [Plain.invoke Plain.clean Plain.downText]) := by
    refine ⟨?_,?_,trivial⟩
    · change ∀ e ∈ Invocation.events Plain.runtime _ _, e.succeeded = true
      decide +kernel
    · change ∀ e ∈ Invocation.events Plain.runtime _ _, e.succeeded = true
      decide +kernel
  have hfresh : ∀ n ∈ Plain.empty.instances, hasRole n.2 = false := fun n hn => by cases hn
  exact (sweep_recovers Plain.runtime Plain.empty untrackedUps [Plain.invoke Plain.clean Plain.downText]
    ⟨Plain.clean,Plain.proc,[],[]⟩ hfresh (by decide +kernel) rfl hclean).1

end ShardVPN.System
