import ShardVPN.Request.Entry
import ShardVPN.Sweep.Scan

/-! # The record a failing `down` leaves

Where a failing call has no effect, a request to go down clears the pointer as its last
call, once the region of the pointer has been scanned and every node the scan returned
has been terminated. Whatever fails before leaves the pointer as it was.
-/
namespace ShardVPN.Handler
open Effect Ec2ops Settings

/-- A failing call has no effect. -/
def Atomic (env : Env) : Prop := ∀ c n e, env.fault c n ≠ .lost e

/-- The text the pointer is stored under. -/
def pointerText (rt : Runtime) (w : World) : Option Text := w.parameters rt.controlRegion ParamName.currentNode.path

/-- After some reads a region was scanned, and every node the scan returned was terminated. -/
def Emptied (env : Env) (s : State) (region : Text) (es : List Event) : Prop :=
  ∃ xs reservations, (∀ e ∈ xs, e.call.reads = true) ∧
    env.service.reply (s.trace ++ xs) s.world (Watchdog.scanCall region) = .ok reservations ∧
    es = xs ++ ⟨Watchdog.scanCall region,none,true⟩ :: reservations.flatten.map (terminateEvent region)

/-- The calls of a request to go down: reads, terminates and at last the write of the pointer. -/
inductive DownCalls (rt : Runtime) (env : Env) (s : State) (pointer : Option Pointer) :
    Except Exn Response → List Event → Prop
  | unread {x : Exn} {es : List Event} : (∀ e ∈ es, e.call.reads = true) → DownCalls rt env s pointer (.error x) es
  | stopped {x : Exn} {e : ServiceError} {c : Call} {region : Text} {done : List Instance} {xs : List Event} :
      (∀ e ∈ xs, e.call.reads = true) → c.onlyRemoves = true →
      DownCalls rt env s pointer (.error x) (xs ++ (done.map (terminateEvent region) ++ [⟨c,some e,false⟩]))
  | untracked {region : Text} {es : List Event} : pointer = none → Emptied env s region es →
      DownCalls rt env s pointer (.ok (respond 200 Statusdoc.absent)) es
  | cleared {p : Pointer} {region : Text} {es : List Event} : pointer = some p →
      clientRegion rt p.region = .ok region → Emptied env s region es →
      DownCalls rt env s pointer (.ok (respond 200 Statusdoc.absent)) (es ++ [⟨pointerWrite rt none,none,true⟩])

/-- What a request to go down leaves of the pointer, and what its response promises. -/
structure KeepsTrack (rt : Runtime) (env : Env) (s t : State) (pointer : Option Pointer) (response : Response)
    (es : List Event) : Prop where
  cleared : pointerText rt t.world = pointerText rt s.world ∨ pointerText rt t.world = some empty ∧
    ∃ p region pre, pointer = some p ∧ clientRegion rt p.region = .ok region ∧ Emptied env s region pre ∧
      es = pre ++ [⟨pointerWrite rt none,none,true⟩]
  served : response.statusCode = 200 → ∀ e ∈ es, e.call.reads = false → e.succeeded = true
  failed : response.statusCode ≠ 200 → response.statusCode / 100 = 5 ∧ pointerText rt t.world = pointerText rt s.world

section
variable {rt : Runtime} {env : Env} {s t : State} {es : List Event}

theorem Atomic.failure (h : Atomic env) {c : Call} {n : ℕ} {w : World} {e : ServiceError} {b : Bool}
    (hf : Failure env.service c n w e b) : b = false := by
  cases hf with
  | rejected _ _ => rfl
  | refused _ => rfl
  | lost hf => exact absurd hf (h c n e)

/-- Where failures have no effect a call succeeds with its reply or leaves nothing behind. -/
theorem Atomic.call_cases (h : Atomic env) {c : Call} {r : Except Exn (Resp c)}
    (hs : Steps env.service (Program.call c) s r es t) :
    (∃ a, r = .ok a ∧ es = [⟨c,none,true⟩] ∧ env.service.reply s.trace s.world c = .ok a) ∨
      ∃ e, r = .error (.service e) ∧ es = [⟨c,some e,false⟩] := by
  obtain ⟨-,⟨a,hr,he,hf,ha⟩ | ⟨e,b,hr,he,hf⟩⟩ := hs.call_cases
  · refine Or.inl ⟨a,hr,he,?_⟩
    unfold Service.reply
    rw [hf,ha]
  · obtain rfl := h.failure hf
    exact Or.inr ⟨e,hr,he⟩

theorem findNodes_scan {region : Text} {r : Except Exn (List Instance)}
    (hs : Steps env.service (findNodes region) s r es t) :
    (∃ reservations, env.service.reply s.trace s.world (Watchdog.scanCall region) = .ok reservations ∧
        r = .ok reservations.flatten ∧ es = [⟨Watchdog.scanCall region,none,true⟩]) ∨
      (∃ x, r = .error x) ∧ ∀ e ∈ es, e.call.reads = true := by
  obtain ⟨hr,hes,-⟩ := findNodes_outcome hs
  unfold Watchdog.scanCall
  cases hreply : env.service.reply s.trace s.world (.describeInstances region nodeFilters) with
  | ok reservations =>
    rw [hreply] at hr
    rw [(Service.reply_ok hreply).2] at hes
    exact Or.inl ⟨reservations,rfl,hr,hes⟩
  | error e =>
    rw [hreply] at hr
    exact Or.inr ⟨⟨_,hr⟩,findNodes_only (Q := fun c => c.reads = true) region rfl hs⟩

/-- The terminates end at the first that fails. -/
theorem terminateAll_stops (h : Atomic env) {region : Text} {is : List Instance} {r : Except Exn Unit}
    (hs : Steps env.service (terminateAll region is) s r es t) :
    r = .ok () ∧ es = is.map (terminateEvent region) ∨
      ∃ (x : Exn) (done : List Instance) (c : Call) (e : ServiceError), r = .error x ∧ c.onlyRemoves = true ∧
        es = done.map (terminateEvent region) ++ [⟨c,some e,false⟩] := by
  induction is generalizing s es with
  | nil =>
    obtain ⟨hr,rfl,-⟩ := Steps.pure_iff.mp hs
    exact Or.inl ⟨hr,rfl⟩
  | cons i rest ih =>
    rcases hs.bind_cases with ⟨_,u,xs,ys,h1,h2,rfl⟩ | ⟨x,h1,hr⟩
    · rcases h.call_cases h1 with ⟨-,-,rfl,-⟩ | ⟨e,hx,-⟩
      · rcases ih h2 with ⟨hr,rfl⟩ | ⟨x,done,c,e,hr,hc,rfl⟩
        · exact Or.inl ⟨hr,rfl⟩
        · exact Or.inr ⟨x,i :: done,c,e,hr,hc,rfl⟩
      · cases hx
    · rcases h.call_cases h1 with ⟨_,hx,-⟩ | ⟨e,-,rfl⟩
      · cases hx
      · exact Or.inr ⟨x,[],_,e,hr,rfl,rfl⟩

/-- A region is emptied, or the calls end with one that had no effect. -/
theorem terminateRegion_stops (h : Atomic env) {region : Text} {r : Except Exn Unit}
    (hs : Steps env.service (terminateRegion region) s r es t) :
    (∃ reservations, r = .ok () ∧ env.service.reply s.trace s.world (Watchdog.scanCall region) = .ok reservations ∧
        es = ⟨Watchdog.scanCall region,none,true⟩ :: reservations.flatten.map (terminateEvent region)) ∨
      (∃ x, r = .error x) ∧ ((∀ e ∈ es, e.call.reads = true) ∨ ∃ (done : List Instance) (c : Call) (e : ServiceError),
        c.onlyRemoves = true ∧
        es = ⟨Watchdog.scanCall region,none,true⟩ :: (done.map (terminateEvent region) ++ [⟨c,some e,false⟩])) := by
  rcases hs.bind_cases with ⟨nodes,u,xs,ys,h1,h2,rfl⟩ | ⟨x,h1,hr⟩
  · rcases findNodes_scan h1 with ⟨reservations,hreply,hn,rfl⟩ | ⟨⟨x,hx⟩,-⟩
    · obtain rfl := Except.ok.inj hn
      rcases terminateAll_stops h h2 with ⟨hr,rfl⟩ | ⟨x,done,c,e,hr,hc,rfl⟩
      · exact Or.inl ⟨reservations,hr,hreply,rfl⟩
      · exact Or.inr ⟨⟨x,hr⟩,Or.inr ⟨done,c,e,hc,rfl⟩⟩
    · cases hx
  · rcases findNodes_scan h1 with ⟨_,_,hn,_⟩ | ⟨-,hreads⟩
    · cases hn
    · exact Or.inr ⟨⟨x,hr⟩,Or.inl hreads⟩

/-- After some reads, the region is emptied before the rest begins. -/
theorem emptied_calls (h : Atomic env) {pointer : Option Pointer} {region : Text} {next : Program Exn Response}
    {r : Except Exn Response} {u : State} {xs ys : List Event} (hxs : ∀ e ∈ xs, e.call.reads = true)
    (htrace : u.trace = s.trace ++ xs) (hworld : u.world = s.world)
    (hs : Steps env.service (terminateRegion region >>= fun _ => next) u r ys t) :
    DownCalls rt env s pointer r (xs ++ ys) ∨ ∃ v zs ws, Steps env.service next v r ws t ∧
      Emptied env s region (xs ++ zs) ∧ ys = zs ++ ws := by
  rcases hs.bind_cases with ⟨_,v,zs,ws,h1,h2,rfl⟩ | ⟨x,h1,rfl⟩
  · rcases terminateRegion_stops h h1 with ⟨reservations,-,hreply,rfl⟩ | ⟨⟨x,hx⟩,-⟩
    · rw [htrace,hworld] at hreply
      exact Or.inr ⟨v,_,ws,h2,⟨xs,reservations,hxs,hreply,rfl⟩,rfl⟩
    · cases hx
  · rcases terminateRegion_stops h h1 with ⟨_,hx,_⟩ | ⟨-,hreads | ⟨done,c,e,hc,rfl⟩⟩
    · cases hx
    · exact Or.inl (.unread fun e he => (List.mem_append.mp he).elim (hxs e) (hreads e))
    · rw [List.append_cons]
      refine Or.inl (.stopped ?_ hc)
      intro f hf
      rcases List.mem_append.mp hf with hf | hf
      · exact hxs f hf
      · rw [List.mem_singleton.mp hf]
        rfl

theorem down_calls (h : Atomic env) {pointer : Option Pointer} (hp : storedPointer rt s.world = .ok pointer)
    {r : Except Exn Response} (hs : Steps env.service (down rt) s r es t) : DownCalls rt env s pointer r es := by
  rcases hs.bind_cases with ⟨stored,u,xs,ys,h1,h2,rfl⟩ | ⟨x,h1,rfl⟩
  · obtain ⟨hw,⟨error,effective,rfl,-⟩,hread⟩ := readPointer_cases h1
    obtain rfl : stored = pointer := by
      rcases hread with hread | ⟨x,hx⟩
      · exact Except.ok.inj (hread.trans hp)
      · cases hx
    have hpointerRead : ∀ e ∈ [(⟨pointerRead rt,error,effective⟩ : Event)], e.call.reads = true := by
      simp [pointerRead,Call.reads]
    cases stored with
    | none =>
      have hregionRead : Only (fun c => c.reads = true) (defaultClient rt) := defaultClient_only rfl
      rcases h2.bind_cases with ⟨region,v,xs,zs,h3,h4,rfl⟩ | ⟨x,h3,rfl⟩
      · rw [← List.append_assoc]
        have hreads : ∀ e ∈ [(⟨pointerRead rt,error,effective⟩ : Event)] ++ xs, e.call.reads = true :=
          fun e he => (List.mem_append.mp he).elim (hpointerRead e) (hregionRead h3 e)
        have htrace : v.trace = s.trace ++ ([⟨pointerRead rt,error,effective⟩] ++ xs) := by
          rw [h3.2,h1.2,List.append_assoc]
        have hworld : v.world = s.world := by rw [h3.world,hw,replay_reads env (hregionRead h3)]
        rcases emptied_calls h hreads htrace hworld h4 with hcalls | ⟨w,zs,ws,h5,hemptied,rfl⟩
        · exact hcalls
        · obtain ⟨rfl,rfl,-⟩ := Steps.pure_iff.mp h5
          rw [List.append_nil]
          exact .untracked rfl hemptied
      · exact .unread fun e he => (List.mem_append.mp he).elim (hpointerRead e) (hregionRead h3 e)
    | some p =>
      rcases h2.bind_cases with ⟨region,v,xs,zs,h3,h4,rfl⟩ | ⟨x,h3,rfl⟩
      · obtain ⟨hregion,rfl,rfl⟩ := ofExcept_cases h3
        rcases emptied_calls h hpointerRead h1.2 hw h4 with hcalls | ⟨w,zs,ws,h5,hemptied,rfl⟩
        · exact hcalls
        · rw [List.nil_append,← List.append_assoc]
          rcases h5.bind_cases with ⟨_,w',xs,ys,h6,h7,rfl⟩ | ⟨x,h6,rfl⟩
          · obtain ⟨rfl,rfl,-⟩ := Steps.pure_iff.mp h7
            rw [List.append_nil]
            rcases h.call_cases h6 with ⟨-,-,rfl,-⟩ | ⟨e,hx,-⟩
            · exact .cleared rfl hregion.symm hemptied
            · cases hx
          · rcases h.call_cases h6 with ⟨_,hx,_⟩ | ⟨e,-,rfl⟩
            · cases hx
            · obtain ⟨xs,reservations,hxs,-,hes⟩ := hemptied
              rw [hes,List.append_cons xs,List.append_assoc]
              refine .stopped (c := pointerWrite rt none) ?_ rfl
              intro f hf
              rcases List.mem_append.mp hf with hf | hf
              · exact hxs f hf
              · rw [List.mem_singleton.mp hf]
                rfl
      · obtain ⟨-,rfl,-⟩ := ofExcept_cases h3
        exact .unread (by rwa [List.append_nil])
  · obtain ⟨-,⟨error,effective,rfl,-⟩,-⟩ := readPointer_cases h1
    exact .unread (by simp [pointerRead,Call.reads])

/-! ## What the calls leave -/

theorem Emptied.mem {region : Text} (h : Emptied env s region es) {e : Event} (he : e ∈ es) :
    e.call.reads = true ∨ ∃ i, e = terminateEvent region i := by
  obtain ⟨xs,reservations,hxs,-,rfl⟩ := h
  rcases List.mem_append.mp he with he | he
  · exact Or.inl (hxs e he)
  · rcases List.mem_cons.mp he with rfl | he
    · exact Or.inl rfl
    · obtain ⟨i,-,rfl⟩ := List.mem_map.mp he
      exact Or.inr ⟨i,rfl⟩

theorem Emptied.keepsParameters {region : Text} (h : Emptied env s region es) :
    ∀ e ∈ es, e.call.keepsParameters = true := by
  intro e he
  rcases h.mem he with hreads | ⟨i,rfl⟩
  · exact Call.quiet_keepsParameters (Call.quiet_of_reads hreads)
  · rfl

theorem answerOf_error (requestId : Text) (x : Exn) :
    (answerOf requestId (.error x)).statusCode = 500 ∨ (answerOf requestId (.error x)).statusCode = 503 := by
  cases x with
  | pointerUnavailable detail => exact Or.inr rfl
  | _ => exact Or.inl rfl

/-- Where a request raises, no call that had an effect wrote a parameter. -/
theorem DownCalls.pointer_kept {pointer : Option Pointer} {x : Exn} (h : DownCalls rt env s pointer (.error x) es)
    (w : World) : pointerText rt (env.service.replay w es) = pointerText rt w := by
  have hreads : ∀ {xs : List Event}, (∀ e ∈ xs, e.call.reads = true) → ∀ e ∈ xs, e.call.keepsParameters = true :=
    fun hxs e he => Call.quiet_keepsParameters (Call.quiet_of_reads (hxs e he))
  unfold pointerText
  cases h with
  | unread hes => rw [replay_parameters env (hreads hes)]
  | stopped hxs hc =>
    rw [← List.append_assoc,Service.replay_append,Service.replay_cons,if_neg Bool.false_ne_true,Service.replay_nil,
      replay_parameters env]
    intro e he
    rcases List.mem_append.mp he with he | he
    · exact hreads hxs e he
    · obtain ⟨i,-,rfl⟩ := List.mem_map.mp he
      rfl

theorem DownCalls.keepsTrack {pointer : Option Pointer} {r : Except Exn Response} (requestId : Text)
    (h : DownCalls rt env s pointer r es) (ht : t.world = env.service.replay s.world es) :
    KeepsTrack rt env s t pointer (answerOf requestId r) es := by
  cases r with
  | error x =>
    have hkept : pointerText rt t.world = pointerText rt s.world := by rw [ht,h.pointer_kept]
    refine ⟨Or.inl hkept,fun hserved => ?_,fun _ => ⟨?_,hkept⟩⟩
    · rcases answerOf_error requestId x with hstatus | hstatus <;> cases hstatus.symm.trans hserved
    · rcases answerOf_error requestId x with hstatus | hstatus <;> rw [hstatus]
  | ok response =>
    have hserved : ∀ {region}, Emptied env s region es → ∀ e ∈ es, e.call.reads = false → e.succeeded = true := by
      intro region hemptied e he hreads
      rcases hemptied.mem he with hr | ⟨i,rfl⟩
      · rw [hr] at hreads
        cases hreads
      · rfl
    cases h with
    | untracked hnone hemptied =>
      refine ⟨Or.inl ?_,fun _ => hserved hemptied,fun h => absurd rfl h⟩
      rw [ht,pointerText,replay_parameters env hemptied.keepsParameters]
      rfl
    | @cleared p region pre hp hregion hemptied =>
      refine ⟨Or.inr ⟨?_,p,region,pre,hp,hregion,hemptied,rfl⟩,?_,fun h => absurd rfl h⟩
      · rw [ht,Service.replay_append]
        simp [pointerText,pointerWrite,Env.service,Env.effect,World.setParameter,encodePointer]
      · intro _ e he hreads
        rcases List.mem_append.mp he with he | he
        · rcases hemptied.mem he with hr | ⟨i,rfl⟩
          · rw [hr] at hreads
            cases hreads
          · rfl
        · rw [List.mem_singleton.mp he]
          rfl

/-- A request to go down answers, and keeps track. -/
theorem dispatch_keepsTrack (h : Atomic env) {requestId : Text} {body : Dict} (hdown : asksDown body)
    {pointer : Option Pointer} (hp : storedPointer rt s.world = .ok pointer) {r : Except Empty Response}
    (hs : Steps env.service (dispatch rt requestId body) s r es t) :
    ∃ response, r = .ok response ∧ KeepsTrack rt env s t pointer response es := by
  obtain ⟨v,rfl,h1⟩ := dispatch_cases hs
  rw [perform_down hdown] at h1
  exact ⟨_,rfl,(down_calls h hp h1).keepsTrack requestId h1.world⟩

end

end ShardVPN.Handler
