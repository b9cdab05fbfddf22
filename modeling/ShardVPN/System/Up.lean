import ShardVPN.System.Runs

/-! # A successful `up`

A request to go up that succeeds reports a node. The stored pointer names that node
unless the tracked one is dead and another node lives in its region.
-/
namespace ShardVPN.System
open Effect Settings Handler

/-- The stored pointer names what a response reports. -/
def Named (rt : Runtime) (w : World) (response : Response) : Prop :=
  ∃ region instanceId, Reports response region instanceId ∧ storedPointer rt w = .ok (some ⟨region,instanceId⟩)

/-- Where the pointer points, no node is live, or the one it names is. -/
def Trackable (rt : Runtime) (w : World) : Prop := ∀ p region, storedPointer rt w = .ok (some p) →
  clientRegion rt p.region = .ok region →
  w.nodesIn region = [] ∨ ∃ i ∈ w.nodesIn region, p.instanceId = .str i.instanceId

/-- A successful request to go up. -/
def Upped (rt : Runtime) (w : World) (l : Label) (response : Response) : Prop :=
  ∃ i, l = .invoke i ∧ Asks asksUp i ∧ Answers rt i w response

variable {rt : Runtime} {w : World}

theorem Upped.run {l : Label} {response : Response} (h : Upped rt w l response) :
    ∃ env body es, UpRun rt env body w (.ok response) es ∧ after rt w l = env.service.replay w es ∧
      response.statusCode = 200 := by
  obtain ⟨i,rfl,⟨body,hbody,hup⟩,hanswers⟩ := h
  obtain ⟨body',xs,ys,u,t,hbody',hes,hxs,hu,hperform⟩ := hanswers.performed
  obtain rfl : body = body' := Option.some.inj (hbody.symm.trans hbody')
  rcases perform_cases hperform with ⟨-,hrun⟩ | ⟨hdown,-⟩ | ⟨hnot,-⟩
  · rw [hu] at hrun
    refine ⟨i.env,body,ys,hrun,?_,hanswers.2⟩
    change i.after rt w = _
    rw [i.after_eq,hes,Service.replay_append,replay_reads i.env hxs]
  · rw [asksUp] at hup
    rw [asksDown,hup] at hdown
    exact absurd hdown (by decide)
  · exact absurd hup hnot

theorem Reports.unique {response : Response} {region region' instanceId instanceId' : Json}
    (h : Reports response region instanceId) (h' : Reports response region' instanceId') :
    region = region' ∧ instanceId = instanceId' := by
  obtain ⟨document,rfl,hr,hi⟩ := h
  obtain ⟨document',heq,hr',hi'⟩ := h'
  obtain rfl : document = document' := by
    injection heq with _ heq
    exact Json.obj.inj heq
  exact ⟨Option.some.inj (hr.symm.trans hr'),Option.some.inj (hi.symm.trans hi')⟩

/-- What a success reports is live. -/
theorem Upped.live {l : Label} {response : Response} (h : Upped rt w l response) :
    ∃ n ∈ (after rt w l).nodes, ∃ region, Reports response region (.str n.2.instanceId) := by
  obtain ⟨env,body,es,hrun,hafter,hstatus⟩ := h.run
  rw [hafter]
  generalize hr : (Except.ok response : Except Exn Response) = r at hrun
  cases hrun with
  | @tracked p region i response' es hes hp hclient hselected hreports =>
    obtain rfl := Except.ok.inj hr
    rw [(replay_quiet env hes w).nodes]
    exact ⟨_,mem_nodesIn.mp hselected.1,_,hreports⟩
  | declined hes hdeclined =>
    have hbad := hdeclined response hr.symm
    rw [hstatus] at hbad
    cases hbad
  | recovered ht hi hxs he hys heffective hresponse =>
    rw [nodes_recovered env hxs he hys]
    exact ⟨_,mem_nodesIn.mp hi,_,(hresponse response hr.symm).2⟩
  | failed => cases hr
  | launched ht hn hxs hrole he heffective hresponse =>
    rw [nodes_launched env hxs hrole he]
    exact ⟨_,List.mem_append_right _ (List.mem_singleton_self _),_,(hresponse response hr.symm).2⟩

theorem Untracked.trackable (h : Untracked rt w) : Trackable rt w := by
  intro p region hp hregion
  obtain ⟨region',hregion',hnil⟩ := h p hp
  obtain rfl : region = region' := Except.ok.inj (hregion.symm.trans hregion')
  exact Or.inl hnil

/-- A pointer that was written is the stored one, whatever quiet calls follow. -/
theorem storedPointer_written (env : Env) {n : Node} {e : Event} {ys : List Event}
    (he : e.call = pointerWrite rt (some (pointerTo n))) (heffective : e.effective = true)
    (hys : ∀ e ∈ ys, e.call.quiet = true) (hr : Scalar n.1) (hi : Scalar n.2.instanceId) :
    storedPointer rt (env.service.replay w (e :: ys)) = .ok (some (pointerTo n)) := by
  rw [Service.replay_cons,heffective,if_pos rfl,(replay_quiet env hys _).storedPointer,he]
  exact (storedPointer_write env rt _ w).trans (decode_pointerTo hr hi)

/-- After a success the pointer names the node iff the tracked one was no other. -/
theorem Upped.named_iff {l : Label} {response : Response} (h : Upped rt w l response) :
    Named rt (after rt w l) response ↔ Trackable rt w := by
  obtain ⟨env,body,es,hrun,hafter,hstatus⟩ := h.run
  rw [hafter]
  generalize hr : (Except.ok response : Except Exn Response) = r at hrun
  cases hrun with
  | @tracked p region i response' es hes hp hclient hselected hreports =>
    obtain rfl := Except.ok.inj hr
    have hstored : storedPointer rt (env.service.replay w es) = .ok (some p) := by
      rw [(replay_quiet env hes w).storedPointer,hp]
    constructor
    · rintro ⟨region',instanceId,hreports',hstored'⟩ q region'' hq hclient'
      obtain ⟨-,rfl⟩ := Reports.unique hreports hreports'
      rw [hp] at hq
      cases hq
      obtain rfl : region = region'' := Except.ok.inj (hclient.symm.trans hclient')
      rw [hstored] at hstored'
      exact Or.inr ⟨i,hselected.1,congrArg Pointer.instanceId (Option.some.inj (Except.ok.inj hstored'))⟩
    · intro htrackable
      rcases htrackable p region hp hclient with hnil | ⟨j,hj,hid⟩
      · have hi := hselected.1
        rw [hnil] at hi
        cases hi
      · refine ⟨_,_,hreports,?_⟩
        rw [hselected.2 j hj hid,← hid]
        exact hstored
  | declined hes hdeclined =>
    have hbad := hdeclined response hr.symm
    rw [hstatus] at hbad
    cases hbad
  | @recovered region i r e xs ys ht hi hxs he hys heffective hresponse =>
    obtain ⟨hok,hreports⟩ := hresponse response hr.symm
    refine iff_of_true ⟨_,_,hreports,?_⟩ (Untracked.trackable ht.untracked)
    rw [Service.replay_append]
    exact storedPointer_written env he (heffective hok) hys (w.regions_scalar _ ht.valid)
      (node_scalar (mem_nodesIn.mp hi))
  | failed => cases hr
  | @launched region request r e xs ht hn hxs hrole he heffective hresponse =>
    obtain ⟨hok,hreports⟩ := hresponse response hr.symm
    refine iff_of_true ⟨_,_,hreports,?_⟩ (Untracked.trackable ht.untracked)
    rw [Service.replay_append,Service.replay_cons]
    exact storedPointer_written env he (heffective hok) (by simp) (w.regions_scalar _ ht.valid)
      (env.instanceId_scalar _)

/-- In a run, every successful request to go up leaves the pointer to the node it reports
iff each of them finds the tracked node alive or its region empty. -/
theorem ups_named_iff (rt : Runtime) (w : World) (ls : List Label) :
    Along (after rt) (fun v l => ∀ response, Upped rt v l response → Named rt (after rt v l) response) w ls ↔
      Along (after rt) (fun v l => (∃ response, Upped rt v l response) → Trackable rt v) w ls :=
  ⟨Along.mono fun _ _ h ⟨response,hup⟩ => hup.named_iff.mp (h response hup),
    Along.mono fun _ _ h response hup => hup.named_iff.mpr (h ⟨response,hup⟩)⟩

/-- The tracked node dies, and the next one is launched while the pointer cannot be
written. -/
def staleUp : List Label := [Plain.invoke Plain.clean Plain.upText,
  .nodeEnds (Plain.longerId Plain.empty),Plain.invoke Plain.unwritable Plain.upText,
  Plain.invoke Plain.clean Plain.upText]

/-- The status of an answer over HTTP. -/
def statusOf : Except Exn Reply → Option ℕ
  | .ok (.http response) => some response.statusCode
  | _ => none

theorem answers_of_status {i : Invocation} (h : statusOf (i.reply rt w) = some 200) :
    ∃ response, Answers rt i w response := by
  unfold Answers
  generalize i.reply rt w = r at h
  match r, h with
  | .ok (.http response), h => exact ⟨response,rfl,Option.some.inj h⟩

theorem stale_up_misnames : ¬Along (after Plain.runtime) (fun v l => ∀ response, Upped Plain.runtime v l response →
    Named Plain.runtime (after Plain.runtime v l) response) Plain.empty staleUp := by
  intro h
  have hnamed := along_iff.mp h (staleUp.take 3) (Plain.invoke Plain.clean Plain.upText) [] rfl
  obtain ⟨response,hanswers⟩ : ∃ response, Answers Plain.runtime
      ⟨Plain.clean,Plain.proc,[],Plain.request Plain.upText⟩
      (run (after Plain.runtime) Plain.empty (staleUp.take 3)) response :=
    answers_of_status (by decide +kernel)
  have hupped : Upped Plain.runtime (run (after Plain.runtime) Plain.empty (staleUp.take 3))
      (Plain.invoke Plain.clean Plain.upText) response :=
    ⟨_,rfl,⟨[(text "action",.str (text "up"))],by decide +kernel,rfl⟩,hanswers⟩
  have hstored : storedPointer Plain.runtime (run (after Plain.runtime) Plain.empty (staleUp.take 3)) =
      .ok (some ⟨.str Plain.region0,.str (Plain.longerId Plain.empty)⟩) := by decide +kernel
  have hlive := hupped.named_iff.mp (hnamed response hupped) _ Plain.region0 hstored rfl
  revert hlive
  decide +kernel

end ShardVPN.System
