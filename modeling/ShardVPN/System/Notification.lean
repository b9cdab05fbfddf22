import ShardVPN.System.Tap
import ShardVPN.System.Up

/-! # The notification says what is so

The line that a tap ends with shows an error, or what one of its attempts, which the
function served, had found or done, although it reached the phone later, or not at first:
a node that an `up` names lives, a node is called ready only when the tailnet lookup found
a device, and after a `down` nothing is left of what the pointer named.
-/
namespace ShardVPN.Phone
open Effect Ec2ops Settings Handler Script ShardVPN.System

section
variable {rt : Runtime} {tap : Tap}

/-- A success that the phone reads is one that the function answered, read as it was written. -/
theorem Arrives.answered {i : Invocation} {w : World} {code : ℕ} {result : Json}
    (h : Arrives rt tap i w (.loaded code result)) (hcode : code < 400) (hid : Scalar i.requestId) (hw : Unicode rt w) :
    ∃ response, Answers rt i w response ∧ response.payload = result := by
  generalize ho : Outcome.loaded code result = outcome at h
  cases h with
  | lost error => cases ho
  | @heard response value hreply hparse =>
    cases ho
    have htelling := (lambdaHandler_tells hid i.event (i.steps w) hw).2 _ hreply response rfl
    have hloads : loads response.body = .ok response.payload := loads_dumps htelling.payload.legible
    rw [tap.engine.parse_loads hloads htelling.payload] at hparse
    rcases htelling.status with hstatus | hstatus
    · exact ⟨response,⟨hreply,hstatus⟩,Except.ok.inj hparse⟩
    · exact absurd hstatus (Nat.not_le.mpr hcode)
  | crashed value hreply hserver =>
    cases ho
    omega

end

/-! ## What a success says of the account -/

/-- The lookup with the hostname of the node, made in an account like this one, finds some device. -/
def Listed (rt : Runtime) (env : Env) (w : World) (n : Node) : Prop :=
  ∃ u q before device, Same u w ∧ lookupOutcome rt env u q before (tagValue n.2 tagHostname) = .ok (some device)

section
variable {rt : Runtime} {env : Env} {s t : State} {es : List Event} {n : Node}

/-- A document is the one of a node that the lookup found, if it calls the node online. -/
theorem describe_listed {p : Option Pointer} {d : Dict} (h : Steps env.service (Handler.describe rt p) s (.ok d) es t)
    (hn : n ∈ t.world.nodes) (honline : Dict.get d (text "tailnet") = some (.str (text "online")))
    (hid : Dict.get d (text "instance_id") = some (.str n.2.instanceId)) : Listed rt env t.world n := by
  have hsame := (describe_frugal p).quiet.same h
  cases p with
  | none =>
    obtain rfl := Except.ok.inj (Steps.pure_iff.mp h).1
    exact absurd honline absent_offline
  | some p =>
    obtain ⟨region,u,xs,ys,h1,h2,-⟩ := h.bind_ok
    obtain ⟨-,-,rfl⟩ := ofExcept_cases h1
    obtain ⟨nodes,v,zs,us,h3,h4,-⟩ := h2.bind_ok
    obtain ⟨hv,-,⟨nodes',hnodes,hperm,-⟩ | ⟨e,b,hnodes,-⟩⟩ := findNodes_cases h3
    · obtain rfl := Except.ok.inj hnodes
      cases nodes with
      | nil =>
        obtain rfl := Except.ok.inj (Steps.pure_iff.mp h4).1
        exact absurd honline absent_offline
      | cons first rest =>
        obtain ⟨device,hlookup⟩ := document_online h4 honline
        have hmem := mem_nodesIn.mp (hperm.mem_iff.mp (selectInstance_cases first rest p.instanceId).1)
        have hdescribed := (document_cases h4 rfl).instanceId.symm.trans hid
        rw [hsame.nodes] at hn
        obtain rfl := node_unique hmem hn (Json.str.inj (Option.some.inj hdescribed))
        exact ⟨v.world,_,_,device,by rw [hv]; exact hsame,hlookup⟩
    · cases hnodes

/-- What a success of `up` calls online, the lookup found. -/
def OnlineListed (rt : Runtime) (env : Env) (w : World) (response : Response) : Prop :=
  ∀ d n, response = respond 200 d → n ∈ w.nodes → Dict.get d (text "tailnet") = some (.str (text "online")) →
    Dict.get d (text "instance_id") = some (.str n.2.instanceId) → Listed rt env w n

theorem onlineListed_failure {w : World} {response : Response} (h : response.statusCode = 400) :
    OnlineListed rt env w response := by
  rintro d n rfl
  cases h

theorem describe_onlineListed {p : Option Pointer} {d : Dict}
    (h : Steps env.service (Handler.describe rt p) s (.ok d) es t) : OnlineListed rt env t.world (respond 200 d) := by
  intro d' n hd hn
  obtain rfl : d = d' := Json.obj.inj (congrArg Response.payload hd)
  exact describe_listed h hn

theorem launchDocument_unknown (region instanceId hostname expiresAt : Text) :
    Dict.get (launchDocument region instanceId hostname expiresAt) (text "tailnet") = some (.str (text "unknown")) := rfl

theorem launchNode_onlineListed {region expiresAt : Text} {now : Time.DateTime} {response : Response}
    (h : Steps env.service (launchNode rt region now expiresAt) s (.ok response) es t) :
    OnlineListed rt env t.world response := by
  obtain ⟨_,_,_,_,-,h,-⟩ := h.bind_ok
  obtain ⟨_,_,_,_,-,h,-⟩ := h.bind_ok
  obtain ⟨_,_,_,_,-,h,-⟩ := h.bind_ok
  obtain ⟨_,_,_,_,-,h,-⟩ := h.bind_ok
  obtain ⟨_,_,_,_,-,h,-⟩ := h.bind_ok
  obtain ⟨_,_,_,_,-,h,-⟩ := h.bind_ok
  obtain ⟨_,_,_,_,-,h,-⟩ := h.bind_ok
  intro d n hd hn honline
  have hd' := (Except.ok.inj (Steps.pure_iff.mp h).1).symm.trans hd
  rw [← Json.obj.inj (congrArg Response.payload hd'),launchDocument_unknown] at honline
  exact absurd (Json.str.inj (Option.some.inj honline)) (by decide)

theorem upUntracked_onlineListed {body : Dict} {response : Response}
    (h : Steps env.service (upUntracked rt body) s (.ok response) es t) : OnlineListed rt env t.world response := by
  obtain ⟨regions,_,_,_,-,h,-⟩ := h.bind_ok
  obtain ⟨region,_,_,_,-,h,-⟩ := h.bind_ok
  split at h
  · rw [Except.ok.inj (Steps.pure_iff.mp h).1]
    exact onlineListed_failure rfl
  obtain ⟨now,_,_,_,-,h,-⟩ := h.bind_ok
  obtain ⟨expiry,_,_,_,-,h,-⟩ := h.bind_ok
  split at h
  · split at h
    · rw [Except.ok.inj (Steps.pure_iff.mp h).1]
      exact onlineListed_failure rfl
    · cases (Steps.throw_iff.mp h).1
  · obtain ⟨found,_,_,_,-,h,-⟩ := h.bind_ok
    split at h
    · obtain ⟨_,_,_,_,-,h,-⟩ := h.bind_ok
      obtain ⟨d,_,_,_,h1,h2,-⟩ := h.bind_ok
      obtain ⟨hr,-,rfl⟩ := Steps.pure_iff.mp h2
      rw [Except.ok.inj hr]
      exact describe_onlineListed h1
    · exact launchNode_onlineListed h

theorem up_onlineListed {body : Dict} {response : Response} (h : Steps env.service (up rt body) s (.ok response) es t) :
    OnlineListed rt env t.world response := by
  obtain ⟨pointer,_,_,_,-,h,-⟩ := h.bind_ok
  split at h
  · exact upUntracked_onlineListed h
  · obtain ⟨existing,_,_,_,h1,h2,-⟩ := h.bind_ok
    split at h2
    · obtain ⟨hr,-,rfl⟩ := Steps.pure_iff.mp h2
      rw [Except.ok.inj hr]
      exact describe_onlineListed h1
    · exact upUntracked_onlineListed h2

/-- A success of `up` names a live node, and the region it lives in. -/
theorem upRun_names {body : Dict} {w : World} {response : Response} (h : UpRun rt env body w (.ok response) es)
    (hstatus : response.statusCode = 200) (hw : Unicode rt w) :
    ∃ n ∈ (env.service.replay w es).nodes, Reports response (.str n.1) (.str n.2.instanceId) := by
  generalize hr : (Except.ok response : Except Exn Response) = r at h
  cases h with
  | @tracked p region i response' es hes hp hclient hselected hreports =>
    obtain rfl := Except.ok.inj hr
    obtain ⟨region',hregion,-⟩ := hw.pointer p hp
    rw [hregion] at hclient hreports
    obtain rfl : region' = region := clientRegion_str hclient
    rw [(replay_quiet env hes w).nodes]
    exact ⟨_,mem_nodesIn.mp hselected.1,hreports⟩
  | declined hes hdeclined =>
    have hbad := hdeclined response hr.symm
    rw [hstatus] at hbad
    cases hbad
  | recovered ht hi hxs he hys heffective hresponse =>
    rw [nodes_recovered env hxs he hys]
    exact ⟨_,mem_nodesIn.mp hi,(hresponse response hr.symm).2⟩
  | failed => cases hr
  | launched ht hn hxs hrole he heffective hresponse =>
    rw [nodes_launched env hxs hrole he]
    exact ⟨_,List.mem_append_right _ (List.mem_singleton_self _),(hresponse response hr.symm).2⟩

end

/-- The line names the node, and calls it ready only if it is listed. -/
def Names (rt : Runtime) (env : Env) (w : World) (n : Node) (line : Text) : Prop :=
  ∃ rest, line = n.1 ++ text ": " ++ rest ∧ (rest.take 5 = text "ready" → Listed rt env w n)

/-- The line says of the account before and after the attempt what is so; a status names the node that the pointer
names, and one of its region when that one is not live. -/
inductive Told (rt : Runtime) (env : Env) (body : Dict) (v w : World) (line : Text) : Prop
  | up {n : Node} : asksUp body → n ∈ w.nodes → Names rt env w n line → Told rt env body v w line
  | down {region : Text} : asksDown body → DownRegion rt v region →
      w.nodes = v.nodes.filter (fun n => decide (n.1 ≠ region)) → storedPointer rt w = .ok none →
      line = text "no node running" → Told rt env body v w line
  | absent : asksStatus body → w.nodes = v.nodes → Untracked rt w → line = text "no node running" →
      Told rt env body v w line
  | present {n : Node} {p : Pointer} : asksStatus body → w.nodes = v.nodes → storedPointer rt w = .ok (some p) →
      clientRegion rt p.region = .ok n.1 → Selected w n.1 p n.2 → Names rt env w n line → Told rt env body v w line

section
variable {rt : Runtime} {env : Env} {s t : State} {es : List Event} {engine : Engine} {line : Text}

/-- The line of a document about a node names the node. -/
theorem names_of_reports {w : World} {n : Node} {d : Dict} (hd : Documents d)
    (hregion : d.get (text "region") = some (.str n.1)) (hid : d.get (text "instance_id") = some (.str n.2.instanceId))
    (hlisted : d.get (text "tailnet") = some (.str (text "online")) → Listed rt env w n)
    (hline : Script.describe engine (.obj d) = .ok line) : Names rt env w n line := by
  obtain ⟨herror,state,hstate⟩ := hd.of_id hid
  have hname : state.name ≠ text "absent" ∧ state.name.take 5 ≠ text "ready" := by cases state <;> decide
  obtain ⟨rest,hrest,hready⟩ := describe_present engine herror hstate hname.1 hregion
  exact ⟨rest,Except.ok.inj (hline.symm.trans hrest),fun htake => hlisted (hready htake hname.2)⟩

theorem told_up {body : Dict} {response : Response} (hbody : asksUp body)
    (h : Steps env.service (up rt body) s (.ok response) es t) (hstatus : response.statusCode = 200)
    (hs : Unicode rt s.world) (hline : Script.describe engine response.payload = .ok line) :
    Told rt env body s.world t.world line := by
  obtain ⟨n,hn,d,rfl,hregion,hid⟩ := upRun_names (up_cases h) hstatus hs
  rw [← h.world] at hn
  obtain ⟨d',heq,hd⟩ := up_documented body h hstatus
  obtain rfl : d = d' := Json.obj.inj (congrArg Response.payload heq)
  exact .up hbody hn (names_of_reports hd hregion hid (fun honline => up_onlineListed h d n rfl hn honline hid) hline)

theorem told_down {body : Dict} {response : Response} (hbody : asksDown body)
    (h : Steps env.service (down rt) s (.ok response) es t)
    (hline : Script.describe engine response.payload = .ok line) : Told rt env body s.world t.world line := by
  have hrun := down_cases h
  obtain ⟨region,hregion,hnodes,-,hpointer⟩ := hrun.effects env
  rw [← h.world] at hnodes hpointer
  have hresponse : response = respond 200 Statusdoc.absent := by
    generalize hr : (Except.ok response : Except Exn Response) = r at hrun
    cases hrun with
    | failed _ _ => cases hr
    | emptied _ _ _ _ => exact Except.ok.inj hr
  rw [hresponse] at hline
  exact .down hbody hregion hnodes hpointer (Except.ok.inj (hline.symm.trans (describe_absent engine)))

theorem told_status {body : Dict} {response : Response} (hbody : asksStatus body)
    (h : Steps env.service (status rt) s (.ok response) es t) (hs : Unicode rt s.world)
    (hline : Script.describe engine response.payload = .ok line) : Told rt env body s.world t.world line := by
  have hsame : Same s.world t.world := status_quiet.same h
  obtain ⟨p,d,u,xs,rfl,hp,hu,hdescribe⟩ := status_cases h
  rw [← hsame.storedPointer] at hp
  cases p with
  | none =>
    obtain rfl := Except.ok.inj (Steps.pure_iff.mp hdescribe).1
    refine .absent hbody hsame.nodes ?_ (Except.ok.inj (hline.symm.trans (describe_absent engine)))
    intro q hq
    rw [hp] at hq
    cases hq
  | some p =>
    obtain ⟨region,hclient,⟨hnil,rfl⟩ | ⟨i,hselected,hdescribes⟩⟩ := describe_cases hdescribe rfl
    · refine .absent hbody hsame.nodes ?_ (Except.ok.inj (hline.symm.trans (describe_absent engine)))
      intro q hq
      rw [hp] at hq
      cases hq
      exact ⟨region,hclient,by rw [hsame.nodesIn,← hu.nodesIn,hnil]⟩
    · rw [Selected,hu.nodesIn,← hsame.nodesIn] at hselected
      obtain ⟨region',hregion,-⟩ := hs.pointer p (by rw [← hsame.storedPointer,hp])
      have hregions : region' = region := by
        rw [hregion] at hclient
        exact clientRegion_str hclient
      rw [hregions] at hregion
      have hn : (region,i) ∈ t.world.nodes := mem_nodesIn.mp hselected.1
      refine .present (n := (region,i)) hbody hsame.nodes hp hclient hselected ?_
      exact names_of_reports (describe_documents _ hdescribe) (hdescribes.region.trans (congrArg some hregion))
        hdescribes.instanceId (fun honline => describe_listed hdescribe hn honline hdescribes.instanceId) hline

/-- The line of a success is told by the action that was asked for. -/
theorem told {i : Invocation} {w : World} {response : Response} {body : Dict} (h : Answers rt i w response)
    (hbody : requestBody i.event = some body) (hw : Unicode rt w)
    (hline : Script.describe engine response.payload = .ok line) : Told rt i.env body w (i.after rt w) line := by
  obtain ⟨body',xs,ys,u,t,hbody',hes,hxs,rfl,hperform⟩ := h.performed
  obtain rfl : body = body' := Option.some.inj (hbody.symm.trans hbody')
  have hafter : i.after rt u.world = t.world := by
    rw [i.after_eq,hes,Service.replay_append,replay_reads i.env hxs,hperform.world]
  rw [hafter]
  unfold perform at hperform
  split at hperform
  · exact told_up (by assumption) hperform h.2 hw hline
  split at hperform
  · exact told_down (by assumption) hperform hline
  split at hperform
  · exact told_status (by assumption) hperform hw hline
  · have hfailure := Except.ok.inj (Steps.pure_iff.mp hperform).1
    have hstatus := h.2
    rw [hfailure] at hstatus
    cases hstatus

end

/-! ## The end of a tap -/

section
variable {rt : Runtime} {tap : Tap} {s : Session}

theorem unicode_moved {m : Move} (hm : Genuine rt tap s m) (h : Unicode rt s.world) :
    Unicode rt (moved rt tap s m).world := by
  cases m with
  | account l => exact step_unicode hm h
  | missed outcome => exact h
  | served dateNow i outcome => exact step_unicode (l := .invoke i) hm.2.1 h

theorem unicode_run {ms : List Move} (h : Along (moved rt tap) (Genuine rt tap) s ms) (hs : Unicode rt s.world) :
    Unicode rt (run (moved rt tap) s ms).world := by
  induction ms generalizing s with
  | nil => exact hs
  | cons m ms ih => exact ih h.2 (unicode_moved h.1 hs)

/-- The attempt that ends a tap gives an error, or tells what is so. -/
theorem told_returned {m : Move} {outcome : Outcome} {result : Json} (hm : Genuine rt tap s m)
    (houtcome : m.outcome = some outcome) (hreturned : s.phase.next tap.engine outcome = .returned result)
    (hs : Unicode rt s.world) : ∃ line, Script.describe tap.engine result = .ok line ∧
      ((∃ e, line = text "error: " ++ e) ∨ ∃ dateNow i, m = .served dateNow i outcome ∧
        Told rt i.env (asked tap.action tap.region) s.world (i.after rt s.world) line) := by
  rcases next_returned (hm.waiting (by rw [houtcome]; rintro ⟨⟩)) hreturned with ⟨value,hvalue,rfl⟩ | ⟨code,rfl,hcode⟩
  · exact ⟨_,describe_error tap.engine hvalue,Or.inl ⟨_,rfl⟩⟩
  cases m with
  | account l => cases houtcome
  | missed outcome =>
    cases houtcome
    exact absurd hm.2 (Nat.not_le.mpr hcode)
  | served dateNow i outcome =>
    cases houtcome
    obtain ⟨-,hid,-,hdelivered,harrives⟩ := hm
    obtain ⟨response,hanswers,rfl⟩ := harrives.answered hcode hid hs
    have hbody := requestBody_delivered tap.action_scalar tap.region_scalar hdelivered
    obtain ⟨_,_,_,u,t,-,-,-,-,hperform⟩ := hanswers.performed
    obtain ⟨d,rfl,-⟩ := perform_documented _ hperform hanswers.2
    have hline := describe_obj tap.engine d
    exact ⟨_,hline,Or.inr ⟨dateNow,i,rfl,told hanswers hbody hs hline⟩⟩

end

/-- The line is the one for what `send` returns, and it shows an error, or tells of an attempt what is so. -/
theorem notification_true (rt : Runtime) (tap : Tap) (w : World) (ms : List Move) (result : Json) (hw : Unicode rt w)
    (h : Along (moved rt tap) (Genuine rt tap) ⟨w,.trying 0 none⟩ ms)
    (hreturned : (run (moved rt tap) ⟨w,.trying 0 none⟩ ms).phase = .returned result) :
    result = send tap.engine (fun k => (outcomes ms).getD k (.raised [])) 0 none ∧
      ∃ line, Script.describe tap.engine result = .ok line ∧
        ((∃ e, line = text "error: " ++ e) ∨ ∃ before dateNow i outcome later,
          ms = before ++ .served dateNow i outcome :: later ∧ Told rt i.env (asked tap.action tap.region)
            (run (moved rt tap) ⟨w,.trying 0 none⟩ before).world
            (i.after rt (run (moved rt tap) ⟨w,.trying 0 none⟩ before).world) line) := by
  refine ⟨returned_send h hreturned,?_⟩
  have hwaiting : (Phase.trying 0 none).Waiting := ⟨0,none,rfl,by decide⟩
  obtain ⟨before,m,later,outcome,rfl,-,houtcome,hresult⟩ := returning hwaiting h hreturned
  obtain ⟨hbefore,hm,-⟩ := along_append.mp h
  have hunicode := unicode_run hbefore hw
  obtain ⟨line,hline,htold⟩ := told_returned hm houtcome hresult hunicode
  refine ⟨line,hline,?_⟩
  rcases htold with herror | ⟨dateNow,i,rfl,htold⟩
  · exact Or.inl herror
  · exact Or.inr ⟨before,dateNow,i,outcome,later,rfl,htold⟩

/-- The status of an account without nodes, asked for at midnight. -/
def askStatus : Invocation := ⟨Plain.clean,Plain.proc,[],midnightEvent (text "status") none⟩

theorem askStatus_runs : askStatus.reply standard Plain.empty = .ok (.http (respond 200 Statusdoc.absent)) ∧
    askStatus.after standard Plain.empty = Plain.empty := by
  have hsteps : Steps _ (lambdaHandler standard [] askStatus.event) _ (askStatus.reply standard Plain.empty) _ _ :=
    askStatus.steps Plain.empty
  obtain ⟨v,u,xs,ys,hr,-,-,hu,hperform⟩ := lambdaHandler_delivered (fun _ _ => rfl) (by decide) (by decide) (by decide)
    (by decide) opens_midnight (midnightEvent_delivered (text "status") none) (by rintro ⟨⟩) hsteps
  obtain ⟨w,p,trace⟩ := u
  obtain rfl : w = Plain.empty := hu
  obtain ⟨hv,ht⟩ := Prod.mk.inj hperform.1
  constructor
  · rw [hr,← hv]
    rfl
  · rw [Invocation.after,← ht]
    rfl

def statusTap : Tap := ⟨plainEngine,Plain.secret,text "status",none,plain_secret_scalar,by decide,none_scalar⟩

/-- One answer gets lost, one attempt finds the function busy, and the next one is answered. -/
def statusMoves : List Move := [.served 1767225600999 askStatus (.raised (text "Error: timed out")),
  .missed (.loaded 429 .null),.served 1767225600999 askStatus (.loaded 200 (.obj Statusdoc.absent))]

theorem notification_true_status : Json.obj Statusdoc.absent =
      send plainEngine (fun k => (outcomes statusMoves).getD k (.raised [])) 0 none ∧
    ∃ line, Script.describe plainEngine (.obj Statusdoc.absent) = .ok line ∧
      ((∃ e, line = text "error: " ++ e) ∨ ∃ before dateNow i outcome later,
        statusMoves = before ++ .served dateNow i outcome :: later ∧ Told standard i.env (asked (text "status") none)
          (run (moved standard statusTap) ⟨Plain.empty,.trying 0 none⟩ before).world
          (i.after standard (run (moved standard statusTap) ⟨Plain.empty,.trying 0 none⟩ before).world) line) := by
  have hunicode : Unicode standard Plain.empty := by
    have hpointer : storedPointer standard Plain.empty = .ok none := by decide +kernel
    refine ⟨by rintro n ⟨⟩,by rintro n ⟨⟩,?_⟩
    rw [hpointer]
    rintro p ⟨⟩
  obtain ⟨hreply,hafter⟩ := askStatus_runs
  have hserved : ∀ {outcome : Outcome} {phase : Phase}, phase.Waiting →
      Arrives standard statusTap askStatus Plain.empty outcome →
      Genuine standard statusTap ⟨Plain.empty,phase⟩ (.served 1767225600999 askStatus outcome) := fun hwaiting harrives =>
    ⟨hwaiting,by decide,by rintro ⟨⟩,midnightEvent_delivered _ _,harrives⟩
  have hmoved : ∀ outcome phase, moved standard statusTap ⟨Plain.empty,phase⟩ (.served 1767225600999 askStatus outcome) =
      ⟨Plain.empty,phase.next plainEngine outcome⟩ := fun _ _ => congrArg (Session.mk · _) hafter
  have hgenuine : Along (moved standard statusTap) (Genuine standard statusTap) ⟨Plain.empty,.trying 0 none⟩
      statusMoves := by
    refine ⟨hserved ⟨0,none,rfl,by decide⟩ (.lost _),?_⟩
    rw [hmoved]
    have hworded : Worded (.obj Statusdoc.absent) := readable_absent
    refine ⟨⟨⟨1,_,rfl,by decide⟩,(by decide : 400 ≤ 429)⟩,hserved ⟨2,_,rfl,by decide⟩ (.heard hreply ?_),trivial⟩
    exact plainEngine.parse_loads (loads_dumps hworded.legible) hworded
  exact notification_true standard statusTap Plain.empty statusMoves _ hunicode hgenuine rfl

end ShardVPN.Phone
