import ShardVPN.Bootstrap.Render
import ShardVPN.System.Evolution

/-! # What a launched node boots

The user data of every launch is the script with the key and the name of the launch. The
shell of the node reads in it the join with exactly these, and the name is the one that
the function knows the node by.
-/
namespace ShardVPN.System
open Effect Ec2ops Handler Bootstrap

/-- The script of a launch joins with the key and with the name in the tags of the node. -/
structure Boots (request : RunInstances) (authkey : Text) : Prop where
  rendered : script request.userData = some (lines linesBeforeJoin ++
    (joinLines authkey request.userData.hostname ++ lines linesAfterJoin))
  joins : ∃ ws, Shell.readCommand (joinLines authkey request.userData.hostname ++ lines linesAfterJoin) = some ws ∧
    ws.map (·.flatMap utf8Bytes) = join (authkey.flatMap utf8Bytes) (request.userData.hostname.flatMap utf8Bytes)
  known : ⟨tagHostname,request.userData.hostname⟩ ∈ request.tags

/-- Every launch of a step with a key and a name that stay in their quotes boots as it is meant. -/
def LaunchesBoot (rt : Runtime) (w : World) : Label → Prop
  | .invoke i => ∀ e ∈ i.events rt w, ∀ region request, e.call = .runInstances region request →
      ∀ authkey, request.userData.authkey = .str authkey → Shell.Literal authkey →
        Shell.Literal request.userData.hostname → Boots request authkey
  | _ => True

theorem join_words (authkey hostname : Text) : [text "tailscale",text "up",text "--auth-key=" ++ authkey,text "--ssh",
      text "--hostname=" ++ hostname].map (·.flatMap utf8Bytes) =
    join (authkey.flatMap utf8Bytes) (hostname.flatMap utf8Bytes) := by
  have hwords : (text "tailscale").flatMap utf8Bytes = bytes "tailscale" ∧ (text "up").flatMap utf8Bytes = bytes "up" ∧
      (text "--auth-key=").flatMap utf8Bytes = bytes "--auth-key=" ∧ (text "--ssh").flatMap utf8Bytes = bytes "--ssh" ∧
      (text "--hostname=").flatMap utf8Bytes = bytes "--hostname=" := by
    decide +kernel
  obtain ⟨htailscale,hup,hkey,hssh,hname⟩ := hwords
  simp only [List.map_cons,List.map_nil,List.flatMap_append,htailscale,hup,hkey,hssh,hname]
  rfl

theorem launchesBoot (rt : Runtime) (w : World) (l : Label) : LaunchesBoot rt w l := by
  cases l with
  | invoke i =>
    intro e he region request hcall authkey hkey hauthkey hhostname
    obtain ⟨pre,post,hes⟩ := List.append_of_mem he
    have hwarrants : Warrants rt i.env w (i.events rt w) := i.warrants w
    have hwarranted := Service.permits_iff.mp hwarrants pre e post hes
    rw [hcall] at hwarranted
    cases hwarranted with
    | launch ho =>
      obtain ⟨l,-,htags,hname⟩ := ho.tagged
      have huser : request.userData = ⟨.str authkey,request.userData.hostname⟩ := by rw [← hkey]
      refine ⟨?_,⟨_,readCommand_joinLines hauthkey hhostname _,join_words _ _⟩,?_⟩
      · rw [huser]
        exact script_eq authkey _
      · rw [htags,hname]
        simp [Launch.tags,launchTags]
  | _ => trivial

/-- In every run, whatever fails, every node boots the template with nothing but its key and its name put in, and
joins with exactly these. -/
theorem launched_nodes_boot (rt : Runtime) (w : World) (ls : List Label) : Along (after rt) (LaunchesBoot rt) w ls :=
  along_iff.mpr fun _ _ _ _ => launchesBoot rt _ _

/-- The user data of a launch. -/
def userData : Call → Option UserData
  | .runInstances _ request => some request.userData
  | _ => none

/-- The node of one request in an empty account joins with the key of the tailnet and a name after its region. -/
theorem launched_nodes_boot_plain : ∃ e ∈ firstUp.events Plain.runtime Plain.empty, ∃ region request,
    e.call = .runInstances region request ∧ request.userData.hostname = text "shardvpn-us-east-1-1234" ∧
    Boots request (text "tskey-auth") := by
  have hdata : (firstUp.events Plain.runtime Plain.empty).filterMap (fun e => userData e.call) =
      [⟨.str (text "tskey-auth"),text "shardvpn-us-east-1-1234"⟩] := by decide +kernel
  have hliteral : Shell.Literal (text "tskey-auth") ∧ Shell.Literal (text "shardvpn-us-east-1-1234") := by
    decide +kernel
  obtain ⟨e,he,hcall⟩ := List.mem_filterMap.mp (hdata ▸ List.mem_singleton_self _)
  have hboots := (launched_nodes_boot Plain.runtime Plain.empty [.invoke firstUp]).1 e he
  cases hlaunch : e.call with
  | runInstances region request =>
    rw [hlaunch] at hcall
    have huser : request.userData = _ := Option.some.inj hcall
    refine ⟨e,he,region,request,hlaunch,by rw [huser],?_⟩
    apply hboots region request hlaunch _ _ hliteral.1
    · rw [huser]
      exact hliteral.2
    · rw [huser]
  | _ =>
    rw [hlaunch] at hcall
    cases hcall

end ShardVPN.System
