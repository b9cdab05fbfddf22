import ShardVPN.Program.Statusdoc
import ShardVPN.Program.Tap

/-! # The line of a notification

What the script shows for the documents of the server: one line for no node, the region
and a remark for a node, and the text of an error.
-/
namespace ShardVPN.Script

section
variable (engine : Engine)

theorem template_str (t : Text) : template engine (some (.str t)) = t := engine.string_str t

/-- `result.region || ""` in a template. -/
theorem template_region (t : Text) :
    template engine (some (((some (Json.str t)).filter truthy).getD (.str []))) = t := by
  by_cases ht : t = []
  · subst ht
    exact template_str engine []
  · rw [Option.filter_some,if_pos (by simp [truthy,ht]),Option.getD_some,template_str]

theorem describe_obj (d : Dict) : describe engine (.obj d) = .ok (line engine (Dict.get d (text "error"))
    (Dict.get d (text "state")) (Dict.get d (text "region")) (Dict.get d (text "tailnet")) (Dict.get d (text "age"))
    (Dict.get d (text "idle_for"))) := rfl

theorem describe_absent : describe engine (.obj Statusdoc.absent) = .ok (text "no node running") := rfl

/-- The line of a node: where it is, and what there is to say about it. -/
theorem describe_present {d : Dict} {state region : Text} (herror : Dict.get d (text "error") = none)
    (hstate : Dict.get d (text "state") = some (.str state)) (hpresent : state ≠ text "absent")
    (hregion : Dict.get d (text "region") = some (.str region)) :
    ∃ rest, describe engine (.obj d) = .ok (region ++ text ": " ++ rest) ∧
      (rest.take 5 = text "ready" → state.take 5 ≠ text "ready" →
        Dict.get d (text "tailnet") = some (.str (text "online"))) := by
  have hne : some (Json.str state) ≠ some (.str (text "absent")) := by simpa using hpresent
  have hstarting : text ": starting, not on tailnet yet (" = text ": " ++ text "starting, not on tailnet yet (" := by
    decide +kernel
  have hready : text ": ready" = text ": " ++ text "ready" := by decide +kernel
  rw [describe_obj,herror,hstate,hregion]
  unfold line
  dsimp only
  rw [template_region,Option.any_none,if_neg Bool.false_ne_true,if_neg hne]
  split
  · generalize template engine (some (((Dict.get d (text "age")).filter truthy).getD (.str (text "0m")))) = age
    refine ⟨text "starting, not on tailnet yet (" ++ (age ++ text ")"),?_,?_⟩
    · rw [hstarting]
      simp only [List.append_assoc]
    · intro htake
      rw [List.take_append_of_le_length (by decide +kernel)] at htake
      exact absurd htake (by decide +kernel)
  split
  · rename_i honline
    generalize (if (Dict.get d (text "idle_for")).any truthy = true then
      text ", idle " ++ template engine (Dict.get d (text "idle_for")) else []) = idle
    refine ⟨text "ready" ++ idle,?_,fun _ _ => honline⟩
    rw [hready]
    simp only [List.append_assoc]
  · refine ⟨state,?_,fun htake hstate => absurd htake hstate⟩
    rw [template_str]

theorem describe_error {value : Json} (h : truthy value = true) :
    describe engine (.obj [(text "error",value)]) = .ok (text "error: " ++ template engine (some value)) := by
  have hget : Dict.get [(text "error",value)] (text "error") = some value := rfl
  rw [describe_obj,hget]
  unfold line
  rw [Option.any_some,if_pos h]

end

end ShardVPN.Script
