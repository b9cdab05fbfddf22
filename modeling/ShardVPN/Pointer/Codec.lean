import ShardVPN.Json.Writers
import ShardVPN.Program.Specs

/-! # The stored form of a pointer

A written pointer is read back exactly, and only the absence of a node is written
as the empty sentinel.
-/
namespace ShardVPN.Settings

/-- The pointer to a node. -/
def pointerTo (n : Node) : Pointer := ⟨.str n.1,.str n.2.instanceId⟩

theorem pointerTo_of_key {m n : Node} (h : m.key = n.key) : pointerTo m = pointerTo n := by
  obtain ⟨hregion,hid⟩ := Prod.mk.inj h
  rw [pointerTo,pointerTo,hregion,hid]

theorem encodePointer_head (p : Pointer) : ∃ rest, encodePointer (some p) = 123 :: rest := by
  have hopen : text "\x7b" = [123] := by decide
  rw [encodePointer,dumps,hopen]
  exact ⟨_,rfl⟩

theorem encodePointer_eq_empty {p : Option Pointer} : encodePointer p = empty ↔ p = none := by
  constructor
  · intro h
    cases p with
    | none => rfl
    | some p =>
      obtain ⟨rest,hrest⟩ := encodePointer_head p
      have hempty : empty = 110 :: (text "one") := by decide
      rw [hrest,hempty] at h
      exact absurd (List.cons.inj h).1 (by decide)
  · rintro rfl
    rfl

theorem decode_encode_none : decodePointer (encodePointer none) = .ok none := rfl

/-- Names without surrogates survive the store. -/
theorem decode_encode {region instanceId : Text} (hr : Scalar region) (hi : Scalar instanceId) :
    decodePointer (encodePointer (some ⟨.str region,.str instanceId⟩)) =
      .ok (some ⟨.str region,.str instanceId⟩) := by
  have hloads : loads (dumps (.obj (stringFields [(text "region",region),(text "instance_id",instanceId)]))) = _ :=
    loads_dumps (legible_strings ?_ (by decide : [text "region",text "instance_id"].Nodup))
  · obtain ⟨rest,hrest⟩ := encodePointer_head ⟨.str region,.str instanceId⟩
    have hne : ¬(encodePointer (some ⟨.str region,.str instanceId⟩) = [] ∨
        encodePointer (some ⟨.str region,.str instanceId⟩) = empty) := by
      rintro (h | h)
      · rw [hrest] at h
        cases h
      · cases encodePointer_eq_empty.mp h
    have hregion : item (.obj (stringFields [(text "region",region),(text "instance_id",instanceId)]))
        (text "region") = .ok (.str region) := rfl
    have hid : item (.obj (stringFields [(text "region",region),(text "instance_id",instanceId)]))
        (text "instance_id") = .ok (.str instanceId) := rfl
    rw [decodePointer,if_neg hne]
    dsimp only
    rw [show encodePointer (some ⟨.str region,.str instanceId⟩) = dumps (.obj (stringFields
      [(text "region",region),(text "instance_id",instanceId)])) from rfl,hloads]
    dsimp only
    rw [hregion,hid]
  · intro p hp
    rcases List.mem_cons.mp hp with rfl | hp
    · exact ⟨(by decide : Scalar (text "region")).unpaired,hr.unpaired⟩
    · rw [List.mem_singleton.mp hp]
      exact ⟨(by decide : Scalar (text "instance_id")).unpaired,hi.unpaired⟩

theorem decode_pointerTo {n : Node} (hr : Scalar n.1) (hi : Scalar n.2.instanceId) :
    decodePointer (encodePointer (some (pointerTo n))) = .ok (some (pointerTo n)) := decode_encode hr hi

end ShardVPN.Settings
