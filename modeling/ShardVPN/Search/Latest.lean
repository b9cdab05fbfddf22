import Mathlib.Data.List.Sort
import Mathlib.Order.Bounds.Basic

/-! # Searching a list in order

In a list in the order of a key, the search from the end for a property finds the
greatest key that has it, and the head has the least key of all.
-/
namespace ShardVPN.Search
variable {α β : Type*} {key : α → β} {p : α → Bool} {l : List α} {a : α}

/-- The keys of the elements with a property. -/
def keysWith (key : α → β) (p : α → Prop) (l : List α) : Set β := {k | ∃ a ∈ l, p a ∧ key a = k}

theorem keysWith_congr {q : α → Prop} {l l' : List α} (h : ∀ a, a ∈ l ↔ a ∈ l') :
    keysWith key q l = keysWith key q l' := by
  unfold keysWith
  simp only [h]

variable [Preorder β]

theorem isGreatest_of_find? (hl : l.Pairwise fun a b => key a ≤ key b) (h : l.reverse.find? p = some a) :
    IsGreatest (keysWith key (fun b => p b = true) l) (key a) := by
  obtain ⟨hp,after,before,hsplit,hafter⟩ := List.find?_eq_some_iff_append.mp h
  rw [List.reverse_eq_iff,List.reverse_append,List.reverse_cons,List.append_assoc] at hsplit
  rw [hsplit] at hl ⊢
  constructor
  · exact ⟨a,by simp,hp,rfl⟩
  · rintro k ⟨b,hb,hpb,rfl⟩
    rcases List.mem_append.mp hb with hb | hb
    · exact (List.pairwise_append.mp hl).2.2 b hb a (by simp)
    rcases List.mem_append.mp hb with hb | hb
    · rw [List.mem_singleton.mp hb]
    · have hnot := hafter b (List.mem_reverse.mp hb)
      rw [hpb] at hnot
      cases hnot

theorem isLeast_head (hl : (a :: l).Pairwise fun a b => key a ≤ key b) :
    IsLeast (keysWith key (fun _ => True) (a :: l)) (key a) := by
  constructor
  · exact ⟨a,List.mem_cons_self,trivial,rfl⟩
  · rintro k ⟨b,hb,-,rfl⟩
    rcases List.mem_cons.mp hb with rfl | hb
    · exact le_refl _
    · exact (List.pairwise_cons.mp hl).1 b hb

end ShardVPN.Search
