import Mathlib.Logic.Relation

/-! # Runs of a deterministic system

A system is a function that takes a step for a label; a run takes the steps of a list
of labels. What every step preserves holds along every run, and a system whose steps
are matched by those of another one refines it.
-/
namespace ShardVPN.Effect

variable {S L O A : Type} (after : S → L → S)

/-- The state after the steps of a list. -/
def run (s : S) (ls : List L) : S := ls.foldl after s

/-- What the steps of a list emit, in order. -/
def emitted (emit : S → L → List O) : S → List L → List O
  | _,[] => []
  | s,l :: ls => emit s l ++ emitted emit (after s l) ls

/-- Every step of the list meets a condition in the state in which it is taken. -/
def Along (ok : S → L → Prop) : S → List L → Prop
  | _,[] => True
  | s,l :: ls => ok s l ∧ Along ok (after s l) ls

@[simp] theorem run_nil (s : S) : run after s [] = s := rfl
@[simp] theorem run_cons (s : S) (l : L) (ls : List L) : run after s (l :: ls) = run after (after s l) ls := rfl
theorem run_append (s : S) (ls ks : List L) : run after s (ls ++ ks) = run after (run after s ls) ks :=
  List.foldl_append

variable {after} {ok : S → L → Prop}

theorem along_append {s : S} {ls ks : List L} :
    Along after ok s (ls ++ ks) ↔ Along after ok s ls ∧ Along after ok (run after s ls) ks := by
  induction ls generalizing s with
  | nil => simp [Along]
  | cons l ls ih => simp [Along,ih,and_assoc]

/-- A condition holds along a run iff it holds at each of its steps. -/
theorem along_iff {s : S} {ls : List L} : Along after ok s ls ↔
    ∀ pre l post, ls = pre ++ l :: post → ok (run after s pre) l := by
  constructor
  · rintro h pre l post rfl
    exact (along_append.mp h).2.1
  · intro h
    induction ls generalizing s with
    | nil => trivial
    | cons l ls ih =>
      refine ⟨h [] l ls rfl,ih ?_⟩
      intro pre k post hls
      exact h (l :: pre) k post (congrArg (l :: ·) hls)

theorem Along.mono {ok' : S → L → Prop} (h : ∀ s l, ok s l → ok' s l) {s : S} {ls : List L}
    (hs : Along after ok s ls) : Along after ok' s ls :=
  along_iff.mpr fun pre l post hls => h _ _ (along_iff.mp hs pre l post hls)

/-- What every admissible step preserves holds after every run of such steps. -/
theorem Along.invariant {inv : S → Prop} (hstep : ∀ s l, inv s → ok s l → inv (after s l)) {s : S} {ls : List L}
    (hs : Along after ok s ls) (hinv : inv s) : inv (run after s ls) := by
  induction ls generalizing s with
  | nil => exact hinv
  | cons l ls ih => exact ih hs.2 (hstep s l hinv hs.1)

/-- If every admissible step is matched by steps of an abstract system, so is every run. -/
theorem Along.refines {astep : A → A → Prop} {R : S → A → Prop}
    (hstep : ∀ s l a, R s a → ok s l → ∃ b, Relation.ReflTransGen astep a b ∧ R (after s l) b)
    {s : S} {a : A} {ls : List L} (hs : Along after ok s ls) (hr : R s a) :
    ∃ b, Relation.ReflTransGen astep a b ∧ R (run after s ls) b := by
  induction ls generalizing s a with
  | nil => exact ⟨a,.refl,hr⟩
  | cons l ls ih =>
    obtain ⟨b,hab,hb⟩ := hstep s l a hr hs.1
    obtain ⟨c,hbc,hc⟩ := ih hs.2 hb
    exact ⟨c,hab.trans hbc,hc⟩

end ShardVPN.Effect
