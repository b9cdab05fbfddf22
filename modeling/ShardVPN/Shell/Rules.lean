import ShardVPN.Shell.Semantics

/-! # Rules for shell scripts

A triple says what holds after a command in each of the ways it can be left. There is
one rule for each kind of command; a loop is proved with an invariant.
-/
namespace ShardVPN.Shell

/-- What holds after a command, for each way of leaving it. -/
structure Post where
  done : ℕ → State → Prop
  left : State → Prop
  ended : State → Prop

def Post.holds (Q : Post) : Flow × State → Prop
  | (.done status,s) => Q.done status s
  | (.left,s) => Q.left s
  | (.ended _,s) => Q.ended s

/-- From a state with `P`, the command is left as `Q` says. -/
structure Triple (host : Host) (P : State → Prop) (c : Cmd) (plain : Bool) (Q : Post) : Prop where
  holds : ∀ s, P s → Q.holds (exec host c plain s)

variable {host : Host} {P R : State → Prop} {plain : Bool} {c d : Cmd} {Q Q' : Post}

theorem Triple.mono (h : Triple host P c plain Q) (hpre : ∀ s, R s → P s)
    (hdone : ∀ status s, Q.done status s → Q'.done status s) (hleft : ∀ s, Q.left s → Q'.left s)
    (hended : ∀ s, Q.ended s → Q'.ended s) : Triple host R c plain Q' := by
  refine ⟨fun s hs => ?_⟩
  have hq := h.holds s (hpre s hs)
  cases hr : exec host c plain s with
  | mk flow t =>
    rw [hr] at hq
    cases flow with
    | done status => exact hdone status t hq
    | left => exact hleft t hq
    | ended status => exact hended t hq

theorem Triple.pre (h : Triple host P c plain Q) (hpre : ∀ s, R s → P s) : Triple host R c plain Q :=
  ⟨fun s hs => h.holds s (hpre s hs)⟩

theorem Triple.skip (h : ∀ s, P s → Q.done 0 s) : Triple host P .skip plain Q := ⟨h⟩

theorem Triple.assign {name value : Str} (h : ∀ s, P s → Q.done 0 (s.set name value)) :
    Triple host P (.assign name value) plain Q := ⟨h⟩

theorem Triple.leave (h : ∀ s, P s → Q.left s) : Triple host P .leave plain Q := ⟨h⟩

theorem Triple.exit {status : ℕ} (h : ∀ s, P s → Q.ended s) : Triple host P (.exit status) plain Q := ⟨h⟩

/-- A program runs; what follows depends on its status, and if it runs plainly a failure is the end. -/
theorem Triple.call {argv : List Str}
    (hdone : ∀ s, P s → (plain = true → (s.answer host argv []).1 = 0) →
      Q.done (s.answer host argv []).1 (s.push host argv [] plain))
    (hended : ∀ s, P s → plain = true → (s.answer host argv []).1 ≠ 0 → Q.ended (s.push host argv [] plain)) :
    Triple host P (.call argv) plain Q := by
  refine ⟨fun s hs => ?_⟩
  unfold exec finish
  by_cases hfails : plain = true ∧ (s.answer host argv []).1 ≠ 0
  · rw [if_pos hfails]
    exact hended s hs hfails.1 hfails.2
  · rw [if_neg hfails]
    exact hdone s hs fun hplain => not_not.mp fun hne => hfails ⟨hplain,hne⟩

/-- A pipeline whose status is looked at succeeds if both programs do. -/
theorem Triple.pipe {first second : List Str}
    (hok : ∀ s, P s → (s.answer host first []).1 = 0 →
      ((s.push host first [] false).answer host second (s.answer host first []).2).1 = 0 →
      Q.done 0 ((s.push host first [] false).push host second (s.answer host first []).2 false))
    (hfails : ∀ s, P s → ∀ status, status ≠ 0 →
      Q.done status ((s.push host first [] false).push host second (s.answer host first []).2 false)) :
    Triple host P (.pipe first second) false Q := by
  refine ⟨fun s hs => ?_⟩
  unfold exec finish
  dsimp only
  rw [if_neg (by simp)]
  by_cases hsecond : ((s.push host first [] false).answer host second (s.answer host first []).2).1 = 0
  · rw [if_pos hsecond]
    by_cases hfirst : (s.answer host first []).1 = 0
    · rw [hfirst]
      exact hok s hs hfirst hsecond
    · exact hfails s hs _ hfirst
  · rw [if_neg hsecond]
    exact hfails s hs _ hsecond

/-- A comparison whose status is looked at. -/
theorem Triple.differ {a b : Arg}
    (h : ∀ s, P s → ∃ v w t u, a.value host s = (some v,t) ∧ b.value host t = (some w,u) ∧
      Q.done (if v = w then 1 else 0) u) : Triple host P (.differ a b) false Q := by
  refine ⟨fun s hs => ?_⟩
  obtain ⟨v,w,t,u,ha,hb,hq⟩ := h s hs
  unfold exec finish
  simp only [ha,hb]
  rw [if_neg (by simp)]
  exact hq

theorem Triple.not (h : Triple host P c false
    { done := fun status s => Q.done (if status = 0 then 1 else 0) s, left := Q.left, ended := Q.ended }) :
    Triple host P (.not c) plain Q := by
  refine ⟨fun s hs => ?_⟩
  have hc := h.holds s hs
  unfold exec
  cases hr : exec host c false s with
  | mk flow t =>
    rw [hr] at hc
    cases flow <;> exact hc

theorem Triple.or (hc : Triple host P c false
      { done := fun status s => if status = 0 then Q.done 0 s else R s, left := Q.left, ended := Q.ended })
    (hd : Triple host R d plain Q) : Triple host P (.or c d) plain Q := by
  refine ⟨fun s hs => ?_⟩
  have hq := hc.holds s hs
  unfold exec
  cases hr : exec host c false s with
  | mk flow t =>
    rw [hr] at hq
    cases flow with
    | done status =>
      by_cases hzero : status = 0
      · have hdone : Q.done 0 t := (if_pos hzero).mp hq
        simpa only [hzero,↓reduceIte,Post.holds] using hdone
      · have hrest : R t := (if_neg hzero).mp hq
        simpa only [hzero,↓reduceIte] using hd.holds t hrest
    | left => exact hq
    | ended status => exact hq

theorem Triple.seq (hc : Triple host P c plain { done := fun _ => R, left := Q.left, ended := Q.ended })
    (hd : Triple host R d plain Q) : Triple host P (.seq c d) plain Q := by
  refine ⟨fun s hs => ?_⟩
  have hq := hc.holds s hs
  unfold exec
  cases hr : exec host c plain s with
  | mk flow t =>
    rw [hr] at hq
    cases flow with
    | done status => exact hd.holds t hq
    | left => exact hq
    | ended status => exact hq

theorem Triple.ifThen (hc : Triple host P c false
      { done := fun status s => if status = 0 then R s else Q.done 0 s, left := Q.left, ended := Q.ended })
    (hd : Triple host R d plain Q) : Triple host P (.ifThen c d) plain Q := by
  refine ⟨fun s hs => ?_⟩
  have hq := hc.holds s hs
  unfold exec
  cases hr : exec host c false s with
  | mk flow t =>
    rw [hr] at hq
    cases flow with
    | done status =>
      by_cases hzero : status = 0
      · have hbody : R t := (if_pos hzero).mp hq
        simpa only [hzero,↓reduceIte] using hd.holds t hbody
      · have hdone : Q.done 0 t := (if_neg hzero).mp hq
        simpa only [hzero,↓reduceIte,Post.holds] using hdone
    | left => exact hq
    | ended status => exact hq

/-- What every round keeps holds after all of them, however many there are. -/
theorem iterate_invariant {name : Str} {I : State → Prop}
    (hbody : Triple host (fun s => ∃ t word, I t ∧ s = t.set name word) c plain
      { done := fun _ => I, left := Q.done 0, ended := Q.ended })
    (hdone : ∀ status s, I s → Q.done status s) (words : List Str) (status : ℕ) (s : State) (hs : I s) :
    Q.holds (iterate name (exec host c plain) status words s) := by
  induction words generalizing status s with
  | nil => exact hdone status s hs
  | cons word words ih =>
    have hq := hbody.holds (s.set name word) ⟨s,word,hs,rfl⟩
    unfold iterate
    cases hr : exec host c plain (s.set name word) with
    | mk flow t =>
      rw [hr] at hq
      cases flow with
      | done status' => exact ih status' t hq
      | left => exact hq
      | ended status' => exact hq

theorem Triple.forIn {name : Str} {words : List Str} {I : State → Prop}
    (hstart : ∀ s, P s → I (s.push host words [] false))
    (hbody : Triple host (fun s => ∃ t word, I t ∧ s = t.set name word) c plain
      { done := fun _ => I, left := Q.done 0, ended := Q.ended })
    (hdone : ∀ status s, I s → Q.done status s) : Triple host P (.forIn name words c) plain Q :=
  ⟨fun s hs => iterate_invariant hbody hdone _ 0 _ (hstart s hs)⟩

end ShardVPN.Shell
