import Mathlib.Data.List.Forall2
import Mathlib.Data.List.Induction
import ShardVPN.Shell.Rules

/-! # Traps on errors

Simple commands that run while a trap on errors is set: the first that fails runs the
trap, and the script is over. However a command is left, it has only run programs of its
own, after all that had run before.
-/
namespace ShardVPN.Shell

/-! ## The programs of a command -/

def Arg.programs : Arg → List (List Str)
  | .lit _ => []
  | .var _ => []
  | .output argv => [argv]

/-- The programs that a command may run. -/
def Cmd.programs : Cmd → List (List Str)
  | .call argv => [argv]
  | .pipe first second => [first,second]
  | .differ a b => a.programs ++ b.programs
  | .not c => c.programs
  | .or c d => c.programs ++ d.programs
  | .seq c d => c.programs ++ d.programs
  | .ifThen condition body => condition.programs ++ body.programs
  | .forIn _ words body => words :: body.programs
  | _ => []

/-- Only these programs have run in between. -/
def Grows (programs : List (List Str)) (s t : State) : Prop :=
  ∃ es, t.ran = s.ran ++ es ∧ ∀ e ∈ es, e.argv ∈ programs

section
variable {host : Host} {ps qs : List (List Str)} {s t u : State} {plain : Bool}

theorem Grows.refl (ps : List (List Str)) (s : State) : Grows ps s s :=
  ⟨[],(List.append_nil _).symm,fun _ he => by cases he⟩

theorem Grows.trans (h : Grows ps s t) (k : Grows ps t u) : Grows ps s u := by
  obtain ⟨xs,hxs,hx⟩ := h
  obtain ⟨ys,hys,hy⟩ := k
  refine ⟨xs ++ ys,by rw [hys,hxs,List.append_assoc],fun e he => ?_⟩
  rcases List.mem_append.mp he with he | he
  · exact hx e he
  · exact hy e he

theorem Grows.mono (h : Grows ps s t) (hsub : ps ⊆ qs) : Grows qs s t := by
  obtain ⟨es,hes,he⟩ := h
  exact ⟨es,hes,fun e hmem => hsub (he e hmem)⟩

theorem Grows.push {argv : List Str} (h : argv ∈ ps) (stdin : Str) : Grows ps s (s.push host argv stdin plain) :=
  ⟨_,rfl,fun _ he => by rwa [List.mem_singleton.mp he]⟩

theorem Grows.set (h : Grows ps s t) (name value : Str) : Grows ps s (t.set name value) := h

theorem value_grows (host : Host) (a : Arg) (s : State) : Grows a.programs s (a.value host s).2 := by
  cases a with
  | lit value => exact .refl _ _
  | var name => exact .refl _ _
  | output argv => exact .push List.mem_cons_self _

/-- Rounds of a loop run programs of its body. -/
theorem iterate_grows {name : Str} {body : State → Flow × State} (h : ∀ s, Grows ps s (body s).2) (words : List Str)
    (status : ℕ) (s : State) : Grows ps s (iterate name body status words s).2 := by
  induction words generalizing status s with
  | nil => exact .refl _ _
  | cons word words ih =>
    have hbody : Grows ps s (body (s.set name word)).2 := h (s.set name word)
    unfold iterate
    cases hr : body (s.set name word) with
    | mk flow t =>
      rw [hr] at hbody
      cases flow with
      | done status' => exact hbody.trans (ih status' t)
      | left => exact hbody
      | ended status' => exact hbody

/-- A command runs programs of its own, after what had run before. -/
theorem exec_grows (host : Host) (c : Cmd) (plain : Bool) (s : State) : Grows c.programs s (exec host c plain s).2 := by
  induction c generalizing plain s with
  | skip => exact .refl _ _
  | call argv => exact .push List.mem_cons_self _
  | pipe first second =>
    have hfirst : Grows [first,second] s (s.push host first [] plain) := .push List.mem_cons_self _
    exact hfirst.trans (.push (List.mem_cons_of_mem _ List.mem_cons_self) _)
  | differ a b =>
    have ha := (value_grows host a s).mono (List.subset_append_left a.programs b.programs)
    have hb := fun t => (value_grows host b t).mono (List.subset_append_right a.programs b.programs)
    unfold exec
    split
    · rename_i t hvalue
      rw [hvalue] at ha
      exact ha
    · rename_i v t hvalue
      rw [hvalue] at ha
      have htail := ha.trans (hb t)
      split
      · rename_i u hvalue'
        rw [hvalue'] at htail
        exact htail
      · rename_i w u hvalue'
        rw [hvalue'] at htail
        exact htail
  | assign name value => exact (Grows.refl _ s).set name value
  | not c ih =>
    have hc := ih false s
    unfold exec
    cases hr : exec host c false s with
    | mk flow t =>
      rw [hr] at hc
      cases flow <;> exact hc
  | or c d ihc ihd =>
    have hc := (ihc false s).mono (List.subset_append_left c.programs d.programs)
    have hd := fun t => (ihd plain t).mono (List.subset_append_right c.programs d.programs)
    unfold exec
    cases hr : exec host c false s with
    | mk flow t =>
      rw [hr] at hc
      cases flow with
      | done status =>
        dsimp only
        split
        · exact hc
        · exact hc.trans (hd t)
      | left => exact hc
      | ended status => exact hc
  | seq c d ihc ihd =>
    have hc := (ihc plain s).mono (List.subset_append_left c.programs d.programs)
    have hd := fun t => (ihd plain t).mono (List.subset_append_right c.programs d.programs)
    unfold exec
    cases hr : exec host c plain s with
    | mk flow t =>
      rw [hr] at hc
      cases flow with
      | done status => exact hc.trans (hd t)
      | left => exact hc
      | ended status => exact hc
  | ifThen condition body ihc ihd =>
    have hc := (ihc false s).mono (List.subset_append_left condition.programs body.programs)
    have hd := fun t => (ihd plain t).mono (List.subset_append_right condition.programs body.programs)
    unfold exec
    cases hr : exec host condition false s with
    | mk flow t =>
      rw [hr] at hc
      cases flow with
      | done status =>
        dsimp only
        split
        · exact hc.trans (hd t)
        · exact hc
      | left => exact hc
      | ended status => exact hc
  | forIn name words body ih =>
    have hwords : Grows (words :: body.programs) s (s.push host words [] false) := .push List.mem_cons_self _
    exact hwords.trans (iterate_grows (fun t => (ih plain t).mono (List.subset_cons_self _ _)) _ _ _)
  | leave => exact .refl _ _
  | exit status => exact .refl _ _

end

/-! ## More rules -/

section
variable {host : Host} {P P' I : State → Prop} {c : Cmd} {plain : Bool} {Q Q' : Post}

/-- What the programs of a command cannot change. -/
theorem Triple.grows (h : ∀ s t, I s → Grows c.programs s t → I t) :
    Triple host I c plain { done := fun _ => I, left := I, ended := I } := by
  refine ⟨fun s hs => ?_⟩
  have hI := h s _ hs (exec_grows host c plain s)
  cases hr : exec host c plain s with
  | mk flow t =>
    rw [hr] at hI
    cases flow <;> exact hI

/-- What holds however the command is left. -/
theorem Triple.final (h : Triple host P c plain { done := fun _ => I, left := I, ended := I }) {s : State} (hs : P s) :
    I (exec host c plain s).2 := by
  have hI := h.holds s hs
  cases hr : exec host c plain s with
  | mk flow t =>
    rw [hr] at hI
    cases flow <;> exact hI

theorem Triple.and (h : Triple host P c plain Q) (k : Triple host P' c plain Q') : Triple host (fun s => P s ∧ P' s) c plain
    { done := fun status s => Q.done status s ∧ Q'.done status s, left := fun s => Q.left s ∧ Q'.left s
      ended := fun s => Q.ended s ∧ Q'.ended s } := by
  refine ⟨fun s hs => ?_⟩
  have hQ := h.holds s hs.1
  have hQ' := k.holds s hs.2
  cases hr : exec host c plain s with
  | mk flow t =>
    rw [hr] at hQ hQ'
    cases flow <;> exact ⟨hQ,hQ'⟩

end

/-! ## What comes before a program -/

/-- Whenever one of these programs runs, what has run before it meets the condition. -/
def Preceded (p : Ran → Prop) (before : List Ran → Prop) (ran : List Ran) : Prop :=
  ∀ pre e post, ran = pre ++ e :: post → p e → before pre

section
variable {p : Ran → Prop} {before : List Ran → Prop} {ran es : List Ran} {e : Ran}

theorem preceded_nil : Preceded p before [] := fun pre e post h _ => by simp at h

theorem Preceded.concat (h : Preceded p before ran) (he : p e → before ran) : Preceded p before (ran ++ [e]) := by
  intro pre f post hsplit hf
  rcases List.eq_nil_or_concat post with rfl | ⟨post,g,rfl⟩
  · obtain ⟨rfl,heq⟩ := List.append_inj' hsplit rfl
    obtain rfl := List.singleton_inj.mp heq
    exact he hf
  · have hinit : ran ++ [e] = (pre ++ f :: post) ++ [g] := hsplit.trans (by simp)
    exact h pre f post (List.append_inj' hinit rfl).1 hf

theorem Preceded.append (h : Preceded p before ran) (hes : ∀ e ∈ es, ¬p e) : Preceded p before (ran ++ es) := by
  induction es using List.reverseRecOn with
  | nil => simpa using h
  | append_singleton es e ih =>
    have he : ¬p e := hes e (List.mem_append_right _ List.mem_cons_self)
    rw [← List.append_assoc]
    exact (ih fun f hf => hes f (List.mem_append_left _ hf)).concat fun hp => absurd hp he

end

/-! ## The trap -/

/-- A simple command: its words, and the document that it reads. -/
structure Simple where
  argv : List Str
  document : Str
deriving DecidableEq

/-- Simple commands one after the other; the first that fails is the last, and the trap is run. -/
def guarded (host : Host) (trap : Cmd) : List Simple → State → Flow × State
  | [],s => (.done 0,s)
  | c :: cs,s =>
    let status := (s.answer host c.argv c.document).1
    let t := s.push host c.argv c.document true
    if status = 0 then guarded host trap cs t
    else match exec host trap true t with
      | (.ended status,u) => (.ended status,u)
      | (_,u) => (.ended status,u)

/-- The record of a program that runs now. -/
def State.record (host : Host) (s : State) (argv : List Str) (stdin : Str) (plain : Bool) : Ran :=
  ⟨argv,stdin,(s.answer host argv stdin).1,(s.answer host argv stdin).2,plain⟩

/-- The commands ran in this order and succeeded. -/
def Performed (cs : List Simple) (es : List Ran) : Prop :=
  List.Forall₂ (fun c e => e.argv = c.argv ∧ e.stdin = c.document ∧ e.status = 0) cs es

theorem Performed.succeeded {cs : List Simple} {es : List Ran} (h : Performed cs es) :
    ∀ e ∈ es, e.argv ∈ cs.map Simple.argv ∧ e.status = 0 := by
  induction h with
  | nil => exact fun _ he => by cases he
  | cons hc _ ih =>
    intro e he
    rcases List.mem_cons.mp he with rfl | he
    · exact ⟨List.mem_cons.mpr (Or.inl hc.1),hc.2.2⟩
    · exact ⟨List.mem_cons_of_mem _ (ih e he).1,(ih e he).2⟩

/-- Where the commands end: all of them succeeded, or one failed and the trap ran right after it. -/
inductive Guarded (host : Host) (trap : Cmd) (s : State) : List Simple → Flow × State → Prop
  | all {cs : List Simple} {es : List Ran} {t : State} (hran : t.ran = s.ran ++ es) (hes : Performed cs es) :
    Guarded host trap s cs (.done 0,t)
  | trapped (before after : List Simple) (c : Simple) (status : ℕ) {es : List Ran} {e : Ran} {t : State}
    (hran : t.ran = s.ran ++ es ++ [e]) (hes : Performed before es) (he : e.argv = c.argv) (hfails : e.status ≠ 0) :
    Guarded host trap s (before ++ c :: after) (.ended status,(exec host trap true t).2)

theorem guarded_cases (host : Host) (trap : Cmd) (cs : List Simple) (s : State) :
    Guarded host trap s cs (guarded host trap cs s) := by
  induction cs generalizing s with
  | nil => exact .all (List.append_nil _).symm .nil
  | cons c cs ih =>
    have hpush : ∀ xs, (s.push host c.argv c.document true).ran ++ xs =
        s.ran ++ (s.record host c.argv c.document true :: xs) := fun xs => List.append_assoc _ _ _
    unfold guarded
    dsimp only
    split
    · rename_i hok
      have hrest := ih (s.push host c.argv c.document true)
      generalize guarded host trap cs (s.push host c.argv c.document true) = r at hrest ⊢
      cases hrest with
      | all hran hes =>
        rw [hpush] at hran
        exact .all hran (.cons ⟨rfl,rfl,hok⟩ hes)
      | trapped before after d status hran hes he hfails =>
        rw [hpush] at hran
        exact .trapped (c :: before) after d status hran (.cons ⟨rfl,rfl,hok⟩ hes) he hfails
    · rename_i hfails
      have htrapped : ∀ status, Guarded host trap s (c :: cs)
          (.ended status,(exec host trap true (s.push host c.argv c.document true)).2) := by
        intro status
        refine .trapped (e := s.record host c.argv c.document true) [] cs c status ?_ .nil rfl hfails
        rw [List.append_nil]
        rfl
      cases hr : exec host trap true (s.push host c.argv c.document true) with
      | mk flow t =>
        rw [hr] at htrapped
        cases flow <;> exact htrapped _

end ShardVPN.Shell
