import ShardVPN.Text.Basic

/-! # The words of a simple command

How the shell reads a line into words: blanks separate them, double quotes and
backslashes keep characters together, and a backslash before a newline joins lines. The
reader gives up where something would be expanded, redirected or run.
-/
namespace ShardVPN.Shell

inductive Mode
  | bare
  | escape
  | quoted
  | quotedEscape
  | over
  | stuck
deriving DecidableEq

/-- The words read so far and the one that is being read. -/
structure Reader where
  mode : Mode
  words : List Text
  word : Option Text
deriving DecidableEq

namespace Reader

def add (r : Reader) (mode : Mode) (t : Text) : Reader := ⟨mode,r.words,some (r.word.getD [] ++ t)⟩

def endWord (r : Reader) (mode : Mode) : Reader := ⟨mode,r.words ++ r.word.toList,none⟩

/-- Unquoted, these quote, expand, match, redirect or end what comes before them. -/
def special (c : CodePoint) : Bool := c ∈ text "|&;()<>$\x60'*?[]\x7b\x7d~#!="

/-- A simple command starts without an assignment, so an equals sign is safe after the first character of a word. -/
def stops (r : Reader) (c : CodePoint) : Bool := special c && !(c = 61 && r.word ≠ none && r.words ≠ [])

def step (r : Reader) (c : CodePoint) : Reader :=
  match r.mode with
  | .bare =>
    if c = 10 then r.endWord .over
    else if c = 32 ∨ c = 9 then r.endWord .bare
    else if c = 34 then r.add .quoted []
    else if c = 92 then { r with mode := .escape }
    else if r.stops c then { r with mode := .stuck }
    else r.add .bare [c]
  | .escape => if c = 10 then { r with mode := .bare } else r.add .bare [c]
  | .quoted =>
    if c = 34 then { r with mode := .bare }
    else if c = 92 then { r with mode := .quotedEscape }
    else if c = 36 ∨ c = 96 then { r with mode := .stuck }
    else r.add .quoted [c]
  | .quotedEscape =>
    if c = 10 then { r with mode := .quoted }
    else if c ∈ [36,96,34,92] then r.add .quoted [c]
    else r.add .quoted [92,c]
  | .over => r
  | .stuck => r

end Reader

/-- The words of the command that a text starts with. -/
def readCommand (t : Text) : Option (List Text) :=
  let r := t.foldl Reader.step ⟨.bare,[],none⟩
  if r.mode = .over then some r.words else none

/-- Nothing in the text means anything between double quotes. -/
def Literal (t : Text) : Prop := ∀ c ∈ t, c ≠ 34 ∧ c ≠ 92 ∧ c ≠ 36 ∧ c ≠ 96

instance literalDecidable (t : Text) : Decidable (Literal t) := List.decidableBAll _ t

/-- A literal text between double quotes is read as it is. -/
theorem foldl_literal {t : Text} (h : Literal t) (ws : List Text) (w : Text) :
    t.foldl Reader.step ⟨.quoted,ws,some w⟩ = ⟨.quoted,ws,some (w ++ t)⟩ := by
  induction t generalizing w with
  | nil => simp
  | cons c t ih =>
    obtain ⟨hquote,hslash,hdollar,htick⟩ := h c List.mem_cons_self
    have hstep : Reader.step ⟨.quoted,ws,some w⟩ c = ⟨.quoted,ws,some (w ++ [c])⟩ := by
      simp [Reader.step,Reader.add,hquote,hslash,hdollar,htick]
    rw [List.foldl_cons,hstep,ih fun d hd => h d (List.mem_cons_of_mem _ hd),List.append_assoc]
    rfl

/-- The words before do not matter to a step, once there are some. -/
theorem step_words (m : Mode) (xs : List Text) (w : Option Text) (c : CodePoint) :
    ∃ n ds v, ∀ ws : List Text, ws ≠ [] → Reader.step ⟨m,ws ++ xs,w⟩ c = ⟨n,ws ++ (xs ++ ds),v⟩ := by
  have hstops : ∀ ws : List Text, ws ≠ [] → Reader.stops ⟨m,ws ++ xs,w⟩ c =
      (Reader.special c && !(c = 61 && w ≠ none)) := by
    intro ws hws
    simp [Reader.stops,hws]
  have hfirst := hstops [[]] (by simp)
  have hdrop : ∀ us : List Text, (xs ++ us).drop xs.length = us := fun us => List.drop_left
  let r := Reader.step ⟨m,[[]] ++ xs,w⟩ c
  refine ⟨r.mode,r.words.drop (xs.length + 1),r.word,fun ws hws => ?_⟩
  unfold r Reader.step
  cases m <;> simp only [hstops ws hws,hfirst] <;> (try split_ifs) <;> simp [Reader.add,Reader.endWord,hdrop]

theorem foldl_words (t : Text) (m : Mode) (xs : List Text) (w : Option Text) :
    ∃ n ds v, ∀ ws : List Text, ws ≠ [] → t.foldl Reader.step ⟨m,ws ++ xs,w⟩ = ⟨n,ws ++ (xs ++ ds),v⟩ := by
  induction t generalizing m xs w with
  | nil => exact ⟨m,[],w,fun ws _ => by simp⟩
  | cons c t ih =>
    obtain ⟨n,ds,v,hstep⟩ := step_words m xs w c
    obtain ⟨n',ds',v',hfold⟩ := ih n (xs ++ ds) v
    refine ⟨n',ds ++ ds',v',fun ws hws => ?_⟩
    rw [List.foldl_cons,hstep ws hws,hfold ws hws,List.append_assoc]

/-- What is read after one word is read after any. -/
theorem foldl_after {t : Text} {m n : Mode} {w v : Option Text} {us : List Text}
    (h : t.foldl Reader.step ⟨m,[[]],w⟩ = ⟨n,[] :: us,v⟩) {ws : List Text} (hws : ws ≠ []) :
    t.foldl Reader.step ⟨m,ws,w⟩ = ⟨n,ws ++ us,v⟩ := by
  obtain ⟨n',ds,v',hfold⟩ := foldl_words t m [] w
  have hone := (hfold [[]] (by simp)).symm.trans h
  simp only [List.nil_append,List.cons_append,Reader.mk.injEq,List.cons.injEq,true_and] at hone
  obtain ⟨rfl,rfl,rfl⟩ := hone
  simpa using hfold ws hws

/-- What follows the command is not read. -/
theorem foldl_over (ws : List Text) (w : Option Text) (t : Text) :
    t.foldl Reader.step ⟨.over,ws,w⟩ = ⟨.over,ws,w⟩ := by
  induction t with
  | nil => rfl
  | cons c t ih => exact ih

end ShardVPN.Shell
