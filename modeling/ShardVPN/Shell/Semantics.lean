import Mathlib.Data.List.Basic
import Mathlib.Data.Nat.Notation

/-! # Shell scripts under errexit

The fragment of the shell language that a script under `set -euo pipefail` needs. A
command that fails ends the script unless its status is looked at: in a condition,
before `||`, or under `!`. What programs answer is up to the host they run on.
-/
namespace ShardVPN.Shell

abbrev Str := List UInt8

/-- A program that has run; if it ran plainly, its failure ends the script. -/
structure Ran where
  argv : List Str
  stdin : Str
  status : ℕ
  output : Str
  plain : Bool
deriving DecidableEq

/-- What a program answers after what has run so far, and how an unquoted output is split. -/
structure Host where
  run : List Ran → List Str → Str → ℕ × Str
  expand : Str → List Str

/-- A quoted argument: a literal, a variable, or the output of a program. -/
inductive Arg
  | lit (value : Str)
  | var (name : Str)
  | output (argv : List Str)

inductive Cmd
  | skip
  | call (argv : List Str)
  | pipe (first second : List Str)
  | differ (a b : Arg)
  | assign (name value : Str)
  | not (c : Cmd)
  | or (c d : Cmd)
  | seq (c d : Cmd)
  | ifThen (condition body : Cmd)
  | forIn (name : Str) (words : List Str) (body : Cmd)
  | leave
  | exit (status : ℕ)

/-- Commands one after the other. -/
def Cmd.block : List Cmd → Cmd
  | [] => .skip
  | [c] => c
  | c :: cs => .seq c (block cs)

structure State where
  vars : Str → Option Str
  ran : List Ran

/-- How a command is left: with a status, out of the loop around it, or by the end of the script. -/
inductive Flow
  | done (status : ℕ)
  | left
  | ended (status : ℕ)
deriving DecidableEq

variable (host : Host)

/-- The answer of a program. -/
def State.answer (s : State) (argv : List Str) (stdin : Str) : ℕ × Str := host.run s.ran argv stdin

/-- The state after a program has run. -/
def State.push (s : State) (argv : List Str) (stdin : Str) (plain : Bool) : State :=
  { s with ran := s.ran ++ [⟨argv,stdin,(s.answer host argv stdin).1,(s.answer host argv stdin).2,plain⟩] }

def State.set (s : State) (name value : Str) : State :=
  { s with vars := fun n => if n = name then some value else s.vars n }

@[simp] theorem State.set_self (s : State) (name value : Str) : (s.set name value).vars name = some value :=
  if_pos rfl

theorem State.set_of_ne (s : State) {name other : Str} (value : Str) (h : other ≠ name) :
    (s.set name value).vars other = s.vars other := if_neg h

/-- A quoted substitution drops null bytes and the newlines at the end. -/
def trim (output : Str) : Str := ((output.filter (· ≠ 0)).reverse.dropWhile (· = 10)).reverse

/-- The value of an argument; an unset variable has none. -/
def Arg.value (s : State) : Arg → Option Str × State
  | .lit value => (some value,s)
  | .var name => (s.vars name,s)
  | .output argv => (some (trim (s.answer host argv []).2),s.push host argv [] false)

/-- A plain failure ends the script. -/
def finish (plain : Bool) (status : ℕ) : Flow := if plain = true ∧ status ≠ 0 then .ended status else .done status

/-- The body of a loop for one word after the other. -/
def iterate (name : Str) (body : State → Flow × State) : ℕ → List Str → State → Flow × State
  | status,[],s => (.done status,s)
  | _,word :: words,s => match body (s.set name word) with
    | (.done status,t) => iterate name body status words t
    | (.left,t) => (.done 0,t)
    | (.ended status,t) => (.ended status,t)

/-- Run a command, plainly or where its status is looked at. -/
def exec : Cmd → Bool → State → Flow × State
  | .skip,_,s => (.done 0,s)
  | .call argv,plain,s => (finish plain (s.answer host argv []).1,s.push host argv [] plain)
  | .pipe first second,plain,s =>
    let t := s.push host first [] plain
    let stdin := (s.answer host first []).2
    let status := if (t.answer host second stdin).1 = 0 then (s.answer host first []).1
      else (t.answer host second stdin).1
    (finish plain status,t.push host second stdin plain)
  | .differ a b,plain,s => match a.value host s with
    | (none,t) => (.ended 1,t)
    | (some v,t) => match b.value host t with
      | (none,u) => (.ended 1,u)
      | (some w,u) => (finish plain (if v = w then 1 else 0),u)
  | .assign name value,_,s => (.done 0,s.set name value)
  | .not c,_,s => match exec c false s with
    | (.done status,t) => (.done (if status = 0 then 1 else 0),t)
    | r => r
  | .or c d,plain,s => match exec c false s with
    | (.done status,t) => if status = 0 then (.done 0,t) else exec d plain t
    | r => r
  | .seq c d,plain,s => match exec c plain s with
    | (.done _,t) => exec d plain t
    | r => r
  | .ifThen condition body,plain,s => match exec condition false s with
    | (.done status,t) => if status = 0 then exec body plain t else (.done 0,t)
    | r => r
  | .forIn name words body,plain,s =>
    iterate name (exec body plain) 0 (host.expand (s.answer host words []).2) (s.push host words [] false)
  | .leave,_,s => (.left,s)
  | .exit status,_,s => (.ended status,s)

end ShardVPN.Shell
