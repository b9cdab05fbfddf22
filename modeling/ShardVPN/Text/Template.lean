import ShardVPN.Text.Basic

/-! # Templates with placeholders

`string.Template` with its default pattern: `$name` and `${name}` are placeholders, `$$`
is a dollar, and any other dollar stands for itself. A safe substitution leaves alone
what it has no value for, and it does not look into the values.
-/
namespace ShardVPN.Template

/-- A code point that stays, a doubled dollar, or a placeholder as it is spelled. -/
inductive Piece
  | lit (c : CodePoint)
  | dollar
  | name (braced : Bool) (identifier : Text)
deriving DecidableEq

def Piece.source : Piece → Text
  | .lit c => [c]
  | .dollar => [36,36]
  | .name false identifier => 36 :: identifier
  | .name true identifier => 36 :: 123 :: (identifier ++ [125])

def Piece.safe (values : Text → Option Text) : Piece → Text
  | .lit c => [c]
  | .dollar => [36]
  | .name braced identifier => (values identifier).getD (Piece.name braced identifier).source

/-- Where a reader of the template is, with the identifier so far. -/
inductive Place
  | plain
  | dollar
  | named (identifier : Text)
  | braced (identifier : Text)
deriving DecidableEq

/-- What has been read and is not yet a piece. -/
def Place.source : Place → Text
  | .plain => []
  | .dollar => [36]
  | .named identifier => 36 :: identifier
  | .braced identifier => 36 :: 123 :: identifier

/-- The template ends here. -/
def Place.finish : Place → List Piece
  | .named identifier => [.name false identifier]
  | p => p.source.map .lit

def isIdentifierStart (c : CodePoint) : Bool := c = 95 || inRange 65 90 c || inRange 97 122 c

/-- The identifier goes on with the code point. -/
def goesOn (identifier : Text) (c : CodePoint) : Bool :=
  isIdentifierStart c || identifier ≠ [] && inRange 48 57 c

def resume (c : CodePoint) : List Piece × Place := if c = 36 then ([],.dollar) else ([.lit c],.plain)

def step : Place → CodePoint → List Piece × Place
  | .plain,c => resume c
  | .dollar,c =>
    if c = 36 then ([.dollar],.plain)
    else if c = 123 then ([],.braced [])
    else if goesOn [] c then ([],.named [c])
    else ([.lit 36,.lit c],.plain)
  | .named identifier,c =>
    if goesOn identifier c then ([],.named (identifier ++ [c]))
    else (.name false identifier :: (resume c).1,(resume c).2)
  | .braced identifier,c =>
    if goesOn identifier c then ([],.braced (identifier ++ [c]))
    else if identifier ≠ [] ∧ c = 125 then ([.name true identifier],.plain)
    else ((Place.braced identifier).source.map .lit ++ (resume c).1,(resume c).2)

def scan : Place → Text → List Piece × Place
  | p,[] => ([],p)
  | p,c :: t => ((step p c).1 ++ (scan (step p c).2 t).1,(scan (step p c).2 t).2)

def pieces (t : Text) : List Piece := (scan .plain t).1 ++ (scan .plain t).2.finish

/-- `Template(template).safe_substitute(values)`. -/
def safeSubstitute (values : Text → Option Text) (template : Text) : Text :=
  (pieces template).flatMap (·.safe values)

/-! ## Reading a template -/

theorem scan_append (p : Place) (s t : Text) :
    scan p (s ++ t) = ((scan p s).1 ++ (scan (scan p s).2 t).1,(scan (scan p s).2 t).2) := by
  induction s generalizing p with
  | nil => rfl
  | cons c s ih => simp [scan,ih]

theorem flatMap_lit (t : Text) : (t.map Piece.lit).flatMap Piece.source = t := by
  induction t with
  | nil => rfl
  | cons c t ih => simpa [Piece.source] using ih

theorem resume_source (c : CodePoint) : (resume c).1.flatMap Piece.source ++ (resume c).2.source = [c] := by
  unfold resume
  split
  · rename_i h
    rw [h]
    rfl
  · rfl

/-- One code point is read as it is. -/
theorem step_source (p : Place) (c : CodePoint) :
    (step p c).1.flatMap Piece.source ++ (step p c).2.source = p.source ++ [c] := by
  have hresume := resume_source c
  cases p with
  | plain => exact hresume
  | dollar =>
    simp only [step]
    split_ifs with h₁ h₂
    · rw [h₁]
      rfl
    · rw [h₂]
      rfl
    · rfl
    · rfl
  | named identifier =>
    simp only [step]
    split_ifs
    · rfl
    · rw [List.flatMap_cons,List.append_assoc,hresume]
      rfl
  | braced identifier =>
    simp only [step]
    split_ifs with h₁ h₂
    · rfl
    · rw [h₂.2]
      simp [Piece.source,Place.source]
    · rw [List.flatMap_append,flatMap_lit,List.append_assoc,hresume]

theorem scan_source (p : Place) (t : Text) : (scan p t).1.flatMap Piece.source ++ (scan p t).2.source = p.source ++ t := by
  induction t generalizing p with
  | nil => simp [scan]
  | cons c t ih =>
    have hstep := step_source p c
    have hrest := ih (step p c).2
    simp only [scan,List.flatMap_append,List.append_assoc]
    rw [hrest,← List.append_assoc,hstep,List.append_assoc]
    rfl

/-! ## Substituting -/

/-- A piece that stands for itself as long as there are values for these names only. -/
def Piece.inert (names : List Text) : Piece → Bool
  | .lit _ => true
  | .dollar => false
  | .name _ identifier => identifier ∉ names

/-- A text between the placeholders that have values. -/
def Inert (names : List Text) (t : Text) : Prop :=
  (scan .plain t).2 = .plain ∧ ∀ p ∈ (scan .plain t).1, p.inert names = true

instance inertDecidable (names : List Text) (t : Text) : Decidable (Inert names t) := inferInstanceAs (Decidable (_ ∧ _))

section
variable {names : List Text} {values : Text → Option Text} {s t : Text}

theorem inert_nil : Inert names [] := ⟨rfl,fun _ h => by cases h⟩

theorem Inert.append (hs : Inert names s) (ht : Inert names t) : Inert names (s ++ t) := by
  unfold Inert
  rw [scan_append,hs.1]
  refine ⟨ht.1,fun p hp => ?_⟩
  rcases List.mem_append.mp hp with hp | hp
  · exact hs.2 p hp
  · exact ht.2 p hp

theorem Inert.flatMap {α : Type} {f : α → Text} {xs : List α} (h : ∀ x ∈ xs, Inert names (f x)) :
    Inert names (xs.flatMap f) := by
  induction xs with
  | nil => exact inert_nil
  | cons x xs ih =>
    rw [List.flatMap_cons]
    exact (h x List.mem_cons_self).append (ih fun y hy => h y (List.mem_cons_of_mem _ hy))

theorem inert_literal {cs : List Char} (h : Inert names (cs.map codePoint)) : Inert names (text (String.ofList cs)) := by
  rwa [text_ofList]

theorem Piece.safe_of_inert (h : ∀ n, n ∉ names → values n = none) {p : Piece} (hp : p.inert names = true) :
    p.safe values = p.source := by
  cases p with
  | lit c => rfl
  | dollar => cases hp
  | name braced identifier =>
    have hnone : values identifier = none := h identifier (of_decide_eq_true hp)
    simp [Piece.safe,hnone]

/-- The template up to the end of a piece is substituted by itself. -/
theorem safeSubstitute_scan {ps : List Piece} (h : scan .plain s = (ps,.plain)) :
    safeSubstitute values (s ++ t) = ps.flatMap (·.safe values) ++ safeSubstitute values t := by
  simp [safeSubstitute,pieces,scan_append,h]

/-- What is inert stays. -/
theorem safeSubstitute_inert (hvalues : ∀ n, n ∉ names → values n = none) (hs : Inert names s) :
    safeSubstitute values (s ++ t) = s ++ safeSubstitute values t := by
  have hsource := scan_source .plain s
  rw [hs.1] at hsource
  have hsafe : (scan .plain s).1.flatMap (·.safe values) = (scan .plain s).1.flatMap Piece.source :=
    List.flatMap_congr fun p hp => Piece.safe_of_inert hvalues (hs.2 p hp)
  rw [safeSubstitute_scan (Prod.ext rfl hs.1),hsafe]
  simpa [Place.source] using hsource

end

end ShardVPN.Template
