import ShardVPN.Text.Codec

/-! # JSON values as the interpreter sees them

Objects keep their insertion order. A number with a fraction or an exponent keeps
the decimal value it is written with; its truth value is that of the binary64
number it rounds to.
-/
namespace ShardVPN

/-- `decimal m e` is the value m·10^e. -/
inductive PyFloat
  | decimal (m e : ℤ)
  | infinity (negative : Bool)
  | nan
deriving DecidableEq

inductive Json
  | null
  | bool (b : Bool)
  | int (n : ℤ)
  | float (x : PyFloat)
  | str (s : Text)
  | arr (items : List Json)
  | obj (fields : List (Text × Json))

abbrev Dict := List (Text × Json)

mutual

def Json.decEq : (a b : Json) → Decidable (a = b)
  | .null,.null => isTrue rfl
  | .bool a,.bool b => decidable_of_iff (a = b) (by simp)
  | .int a,.int b => decidable_of_iff (a = b) (by simp)
  | .float a,.float b => decidable_of_iff (a = b) (by simp)
  | .str a,.str b => decidable_of_iff (a = b) (by simp)
  | .arr a,.arr b =>
    match Json.decEqItems a b with
    | isTrue h => isTrue (by rw [h])
    | isFalse h => isFalse (fun he => h (Json.arr.inj he))
  | .obj a,.obj b =>
    match Json.decEqFields a b with
    | isTrue h => isTrue (by rw [h])
    | isFalse h => isFalse (fun he => h (Json.obj.inj he))
  | .null,.bool _ | .null,.int _ | .null,.float _ | .null,.str _ | .null,.arr _ | .null,.obj _
  | .bool _,.null | .bool _,.int _ | .bool _,.float _ | .bool _,.str _ | .bool _,.arr _ | .bool _,.obj _
  | .int _,.null | .int _,.bool _ | .int _,.float _ | .int _,.str _ | .int _,.arr _ | .int _,.obj _
  | .float _,.null | .float _,.bool _ | .float _,.int _ | .float _,.str _ | .float _,.arr _
  | .float _,.obj _ | .str _,.null | .str _,.bool _ | .str _,.int _ | .str _,.float _ | .str _,.arr _
  | .str _,.obj _ | .arr _,.null | .arr _,.bool _ | .arr _,.int _ | .arr _,.float _ | .arr _,.str _
  | .arr _,.obj _ | .obj _,.null | .obj _,.bool _ | .obj _,.int _ | .obj _,.float _ | .obj _,.str _
  | .obj _,.arr _ => isFalse (fun h => nomatch h)

def Json.decEqItems : (xs ys : List Json) → Decidable (xs = ys)
  | [],[] => isTrue rfl
  | [],_ :: _ => isFalse (fun h => nomatch h)
  | _ :: _,[] => isFalse (fun h => nomatch h)
  | x :: xs,y :: ys =>
    match Json.decEq x y,Json.decEqItems xs ys with
    | isTrue hx,isTrue hs => isTrue (by rw [hx,hs])
    | isFalse hx,_ => isFalse (fun h => hx (List.cons.inj h).1)
    | _,isFalse hs => isFalse (fun h => hs (List.cons.inj h).2)

def Json.decEqFields : (xs ys : List (Text × Json)) → Decidable (xs = ys)
  | [],[] => isTrue rfl
  | [],_ :: _ => isFalse (fun h => nomatch h)
  | _ :: _,[] => isFalse (fun h => nomatch h)
  | (k,x) :: xs,(l,y) :: ys =>
    if hk : k = l then
      match Json.decEq x y,Json.decEqFields xs ys with
      | isTrue hx,isTrue hs => isTrue (by rw [hk,hx,hs])
      | isFalse hx,_ => isFalse (fun h => hx (Prod.mk.inj (List.cons.inj h).1).2)
      | _,isFalse hs => isFalse (fun h => hs (List.cons.inj h).2)
    else isFalse (fun h => hk (Prod.mk.inj (List.cons.inj h).1).1)

end

instance : DecidableEq Json := Json.decEq

/-- A decimal value rounds to a non-zero binary64 number iff it exceeds half of the
smallest subnormal, 2^-1075. -/
def PyFloat.truthy : PyFloat → Bool
  | .decimal m e =>
    let scale := 10 ^ e.natAbs
    if 0 ≤ e then m ≠ 0 else scale < m.natAbs * 2 ^ 1075
  | .infinity _ => true
  | .nan => true

/-- `bool(value)`. -/
def Json.truthy : Json → Bool
  | .null => false
  | .bool b => b
  | .int n => n ≠ 0
  | .float x => x.truthy
  | .str s => !s.isEmpty
  | .arr items => !items.isEmpty
  | .obj fields => !fields.isEmpty

/-- `dict.get(key)`. -/
def Dict.get (d : Dict) (key : Text) : Option Json := (d.find? (fun p => p.1 = key)).map (·.2)

/-- `dict[key] = value`: a known key keeps its place. -/
def Dict.set (d : Dict) (key : Text) (value : Json) : Dict :=
  if d.any (fun p => p.1 = key) then d.map (fun p => if p.1 = key then (key,value) else p)
  else d ++ [(key,value)]

/-- `dict.get(key) or default`. -/
def Dict.getOr (d : Dict) (key : Text) (default : Json) : Json :=
  match d.get key with
  | some v => if v.truthy then v else default
  | none => default

theorem Dict.get_append (d e : Dict) (key : Text) :
    Dict.get (d ++ e) key = (d.get key).or (e.get key) := by
  rw [Dict.get,List.find?_append,Dict.get,Dict.get]
  cases d.find? (fun p => p.1 = key) <;> rfl

theorem Dict.get_set (d : Dict) (key key' : Text) (value : Json) :
    (d.set key value).get key' = if key' = key then some value else d.get key' := by
  rw [Dict.set]
  by_cases hany : d.any (fun p => p.1 = key) = true
  · have hfst : (fun p : Text × Json => decide (p.1 = key')) ∘ (fun p => if p.1 = key then (key,value) else p) =
        fun p => decide (p.1 = key') := by
      funext p
      rw [Function.comp_apply]
      split
      · rename_i h
        rw [h]
      · rfl
    rw [if_pos hany,Dict.get,List.find?_map,hfst,Option.map_map,Dict.get]
    by_cases hk : key' = key
    · subst hk
      obtain ⟨p,hp,hpk⟩ := List.any_eq_true.mp hany
      have hsome : (d.find? (fun p => decide (p.1 = key'))).isSome := List.find?_isSome.mpr ⟨p,hp,hpk⟩
      obtain ⟨q,hq⟩ := Option.isSome_iff_exists.mp hsome
      have hqk : q.1 = key' := by simpa using List.find?_some hq
      simp [hq,hqk]
    · rw [if_neg hk]
      cases hq : d.find? (fun p => decide (p.1 = key')) with
      | none => rfl
      | some q =>
        have hqk : q.1 = key' := by simpa using List.find?_some hq
        simp [hqk,hk]
  · have hnone : d.get key = none := by
      rw [Dict.get,Option.map_eq_none_iff,List.find?_eq_none]
      intro p hp hpk
      exact hany (List.any_eq_true.mpr ⟨p,hp,hpk⟩)
    rw [if_neg hany,Dict.get_append]
    by_cases hk : key' = key
    · subst hk
      rw [hnone]
      simp [Dict.get]
    · have hnew : Dict.get [(key,value)] key' = none := by simp [Dict.get,Ne.symm hk]
      rw [hnew,if_neg hk,Option.or_none]

end ShardVPN
