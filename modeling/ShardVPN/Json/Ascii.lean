import ShardVPN.Json.Codec
import ShardVPN.Text.Codec

/-! # Encoded JSON is ASCII

Everything the encoder writes is ASCII, so its text always has a UTF-8 encoding.
-/
namespace ShardVPN

def Ascii (t : Text) : Prop := ∀ c ∈ t, isAscii c = true

instance (t : Text) : Decidable (Ascii t) := decidable_of_iff (t.all isAscii = true) (by simp [Ascii])

theorem Ascii.append {t u : Text} (ht : Ascii t) (hu : Ascii u) : Ascii (t ++ u) := by
  intro c hc
  exact (List.mem_append.mp hc).elim (ht c) (hu c)

theorem hexDigit_ascii (d : ℕ) : isAscii (hexDigit d) = true := by
  have hall : ∀ e < 16, isAscii (hexDigit e) = true := by decide
  have h := hall (d % 16) (Nat.mod_lt _ (by decide))
  unfold hexDigit at h ⊢
  simp only [Nat.mod_mod] at h
  exact h

theorem unicodeEscapeOf_ascii (n : ℕ) : Ascii (unicodeEscapeOf n) := by
  apply Ascii.append
  · decide
  · intro c hc
    simp only [List.mem_cons,List.not_mem_nil,or_false] at hc
    rcases hc with rfl | rfl | rfl | rfl <;> exact hexDigit_ascii _

theorem escapeChar_ascii (c : CodePoint) : Ascii (escapeChar c) := by
  unfold escapeChar
  split; · decide
  split; · decide
  split; · decide
  split; · decide
  split; · decide
  split; · decide
  split; · decide
  split
  · rename_i hprintable
    intro d hd
    rw [List.mem_singleton.mp hd]
    have h := inRange_iff.mp hprintable
    exact inRange_iff.mpr ⟨Nat.zero_le _,by omega⟩
  split
  · exact unicodeEscapeOf_ascii _
  · exact (unicodeEscapeOf_ascii _).append (unicodeEscapeOf_ascii _)

theorem encodeString_ascii (s : Text) : Ascii (encodeString s) := by
  have hquote : Ascii [34] := by decide
  apply hquote.append
  apply Ascii.append _ hquote
  intro c hc
  obtain ⟨d,-,hd⟩ := List.mem_flatMap.mp hc
  exact escapeChar_ascii d c hd

theorem decimal_ascii (n : ℕ) : Ascii (decimal n) := fun c hc => isAscii_of_isAsciiDigit (decimal_digits n c hc)

theorem decimalInt_ascii (n : ℤ) : Ascii (decimalInt n) := by
  unfold decimalInt
  split
  · exact Ascii.append (by decide) (decimal_ascii _)
  · exact decimal_ascii _

mutual

theorem dumps_ascii : ∀ v : Json, Ascii (dumps v)
  | .null => by decide
  | .bool true => by decide
  | .bool false => by decide
  | .int n => decimalInt_ascii n
  | .float (.decimal m e) => ((decimalInt_ascii m).append (by decide)).append (decimalInt_ascii e)
  | .float (.infinity true) => by decide
  | .float (.infinity false) => by decide
  | .float .nan => by decide
  | .str s => encodeString_ascii s
  | .arr items => (Ascii.append (by decide) (dumpsItems_ascii items)).append (by decide)
  | .obj fields => (Ascii.append (by decide) (dumpsFields_ascii fields)).append (by decide)

theorem dumpsItems_ascii : ∀ items : List Json, Ascii (dumpsItems items)
  | [] => by decide
  | [x] => dumps_ascii x
  | x :: y :: rest => ((dumps_ascii x).append (by decide)).append (dumpsItems_ascii (y :: rest))

theorem dumpsFields_ascii : ∀ fields : List (Text × Json), Ascii (dumpsFields fields)
  | [] => by decide
  | [(k,x)] => ((encodeString_ascii k).append (by decide)).append (dumps_ascii x)
  | (k,x) :: y :: rest => ((((encodeString_ascii k).append (by decide)).append (dumps_ascii x)).append
      (by decide)).append (dumpsFields_ascii (y :: rest))

end

theorem encodeUtf8_dumps (v : Json) : ∃ body, encodeUtf8 (dumps v) = some body :=
  ⟨_,encodeUtf8_of_ascii (dumps_ascii v)⟩

end ShardVPN
