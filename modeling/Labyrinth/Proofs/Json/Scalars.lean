import Mathlib.Tactic.SplitIfs
import Labyrinth.Json.Basic
import Labyrinth.Json.Outline

/-!
# Strings and numbers in JSON

A quoted string is read back whatever characters it holds, and so is a number as long as nothing
follows that would go on with it.
-/

namespace Labyrinth

/-! ## Decimal digits -/

theorem Text.digitsValue_toDigits (n : Nat) : Text.digitsValue (Nat.toDigits 10 n) = n := by
  have hvalue : Text.digitsValue = (Nat.ofDigitChars 10 · 0) := by
    funext ds
    simp only [Text.digitsValue, Nat.ofDigitChars_eq_foldl, Nat.mul_comm]
    rfl
  rw [hvalue]
  exact Nat.ofDigitChars_ten_toDigits

theorem digitChar_ne_zero : ∀ n < 10, 0 < n → n.digitChar ≠ '0' := by decide

theorem head?_toDigits_ne {n : Nat} (h : 0 < n) : (Nat.toDigits 10 n).head? ≠ some '0' := by
  induction n using Nat.strongRecOn with
  | ind n ih =>
    by_cases hn : n < 10
    · rw [Nat.toDigits_of_lt_base hn]
      simpa using digitChar_ne_zero n hn h
    · have hfront := ih (n / 10) (by omega) (by omega)
      rw [Nat.toDigits_of_base_le (by decide) (by omega), List.head?_append]
      cases hhead : (Nat.toDigits 10 (n / 10)).head? with
      | none => exact absurd (List.head?_eq_none_iff.mp hhead) Nat.toDigits_ne_nil
      | some d => rwa [hhead] at hfront

namespace Json

/-! ## Strings -/

theorem unit?_hexDigit : ∀ n < 32,
    unit? '0' '0' (hexDigit (n / 16)) (hexDigit (n % 16)) = some n := by decide

/-- The number of a control character is no half of a surrogate pair. -/
theorem textOf_control {n : Nat} (h : n < 32) (ps : List Piece) :
    textOf none (.unit n :: ps) = (Char.ofNat n :: ·) <$> textOf none ps := by
  have htrailing : isTrailing n = false := by
    simp [isTrailing]
    omega
  have hleading : isLeading n = false := by
    simp [isLeading]
    omega
  rw [textOf.eq_def]
  simp [htrailing, hleading]

theorem exists_piece (c : Char) (cs : List Char) :
    ∃ p, pieces (escaped c ++ cs) = (p :: (pieces cs).1, (pieces cs).2) ∧
      ∀ ps, textOf none (p :: ps) = (c :: ·) <$> textOf none ps := by
  unfold escaped
  split_ifs with hquote hslash hback hfeed hline hreturn htab hcontrol
  · exact ⟨.char c, by simp [pieces, shortEscape?, hquote], fun _ => rfl⟩
  · exact ⟨.char c, by simp [pieces, shortEscape?, hslash], fun _ => rfl⟩
  · exact ⟨.char c, by simp [pieces, shortEscape?, hback], fun _ => rfl⟩
  · exact ⟨.char c, by simp [pieces, shortEscape?, hfeed], fun _ => rfl⟩
  · exact ⟨.char c, by simp [pieces, shortEscape?, hline], fun _ => rfl⟩
  · exact ⟨.char c, by simp [pieces, shortEscape?, hreturn], fun _ => rfl⟩
  · exact ⟨.char c, by simp [pieces, shortEscape?, htab], fun _ => rfl⟩
  · refine ⟨.unit c.toNat, by simp [pieces, unit?_hexDigit _ hcontrol], fun ps => ?_⟩
    rw [textOf_control hcontrol, Char.ofNat_toNat]
  · exact ⟨.char c, by simp [pieces, hslash, hcontrol], fun _ => rfl⟩

theorem exists_pieces (s rest : List Char) :
    ∃ ps, pieces (s.flatMap escaped ++ '"' :: rest) = (ps, .ok rest) ∧
      textOf none ps = .ok s := by
  induction s with
  | nil => exact ⟨[], by simp [pieces], rfl⟩
  | cons c s ih =>
    obtain ⟨ps, hpieces, htext⟩ := ih
    obtain ⟨p, hpiece, hchar⟩ := exists_piece c (s.flatMap escaped ++ '"' :: rest)
    refine ⟨p :: ps, ?_, ?_⟩
    · rw [List.flatMap_cons, List.append_assoc, hpiece, hpieces]
    · rw [hchar, htext]
      rfl

theorem readText_quoted (s : String) (rest : List Char) :
    readText (s.toList.flatMap escaped ++ '"' :: rest) = ⟨.text s, .ok rest⟩ := by
  obtain ⟨ps, hpieces, htext⟩ := exists_pieces s.toList rest
  simp only [readText, hpieces, htext, String.ofList_toList]

/-! ## Numbers -/

/-- What follows does not go on with a number. -/
def Stops (rest : List Char) : Prop :=
  ∀ c ∈ rest.head?, c.isDigit = false ∧ c ≠ '.' ∧ c ≠ 'e' ∧ c ≠ 'E'

theorem readTail_of_stops {rest : List Char} (h : Stops rest) (negative : Bool) (mantissa : Nat) :
    readTail negative mantissa 0 true rest = ⟨.number ⟨negative, mantissa, 0, true⟩, .ok rest⟩ := by
  unfold readTail
  split
  · simp [Stops] at h
  · simp [Stops] at h
  · rfl

theorem takeWhile_isDigit_append {ds rest : List Char} (hds : ∀ d ∈ ds, d.isDigit = true)
    (h : Stops rest) :
    (ds ++ rest).takeWhile Char.isDigit = ds ∧ (ds ++ rest).dropWhile Char.isDigit = rest := by
  rw [List.takeWhile_append_of_pos hds, List.dropWhile_append_of_pos hds]
  cases rest with
  | nil => simp
  | cons c rest =>
    have hc : c.isDigit = false := (h c rfl).1
    simp [hc]

theorem readNumber_toDigits {rest : List Char} (h : Stops rest) (negative : Bool) (n : Nat) :
    readNumber negative (Nat.toDigits 10 n ++ rest) =
      ⟨.number ⟨negative, n, 0, true⟩, .ok rest⟩ := by
  have hdigits : ∀ d ∈ Nat.toDigits 10 n, d.isDigit = true := fun d hd =>
    Nat.isDigit_of_mem_toDigits (by decide) (by decide) hd
  obtain ⟨htake, hdrop⟩ := takeWhile_isDigit_append hdigits h
  have hzero : ¬ ((Nat.toDigits 10 n).head? = some '0' ∧ 1 < (Nat.toDigits 10 n).length) := by
    rcases Nat.eq_zero_or_pos n with rfl | hn
    · decide
    · exact fun hand => head?_toDigits_ne hn hand.1
  unfold readNumber
  simp only [htake, hdrop, List.isEmpty_iff, Nat.toDigits_ne_nil, if_neg hzero, if_false,
    Text.digitsValue_toDigits]
  split
  · simp [Stops] at h
  · exact readTail_of_stops h negative n

end Json

end Labyrinth
