import SpectrumShare.Text

/-! # Whole numbers in text

A whole number is written as a minus sign or none and its digits, and reads back from them. -/

namespace SpectrumShare

theorem toList_toString (n : Nat) : (toString n).toList = Nat.toDigits 10 n := by
  rw [Nat.toString_eq_repr, Nat.repr_eq_ofList_toDigits, String.toList_ofList]

theorem isDigit_of_mem_toString {n : Nat} {c : Char} (there : c ∈ (toString n).toList) :
    c.isDigit = true := by
  rw [toList_toString] at there
  exact Nat.isDigit_of_mem_toDigits (by decide) (by decide) there

/-- A number above zero has no zero in front. -/
theorem toString_leads {n : Nat} (positive : n ≠ 0) :
    ∃ c rest, (toString n).toList = c :: rest ∧ c ≠ '0' := by
  rw [toList_toString]
  induction n using Nat.strongRecOn with
  | ind n ih =>
    rw [Nat.toDigits_eq_if (by decide)]
    split
    · rename_i small
      have leads : ∀ n < 10, n ≠ 0 → n.digitChar ≠ '0' := by decide
      exact ⟨_, [], rfl, leads n small positive⟩
    · obtain ⟨c, rest, begins, leads⟩ := ih (n / 10) (by omega) (by omega)
      exact ⟨c, rest ++ [_], by rw [begins]; rfl, leads⟩

theorem toString_unsigned (n : Nat) (rest : List Char) : (toString n).toList ≠ '-' :: rest := by
  intro same
  have sign : '-'.isDigit = true := isDigit_of_mem_toString (n := n) (same ▸ List.mem_cons_self)
  cases sign

theorem toList_toString_int (key : Int) :
    (toString key).toList =
      if key < 0 then '-' :: (toString key.natAbs).toList else (toString key.natAbs).toList := by
  cases key with
  | ofNat n => rfl
  | negSucc n =>
    rw [if_pos (Int.negSucc_lt_zero n)]
    change ("-" ++ (n + 1).repr).toList = _
    rw [String.toList_append]
    rfl

namespace Text

theorem ofDigits_zeros (count : Nat) : ofDigits (List.replicate count '0') = 0 := by
  rw [ofDigits, Nat.ofDigitChars_replicate_zero, Nat.mul_zero]

theorem ofDigits_toString (n : Nat) : ofDigits (toString n).toList = n := by
  rw [ofDigits, toList_toString, Nat.ofDigitChars_ten_toDigits]

theorem ofSigned_toString (key : Int) : ofSigned (toString key).toList = key := by
  rw [toList_toString_int]
  split
  · rw [ofSigned, ofDigits_toString]
    omega
  · unfold ofSigned
    split
    · rename_i sign
      exact absurd sign (toString_unsigned _ _)
    · rw [ofDigits_toString]
      omega

end Text

end SpectrumShare
