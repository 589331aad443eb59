import Mathlib.Data.List.TakeWhile
import SpectrumShare.Json.Token

/-! # Well-formed numbers

A number has nothing in it but the characters of numbers, and begins as the scanner expects. -/

namespace SpectrumShare.Json

theorem isNumberChar_of_isDigit {c : Char} (digit : c.isDigit = true) : isNumberChar c = true := by
  simp [isNumberChar, digit]

/-- A run of digits and what follows it make up the text. -/
theorem mem_digits_or {text : List Char} {c : Char} (there : c ∈ text) :
    c.isDigit = true ∨ c ∈ text.dropWhile Char.isDigit := by
  rw [← List.takeWhile_append_dropWhile (p := Char.isDigit) (l := text)] at there
  rcases List.mem_append.1 there with inside | behind
  · exact .inl (List.mem_takeWhile_imp inside)
  · exact .inr behind

theorem isNumberChar_of_isExponent {text : List Char} (part : isExponent text = true) {c : Char}
    (there : c ∈ text) : isNumberChar c = true := by
  cases text with
  | nil => cases there
  | cons e rest =>
    simp only [isExponent, Bool.and_eq_true, List.all_eq_true] at part
    obtain ⟨letter, -, digits⟩ := part
    rcases List.mem_cons.1 there with rfl | later
    · rcases Bool.or_eq_true_iff.1 letter with lower | upper
      · simp [isNumberChar, of_decide_eq_true lower]
      · simp [isNumberChar, of_decide_eq_true upper]
    · split at digits
      · rcases List.mem_cons.1 later with rfl | later
        · decide
        · exact isNumberChar_of_isDigit (digits c later)
      · rcases List.mem_cons.1 later with rfl | later
        · decide
        · exact isNumberChar_of_isDigit (digits c later)
      · exact isNumberChar_of_isDigit (digits c later)

theorem isNumberChar_of_isFraction {text : List Char} (part : isFraction text = true) {c : Char}
    (there : c ∈ text) : isNumberChar c = true := by
  unfold isFraction at part
  split at part
  · rcases List.mem_cons.1 there with rfl | later
    · decide
    · rcases mem_digits_or later with digit | behind
      · exact isNumberChar_of_isDigit digit
      · exact isNumberChar_of_isExponent (Bool.and_eq_true_iff.1 part).2 behind
  · exact isNumberChar_of_isExponent part there

theorem isNumberChar_of_isUnsigned {text : List Char} (part : isUnsigned text = true) {c : Char}
    (there : c ∈ text) : isNumberChar c = true := by
  unfold isUnsigned at part
  split at part
  · rcases List.mem_cons.1 there with rfl | later
    · decide
    · exact isNumberChar_of_isFraction part later
  · rcases mem_digits_or there with digit | behind
    · exact isNumberChar_of_isDigit digit
    · exact isNumberChar_of_isFraction (Bool.and_eq_true_iff.1 part).2 behind

theorem isNumberChar_of_isNumber {text : List Char} (number : isNumber text = true) {c : Char}
    (there : c ∈ text) : isNumberChar c = true := by
  unfold isNumber at number
  split at number
  · rcases List.mem_cons.1 there with rfl | later
    · decide
    · exact isNumberChar_of_isUnsigned number later
  · exact isNumberChar_of_isUnsigned number there

theorem isNumber_begins {text : List Char} (number : isNumber text = true) :
    ∃ c rest, text = c :: rest ∧ (c.isDigit || c = '-') = true := by
  unfold isNumber at number
  split at number
  · exact ⟨_, _, rfl, rfl⟩
  · unfold isUnsigned at number
    split at number
    · exact ⟨_, _, rfl, rfl⟩
    · cases text with
      | nil => simp at number
      | cons c rest =>
        refine ⟨c, rest, rfl, ?_⟩
        cases digit : c.isDigit with
        | true => rfl
        | false => simp [digit] at number

end SpectrumShare.Json
