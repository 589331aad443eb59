import SpectrumShare.Double.Text
import SpectrumShare.Proofs.Json.Number
import SpectrumShare.Proofs.Text

/-! # Doubles are written as well-formed numbers

The text of a decimal is a whole part without needless zeros, a fraction and an exponent. The one decimal
that would be written otherwise is zero with zeros behind it (`isUnsigned_write`), and no double is read back
from that but zero itself. -/

namespace SpectrumShare

namespace Json

/-- Digits without a needless zero in front. -/
def IsWhole (digits : List Char) : Prop :=
  (∀ c ∈ digits, c.isDigit = true) ∧ (digits = ['0'] ∨ ∃ c rest, digits = c :: rest ∧ c ≠ '0')

theorem isWhole_toString (n : Nat) : IsWhole (toString n).toList := by
  refine ⟨fun c there => isDigit_of_mem_toString there, ?_⟩
  by_cases zero : n = 0
  · subst zero
    exact .inl rfl
  · exact .inr (toString_leads zero)

theorem IsWhole.ne_nil {digits : List Char} (whole : IsWhole digits) : digits ≠ [] := by
  rcases whole.2 with rfl | ⟨c, rest, rfl, -⟩
  · nofun
  · nofun

theorem dropWhile_of_isFraction {text : List Char} (part : isFraction text = true) :
    text.takeWhile Char.isDigit = [] ∧ text.dropWhile Char.isDigit = text := by
  cases text with
  | nil => exact ⟨rfl, rfl⟩
  | cons c rest =>
    have other : c.isDigit = false := by
      unfold isFraction at part
      split at part
      · rename_i same
        cases same
        rfl
      · simp only [isExponent, Bool.and_eq_true, Bool.or_eq_true, decide_eq_true_eq] at part
        rcases part.1 with rfl | rfl <;> rfl
    simp [other]

theorem isUnsigned_append {whole fraction : List Char} (first : IsWhole whole)
    (rest : isFraction fraction = true) : isUnsigned (whole ++ fraction) = true := by
  obtain ⟨digits, rfl | ⟨c, others, rfl, leads⟩⟩ := first
  · exact rest
  · obtain ⟨none, behind⟩ := dropWhile_of_isFraction rest
    have lead := digits c List.mem_cons_self
    rw [isUnsigned]
    · rw [List.dropWhile_append_of_pos digits, behind, rest]
      simp [lead]
    · intro tail same
      exact leads (List.cons.inj same).1

theorem isFraction_of_isExponent {text : List Char} (part : isExponent text = true) :
    isFraction text = true := by
  unfold isFraction
  split
  · simp [isExponent] at part
  · exact part

/-- A point and digits, and perhaps an exponent, are a fraction. -/
theorem isFraction_point {digits exponent : List Char} (some_digit : digits ≠ [])
    (all : ∀ c ∈ digits, c.isDigit = true) (rest : isExponent exponent = true) :
    isFraction ('.' :: (digits ++ exponent)) = true := by
  obtain ⟨-, behind⟩ := dropWhile_of_isFraction (isFraction_of_isExponent rest)
  rw [isFraction, List.dropWhile_append_of_pos all, behind, rest]
  cases digits with
  | nil => exact absurd rfl some_digit
  | cons c others => simp [all c List.mem_cons_self]

/-- A letter, a sign and digits are an exponent. -/
theorem isExponent_signed {sign : Char} (signed : sign = '+' ∨ sign = '-') {digits : List Char}
    (whole : IsWhole digits) : isExponent ('e' :: sign :: digits) = true := by
  have all : digits.all Char.isDigit = true := List.all_eq_true.2 whole.1
  have some_digit : digits.isEmpty = false := List.isEmpty_eq_false_iff.2 whole.ne_nil
  rcases signed with rfl | rfl
  · simp [isExponent, all, some_digit]
  · simp [isExponent, all, some_digit]

theorem isNumber_of_isUnsigned {text : List Char} (part : isUnsigned text = true) :
    isNumber text = true := by
  unfold isNumber
  split
  · simp [isUnsigned] at part
  · exact part

end Json

namespace Double

open Json

theorem toList_zeros (count : Nat) : (zeros count).toList = List.replicate count '0' :=
  String.toList_ofList

/-- Digits with as many zeros in front as a point so many places from their end needs. -/
def padded (digits : List Char) (places : Nat) : List Char :=
  List.replicate (places + 1 - digits.length) '0' ++ digits

theorem lt_length_padded (digits : List Char) (places : Nat) :
    places < (padded digits places).length := by
  rw [padded, List.length_append, List.length_replicate]
  omega

theorem isDigit_of_mem_padded {digits : List Char} (all : ∀ c ∈ digits, c.isDigit = true) {places : Nat}
    {c : Char} (there : c ∈ padded digits places) : c.isDigit = true := by
  rcases List.mem_append.1 there with zero | digit
  · rw [List.eq_of_mem_replicate zero]
    rfl
  · exact all c digit

theorem toList_withPoint (digits : String) {places : Nat} (some_place : places ≠ 0) :
    (withPoint digits places).toList =
      (padded digits.toList places).take ((padded digits.toList places).length - places) ++
        '.' :: (padded digits.toList places).drop ((padded digits.toList places).length - places) := by
  have text : (zeros (places + 1 - digits.length) ++ digits).toList = padded digits.toList places := by
    rw [String.toList_append, toList_zeros, padded, ← String.length_toList]
  rw [withPoint, if_neg some_place, String.toList_append, String.toList_append, String.toList_ofList,
    String.toList_ofList, ← String.length_toList, text]
  simp

/-- In front of the point there are digits without a needless zero. -/
theorem isWhole_front {digits : List Char} (whole : IsWhole digits) (places : Nat) :
    IsWhole ((padded digits places).take ((padded digits places).length - places)) := by
  obtain ⟨all, leads⟩ := whole
  have long := lt_length_padded digits places
  refine ⟨fun c there => isDigit_of_mem_padded all (List.mem_of_mem_take there), ?_⟩
  obtain ⟨count, front⟩ : ∃ count, (padded digits places).length - places = count + 1 :=
    ⟨(padded digits places).length - places - 1, by omega⟩
  rw [front]
  by_cases short : digits.length ≤ places
  · -- one zero is left in front of the point
    have one : count = 0 := by
      rw [padded, List.length_append, List.length_replicate] at front
      omega
    obtain ⟨pads, some_pad⟩ : ∃ pads, places + 1 - digits.length = pads + 1 :=
      ⟨places - digits.length, by omega⟩
    rw [one, padded, some_pad, List.replicate_succ, List.cons_append, List.take_succ_cons]
    exact .inl rfl
  · have unpadded : padded digits places = digits := by
      rw [padded, Nat.sub_eq_zero_of_le (by omega), List.replicate_zero, List.nil_append]
    rw [unpadded]
    rcases leads with zero | ⟨c, rest, begins, leads⟩
    · exact .inl (by rw [zero, List.take_succ_cons, List.take_nil])
    · exact .inr ⟨c, rest.take count, by rw [begins, List.take_succ_cons], leads⟩

/-- Digits make a number wherever in them there is a point, and with or without an exponent. -/
theorem isUnsigned_withPoint {digits : String} (whole : IsWhole digits.toList) (places : Nat)
    {exponent : List Char} (rest : isExponent exponent = true) :
    isUnsigned ((withPoint digits places).toList ++ exponent) = true := by
  by_cases none : places = 0
  · rw [none, withPoint, if_pos rfl]
    exact isUnsigned_append whole (isFraction_of_isExponent rest)
  · have long := lt_length_padded digits.toList places
    rw [toList_withPoint digits none, List.append_assoc, List.cons_append]
    refine isUnsigned_append (isWhole_front whole places) (isFraction_point ?_ ?_ rest)
    · intro nothing
      have shorter := List.drop_eq_nil_iff.1 nothing
      omega
    · exact fun c there => isDigit_of_mem_padded whole.1 (List.mem_of_mem_drop there)

theorem isWhole_zeros {n count : Nat} (plain : n = 0 → count = 0) :
    IsWhole ((toString n).toList ++ List.replicate count '0') := by
  have whole := isWhole_toString n
  refine ⟨fun c there => ?_, ?_⟩
  · rcases List.mem_append.1 there with digit | zero
    · exact whole.1 c digit
    · rw [List.eq_of_mem_replicate zero]
      rfl
  · by_cases zero : n = 0
    · rw [plain zero, List.replicate_zero, List.append_nil]
      exact whole.2
    · obtain ⟨c, rest, begins, leads⟩ := toString_leads zero
      exact .inr ⟨c, rest ++ _, by rw [begins]; rfl, leads⟩

theorem isExponent_power (leading : Int) :
    isExponent ((if leading < 0 then "e-" else "e+").toList ++ (toString leading.natAbs).toList) =
      true := by
  have count := isWhole_toString leading.natAbs
  split
  · exact isExponent_signed (.inr rfl) count
  · exact isExponent_signed (.inl rfl) count

/-- Zero with zeros behind it, written without an exponent. -/
def Decimal.IsPaddedZero (d : Decimal) : Prop := d.digits = 0 ∧ 0 < d.exponent ∧ d.exponent < 16

theorem write_paddedZero {d : Decimal} (padded : d.IsPaddedZero) :
    Layout.document.write d = "0" ++ zeros d.exponent.toNat ++ ".0" := by
  obtain ⟨zero, above, below⟩ := padded
  have one : (toString 0).length = 1 := rfl
  have positional : decide (-5 ≤ d.exponent + ((1 : Nat) : Int) - 1 ∧
      d.exponent + ((1 : Nat) : Int) - 1 < 16) = true := by
    rw [decide_eq_true_eq]
    omega
  unfold Layout.write
  dsimp only [Layout.document]
  rw [zero, one, if_pos positional, if_pos (Int.le_of_lt above)]
  rfl

/-- Every decimal but zero with zeros behind it is written as a well-formed number. -/
theorem isUnsigned_write {d : Decimal} (plain : ¬ d.IsPaddedZero) :
    isUnsigned (Layout.document.write d).toList = true := by
  have whole := isWhole_toString d.digits
  unfold Layout.write
  dsimp only [Layout.document]
  split
  · rename_i positional
    split
    · rename_i above
      have text : (toString d.digits ++ zeros d.exponent.toNat ++ ".0").toList =
          ((toString d.digits).toList ++ List.replicate d.exponent.toNat '0') ++ ['.', '0'] := by
        simp [toList_zeros]
      rw [text]
      refine isUnsigned_append (isWhole_zeros fun zero => ?_) rfl
      have one : (toString d.digits).length = 1 := by
        rw [zero]
        rfl
      rw [one] at positional
      have below := (of_decide_eq_true positional).2
      by_contra some
      exact plain ⟨zero, by omega, by omega⟩
    · have point := isUnsigned_withPoint whole (-d.exponent).toNat (rfl : isExponent [] = true)
      rwa [List.append_nil] at point
  · rw [String.toList_append, String.toList_append, List.append_assoc]
    exact isUnsigned_withPoint whole _ (isExponent_power _)

/-- Zero with zeros behind it reads as zero. -/
theorem ofWritten_zeros (negative : Bool) (count : Nat) :
    ofWritten ((if negative then "-" else "") ++ ("0" ++ zeros count ++ ".0")) =
      if negative then -0.0 else 0.0 := by
  have digit : ∀ c ∈ List.replicate (count + 1) '0', c.isDigit = true := by
    intro c there
    rw [List.eq_of_mem_replicate there]
    rfl
  have text : ((if negative then "-" else "") ++ ("0" ++ zeros count ++ ".0")).toList =
      (if negative then ['-'] else []) ++ (List.replicate (count + 1) '0' ++ ['.', '0']) := by
    cases negative <;> simp [toList_zeros, List.replicate_succ]
  have whole : (List.replicate (count + 1) '0' ++ ['.', '0']).takeWhile Char.isDigit =
      List.replicate (count + 1) '0' := by
    rw [List.takeWhile_append_of_pos digit]
    simp
  have behind : (List.replicate (count + 1) '0' ++ ['.', '0']).dropWhile Char.isDigit = ['.', '0'] := by
    rw [List.dropWhile_append_of_pos digit]
    rfl
  have size : ∀ exponent, ofDecimal (Text.ofDigits (List.replicate (count + 1) '0' ++ ['0'])) exponent = 0.0 := by
    intro exponent
    rw [← List.replicate_succ', Text.ofDigits_zeros, ofDecimal]
    simp
  unfold ofWritten
  rw [text]
  cases negative with
  | true => simp [whole, behind, size]
  | false =>
    have no_sign : ((List.replicate (count + 1) '0' ++ ['.', '0']).head? == some '-') = false := by
      rw [List.replicate_succ]
      rfl
    simp only [Bool.false_eq_true, ↓reduceIte, List.nil_append, no_sign, whole, behind]
    exact size _

theorem parts_zero (negative : Bool) :
    parts (if negative then -0.0 else 0.0) = .finite negative 0 (-1074) := by
  cases negative <;> decide +kernel

/-- Zero with zeros behind it is read as zero, which is not written so. -/
theorem not_paddedZero {x : Float} {negative : Bool} {mantissa : Nat} {exponent : Int}
    (shape : parts x = .finite negative mantissa exponent)
    (reads : ofWritten (Layout.document.writeFinite negative mantissa exponent) = x) :
    ¬ (Layout.document.decimal mantissa exponent).IsPaddedZero := by
  intro padded
  rw [Layout.writeFinite, write_paddedZero padded, ofWritten_zeros] at reads
  rw [← reads, parts_zero] at shape
  cases shape
  exact absurd padded.2.1 (by decide)

/-- A double that reads back is written as a well-formed number. -/
theorem isNumber_of_reads {x : Float} (reads : ofJson? (toJson x) = some x) :
    ∃ text, toJson x = .number text ∧ isNumber text.toList = true := by
  cases shape : parts x with
  | infinite negative | undefined =>
    rw [toJson, shape] at reads
    cases reads
  | finite negative mantissa exponent =>
    have written : toJson x = .number (Layout.document.writeFinite negative mantissa exponent) := by
      rw [toJson, shape]
    refine ⟨_, written, ?_⟩
    rw [written, ofJson?] at reads
    split at reads
    · have unsigned := isUnsigned_write (not_paddedZero shape (Option.some.inj reads))
      rw [Layout.writeFinite, String.toList_append]
      cases negative with
      | true => exact unsigned
      | false => exact isNumber_of_isUnsigned unsigned
    · cases reads

end Double

end SpectrumShare
