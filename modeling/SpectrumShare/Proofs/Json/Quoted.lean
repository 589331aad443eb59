import SpectrumShare.Json.Quoted

/-! # Escaped text reads back

Each character is written as one piece, its own or a four-digit escape, and no escape that is written is
half of a pair. -/

namespace SpectrumShare.Json.Quoted

theorem hexValue_hexDigit : ∀ value < 16, hexValue? (hexDigit value) = some value := by decide

/-- The piece that a character is written as. -/
def piece (c : Char) : Piece :=
  if c.toNat < 0x20 ∧ c ∉ ['\x08', '\x0c', '\n', '\r', '\t'] then .unit c.toNat else .char c

/-- A four-digit escape that starts with two zeros is the code of its last two digits. -/
theorem pieces_escape {high low : Nat} (hh : high < 16) (hl : low < 16) (rest : List Char) :
    pieces? ('\\' :: 'u' :: '0' :: '0' :: hexDigit high :: hexDigit low :: rest) =
      (pieces? rest).map (.unit (high * 16 + low) :: ·) := by
  have zero : hexValue? '0' = some 0 := by decide
  rw [pieces?, zero, hexValue_hexDigit high hh, hexValue_hexDigit low hl]
  cases pieces? rest <;> simp

theorem pieces_plain {c : Char} (printable : ¬ c.toNat < 0x20) (quote : c ≠ '"') (backslash : c ≠ '\\')
    (rest : List Char) : pieces? (c :: rest) = (pieces? rest).map (.char c :: ·) := by
  rw [pieces?.eq_4 c rest (fun _ _ _ _ _ same => absurd same backslash)
    (fun _ _ same => absurd same backslash)]
  simp only [printable, quote, backslash, or_self, ↓reduceIte]
  cases pieces? rest <;> rfl

/-- Text that needs no escape may stand between quotes. -/
theorem isWritten_of_plain {text : List Char}
    (plain : ∀ c ∈ text, ¬ c.toNat < 0x20 ∧ c ≠ '"' ∧ c ≠ '\\') : isWritten text = true := by
  have whole : pieces? text = some (text.map .char) := by
    induction text with
    | nil => rfl
    | cons c rest ih =>
      obtain ⟨⟨printable, quote, backslash⟩, others⟩ := List.forall_mem_cons.1 plain
      rw [pieces_plain printable quote backslash, ih others]
      rfl
  rw [isWritten, whole]
  rfl

/-- A character is written as one piece. -/
theorem pieces_encodeChar (c : Char) (rest : List Char) :
    pieces? (encodeChar c ++ rest) = (pieces? rest).map (piece c :: ·) := by
  unfold encodeChar
  split
  case h_8 quote backslash back feed line carriage tab =>
    have named : c ∉ ['\x08', '\x0c', '\n', '\r', '\t'] := by
      simp only [List.mem_cons, List.not_mem_nil, or_false, not_or]
      exact ⟨back, feed, line, carriage, tab⟩
    split
    · rename_i control
      have high : c.toNat / 16 < 16 := by omega
      have low : c.toNat % 16 < 16 := by omega
      have code : c.toNat / 16 * 16 + c.toNat % 16 = c.toNat := by omega
      have escape := pieces_escape high low rest
      rw [code] at escape
      rw [piece, if_pos ⟨control, named⟩]
      exact escape
    · rename_i printable
      rw [piece, if_neg fun both => printable both.1]
      exact pieces_plain printable quote backslash rest
  all_goals
    simp [pieces?, shortEscape?, piece]
    cases pieces? rest <;> rfl

theorem pieces_encode (text : List Char) : pieces? (text.flatMap encodeChar) = some (text.map piece) := by
  induction text with
  | nil => rfl
  | cons c rest ih => rw [List.flatMap_cons, pieces_encodeChar, ih, List.map_cons, Option.map_some]

/-- An escape that is no half of a pair is a character by itself. -/
theorem join_unit {code : Nat} (whole : code < 0xD800) (rest : List Piece) :
    join? (.unit code :: rest) = (join? rest).map (Char.ofNat code :: ·) := by
  have high : isHighHalf code = false := by simp [isHighHalf]; omega
  have low : isLowHalf code = false := by simp [isLowHalf]; omega
  have alone : (isHighHalf code || isLowHalf code) = false := by rw [high, low]; rfl
  rcases rest with _ | ⟨c | other, rest⟩
  · simp [join?, high, low]
  · rw [join?.eq_4 _ _ (fun _ _ same => by cases same)]
    cases join? (.char c :: rest) <;> simp [alone]
  · rw [join?]
    cases join? (.unit other :: rest) <;> simp [high, low]

theorem join_pieces (text : List Char) : join? (text.map piece) = some text := by
  induction text with
  | nil => rfl
  | cons c rest ih =>
    rw [List.map_cons, piece]
    split
    · rename_i control
      rw [join_unit (by omega), ih, Option.map_some, Char.ofNat_toNat]
    · rw [join?, ih]
      rfl

/-- What is written for a text stands for it. -/
theorem decode_encode (text : String) : decode? (encode text) = some text := by
  rw [decode?, encode, String.toList_ofList, pieces_encode]
  simp [join_pieces]

theorem isWritten_encode (text : String) : isWritten (encode text).toList = true := by
  rw [isWritten, encode, String.toList_ofList, pieces_encode]
  rfl

end SpectrumShare.Json.Quoted
