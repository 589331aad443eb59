import SpectrumShare.Json.Layout
import SpectrumShare.Proofs.Json.Number
import SpectrumShare.Proofs.Json.Quoted

/-! # The tokens of a written document

A value that ends where a comma or a new line follows, or nothing, is scanned to its tokens, however far it
is indented. -/

namespace SpectrumShare.Json

namespace Token

/-- The tokens that a text comes to from where the scanner stands. -/
def scanFrom (s : List Token × Mode) (text : List Char) : Option (List Token) := do
  finish? (← text.foldlM step? s)

theorem scanFrom_cons (s : List Token × Mode) (c : Char) (text : List Char) :
    scanFrom s (c :: text) = (step? s c).bind (scanFrom · text) := by
  rw [scanFrom, List.foldlM_cons]
  cases step? s c <;> rfl

/-- A value may end before this text. -/
def EndsValue (rest : List Char) : Prop := rest = [] ∨ ∃ c text, rest = c :: text ∧ (c = ',' ∨ c = '\n')

theorem scan_blanks (tokens : List Token) (count : Nat) (rest : List Char) :
    scanFrom (tokens, .between) (List.replicate count ' ' ++ rest) = scanFrom (tokens, .between) rest := by
  induction count with
  | zero => rfl
  | succ count ih => rw [List.replicate_succ, List.cons_append, scanFrom_cons]; exact ih

theorem scan_newline (tokens : List Token) (level : Nat) (rest : List Char) :
    scanFrom (tokens, .between) ((newline level).toList ++ rest) = scanFrom (tokens, .between) rest := by
  rw [newline, String.toList_ofList, List.cons_append, scanFrom_cons]
  exact scan_blanks tokens _ rest

/-- A word is complete where a value may end. -/
theorem scan_word (tokens : List Token) {read : List Char} {token : Token}
    (word : ofWord? read = some token) {rest : List Char} (ends : EndsValue rest) :
    scanFrom (tokens, .word read) rest = scanFrom (token :: tokens, .between) rest := by
  rcases ends with rfl | ⟨c, text, rfl, rfl | rfl⟩
  · simp [scanFrom, finish?, word]
  · simp [scanFrom_cons, step?, word]
  · simp [scanFrom_cons, step?, word]

theorem scan_number_end (tokens : List Token) {read : List Char} {token : Token}
    (number : ofNumber? read = some token) {rest : List Char} (ends : EndsValue rest) :
    scanFrom (tokens, .number read) rest = scanFrom (token :: tokens, .between) rest := by
  rcases ends with rfl | ⟨c, text, rfl, rfl | rfl⟩
  · simp [scanFrom, finish?, number]
  · have : isNumberChar ',' = false := by decide
    simp [scanFrom_cons, step?, number, this]
  · have : isNumberChar '\n' = false := by decide
    simp [scanFrom_cons, step?, number, this]

/-- Where a value may end a number ends too. -/
theorem scan_number (tokens : List Token) {written : String} (number : isNumber written.toList = true)
    {rest : List Char} (ends : EndsValue rest) :
    scanFrom (tokens, .between) (written.toList ++ rest) =
      scanFrom (.number written :: tokens, .between) rest := by
  have inside : ∀ (text read : List Char), (∀ c ∈ text, isNumberChar c = true) →
      scanFrom (tokens, .number read) (text ++ rest) =
        scanFrom (tokens, .number (text.reverse ++ read)) rest := by
    intro text
    induction text with
    | nil => exact fun _ _ => rfl
    | cons c text ih =>
      intro read chars
      obtain ⟨first, others⟩ := List.forall_mem_cons.1 chars
      rw [List.cons_append, scanFrom_cons, step?, if_pos first, Option.bind_some, ih _ others,
        List.reverse_cons, List.append_assoc]
      rfl
  obtain ⟨c, digits, begins, first⟩ := isNumber_begins number
  have start : start? tokens c = some (tokens, .number [c]) := by
    unfold start?
    split
    all_goals first | exact absurd first (by decide) | rw [if_pos first]
  have chars : ∀ d ∈ digits, isNumberChar d = true := by
    intro d there
    apply isNumberChar_of_isNumber number
    rw [begins]
    exact List.mem_cons_of_mem _ there
  have whole : ofNumber? (digits.reverse ++ [c]) = some (.number written) := by
    rw [ofNumber?, ← List.reverse_cons, List.reverse_reverse, ← begins, if_pos number,
      String.ofList_toList]
  rw [begins, List.cons_append, scanFrom_cons, step?, start, Option.bind_some, inside _ _ chars]
  exact scan_number_end tokens whole ends

theorem hexValue_plain {c : Char} {value : Nat} (hex : Quoted.hexValue? c = some value) :
    c ≠ '"' ∧ c ≠ '\\' := by
  constructor
  · rintro rfl
    cases hex
  · rintro rfl
    cases hex

theorem scan_plain (tokens : List Token) {c : Char} (plain : c ≠ '"' ∧ c ≠ '\\')
    (read rest : List Char) :
    scanFrom (tokens, .string read) (c :: rest) = scanFrom (tokens, .string (c :: read)) rest := by
  rw [scanFrom_cons, step?, if_neg plain.1, if_neg plain.2]
  rfl

theorem scan_escape (tokens : List Token) (c : Char) (read rest : List Char) :
    scanFrom (tokens, .string read) ('\\' :: c :: rest) =
      scanFrom (tokens, .string (c :: '\\' :: read)) rest := by
  rw [scanFrom_cons, step?, if_neg (by decide), if_pos rfl, Option.bind_some, scanFrom_cons]
  rfl

/-- Inside a string the scanner goes on over what may stand between quotes. -/
theorem scan_written (tokens : List Token) {written : List Char}
    (well : Quoted.isWritten written = true) (read rest : List Char) :
    scanFrom (tokens, .string read) (written ++ rest) =
      scanFrom (tokens, .string (written.reverse ++ read)) rest := by
  obtain ⟨pieces, found⟩ := Option.isSome_iff_exists.1 well
  clear well
  -- the cases are the pieces of a string: a quote by itself is none, so the string goes on
  induction written using Quoted.pieces?.induct generalizing read pieces with
  | case1 => rfl
  | case2 a b c d tail ih =>
    simp only [Quoted.pieces?, Option.bind_eq_bind, Option.bind_eq_some_iff] at found
    obtain ⟨_, ha, _, hb, _, hc, _, hd, others, later, -⟩ := found
    simp only [List.cons_append, scan_escape, scan_plain tokens (hexValue_plain ha),
      scan_plain tokens (hexValue_plain hb), scan_plain tokens (hexValue_plain hc),
      scan_plain tokens (hexValue_plain hd), ih _ others later, List.reverse_cons, List.append_assoc,
      List.nil_append]
  | case3 c tail short ih =>
    rw [Quoted.pieces?.eq_3 _ _ short] at found
    simp only [Option.bind_eq_bind, Option.bind_eq_some_iff] at found
    obtain ⟨_, -, others, later, -⟩ := found
    simp only [List.cons_append, scan_escape, ih _ others later, List.reverse_cons, List.append_assoc,
      List.nil_append]
  | case4 c tail long short refused =>
    rw [Quoted.pieces?.eq_4 _ _ long short, if_pos refused] at found
    cases found
  | case5 c tail long short plain ih =>
    rw [Quoted.pieces?.eq_4 _ _ long short, if_neg plain] at found
    simp only [Option.bind_eq_bind, Option.bind_eq_some_iff] at found
    obtain ⟨others, later, -⟩ := found
    simp only [not_or] at plain
    simp only [List.cons_append, scan_plain tokens plain.2, ih _ others later, List.reverse_cons,
      List.append_assoc, List.nil_append]

theorem scan_string (tokens : List Token) {written : String}
    (well : Quoted.isWritten written.toList = true) (rest : List Char) :
    scanFrom (tokens, .between) ((quote written).toList ++ rest) =
      scanFrom (.string written :: tokens, .between) rest := by
  have text : (quote written).toList ++ rest = '"' :: (written.toList ++ '"' :: rest) := by
    simp [quote]
  have whole : ofString? (written.toList.reverse ++ []) = some (.string written) := by
    simp [ofString?, well]
  rw [text, scanFrom_cons, step?, start?, Option.bind_some, scan_written tokens well, scanFrom_cons,
    step?, if_pos rfl, whole]
  rfl

end Token

mutual

/-- The tokens that spell a document. -/
def tokens : Json → List Token
  | .null => [.null]
  | .bool value => [.bool value]
  | .number written => [.number written]
  | .string written => [.string written]
  | .array [] => [.openArray, .closeArray]
  | .array (item :: rest) => .openArray :: (item.tokens ++ (tokensOfItems rest ++ [.closeArray]))
  | .object [] => [.openObject, .closeObject]
  | .object ((key, value) :: rest) =>
    .openObject :: .string key :: .colon :: (value.tokens ++ (tokensOfMembers rest ++ [.closeObject]))

def tokensOfItems : List Json → List Token
  | [] => []
  | item :: rest => .comma :: (item.tokens ++ tokensOfItems rest)

def tokensOfMembers : List (String × Json) → List Token
  | [] => []
  | (key, value) :: rest => .comma :: .string key :: .colon :: (value.tokens ++ tokensOfMembers rest)

end

mutual

/-- Whether the numbers and strings of a document are well formed. -/
def WellWritten : Json → Prop
  | .number written => isNumber written.toList = true
  | .string written => Quoted.isWritten written.toList = true
  | .array items => WellWrittenItems items
  | .object members => WellWrittenMembers members
  | .null | .bool _ => True

def WellWrittenItems : List Json → Prop
  | [] => True
  | item :: rest => item.WellWritten ∧ WellWrittenItems rest

def WellWrittenMembers : List (String × Json) → Prop
  | [] => True
  | (key, value) :: rest =>
    Quoted.isWritten key.toList = true ∧ value.WellWritten ∧ WellWrittenMembers rest

end

open Token

theorem endsValue_newline (level : Nat) (rest : List Char) :
    EndsValue ((newline level).toList ++ rest) := by
  refine .inr ⟨'\n', List.replicate (2 * level) ' ' ++ rest, ?_, .inr rfl⟩
  rw [newline, String.toList_ofList, List.cons_append]

theorem endsValue_items (level : Nat) (items : List Json) {rest : List Char} (ends : EndsValue rest) :
    EndsValue ((renderItems level items).toList ++ rest) := by
  cases items with
  | nil => simpa [renderItems] using ends
  | cons item items => exact .inr ⟨',', _, by simp [renderItems]; rfl, .inl rfl⟩

theorem endsValue_members (level : Nat) (members : List (String × Json)) {rest : List Char}
    (ends : EndsValue rest) : EndsValue ((renderMembers level members).toList ++ rest) := by
  cases members with
  | nil => simpa [renderMembers] using ends
  | cons member members => exact .inr ⟨',', _, by simp [renderMembers]; rfl, .inl rfl⟩

theorem scan_null (before : List Token) {rest : List Char} (ends : EndsValue rest) :
    scanFrom (before, .between) ("null".toList ++ rest) = scanFrom (.null :: before, .between) rest :=
  scan_word before (rfl : ofWord? "null".toList.reverse = some .null) ends

theorem scan_bool (before : List Token) (value : Bool) {rest : List Char} (ends : EndsValue rest) :
    scanFrom (before, .between) ((if value then "true" else "false").toList ++ rest) =
      scanFrom (.bool value :: before, .between) rest := by
  cases value with
  | true => exact scan_word before (rfl : ofWord? "true".toList.reverse = some (.bool true)) ends
  | false => exact scan_word before (rfl : ofWord? "false".toList.reverse = some (.bool false)) ends

theorem scan_mark (before : List Token) {c : Char} (token : Token)
    (mark : start? before c = some (token :: before, .between)) (rest : List Char) :
    scanFrom (before, .between) (c :: rest) = scanFrom (token :: before, .between) rest := by
  rw [scanFrom_cons, step?, mark]
  rfl

theorem scan_field (before : List Token) {key : String} (well : Quoted.isWritten key.toList = true)
    (rest : List Char) :
    scanFrom (before, .between) ((quote key).toList ++ (':' :: ' ' :: rest)) =
      scanFrom (.colon :: .string key :: before, .between) rest := by
  rw [scan_string before well, scan_mark _ .colon rfl]
  exact scan_blanks _ 1 rest

mutual

theorem scan_renderAt (level : Nat) : ∀ document : Json, document.WellWritten →
    ∀ (before : List Token) {rest : List Char}, EndsValue rest →
    scanFrom (before, .between) ((renderAt level document).toList ++ rest) =
      scanFrom (document.tokens.reverse ++ before, .between) rest
  | .null, _, before, _, ends => scan_null before ends
  | .bool value, _, before, _, ends => scan_bool before value ends
  | .number _, well, before, _, ends => scan_number before well ends
  | .string _, well, before, rest, _ => scan_string before well rest
  | .array [], _, before, rest, _ => by
    have text : (renderAt level (.array [])).toList ++ rest = '[' :: ']' :: rest := by
      simp [renderAt]
    rw [text, scan_mark before .openArray rfl, scan_mark _ .closeArray rfl]
    simp [tokens]
  | .array (item :: items), ⟨first, others⟩, before, rest, _ => by
    have text : (renderAt level (.array (item :: items))).toList ++ rest =
        '[' :: ((newline (level + 1)).toList ++ ((renderAt (level + 1) item).toList ++
          ((renderItems (level + 1) items).toList ++ ((newline level).toList ++ ']' :: rest)))) := by
      simp [renderAt]
    have closes := endsValue_newline level (']' :: rest)
    rw [text, scan_mark before .openArray rfl, scan_newline,
      scan_renderAt (level + 1) item first _ (endsValue_items (level + 1) items closes),
      scan_renderItems (level + 1) items others _ closes, scan_newline,
      scan_mark _ .closeArray rfl]
    simp [tokens]
  | .object [], _, before, rest, _ => by
    have text : (renderAt level (.object [])).toList ++ rest = '\x7b' :: '\x7d' :: rest := by
      simp [renderAt]
    rw [text, scan_mark before .openObject rfl, scan_mark _ .closeObject rfl]
    simp [tokens]
  | .object ((key, value) :: members), ⟨named, first, others⟩, before, rest, _ => by
    have text : (renderAt level (.object ((key, value) :: members))).toList ++ rest =
        '\x7b' :: ((newline (level + 1)).toList ++ ((quote key).toList ++ (':' :: ' ' ::
          ((renderAt (level + 1) value).toList ++ ((renderMembers (level + 1) members).toList ++
            ((newline level).toList ++ '\x7d' :: rest)))))) := by
      simp [renderAt]
    have closes := endsValue_newline level ('\x7d' :: rest)
    rw [text, scan_mark before .openObject rfl, scan_newline, scan_field _ named,
      scan_renderAt (level + 1) value first _ (endsValue_members (level + 1) members closes),
      scan_renderMembers (level + 1) members others _ closes, scan_newline,
      scan_mark _ .closeObject rfl]
    simp [tokens]

theorem scan_renderItems (level : Nat) : ∀ items : List Json, WellWrittenItems items →
    ∀ (before : List Token) {rest : List Char}, EndsValue rest →
    scanFrom (before, .between) ((renderItems level items).toList ++ rest) =
      scanFrom ((tokensOfItems items).reverse ++ before, .between) rest
  | [], _, _, _, _ => by simp [renderItems, tokensOfItems]
  | item :: items, ⟨first, others⟩, before, rest, ends => by
    have text : (renderItems level (item :: items)).toList ++ rest =
        ',' :: ((newline level).toList ++ ((renderAt level item).toList ++
          ((renderItems level items).toList ++ rest))) := by
      simp [renderItems]
    rw [text, scan_mark before .comma rfl, scan_newline,
      scan_renderAt level item first _ (endsValue_items level items ends),
      scan_renderItems level items others _ ends]
    simp [tokensOfItems]

theorem scan_renderMembers (level : Nat) : ∀ members : List (String × Json),
    WellWrittenMembers members → ∀ (before : List Token) {rest : List Char}, EndsValue rest →
    scanFrom (before, .between) ((renderMembers level members).toList ++ rest) =
      scanFrom ((tokensOfMembers members).reverse ++ before, .between) rest
  | [], _, _, _, _ => by simp [renderMembers, tokensOfMembers]
  | (key, value) :: members, ⟨named, first, others⟩, before, rest, ends => by
    have text : (renderMembers level ((key, value) :: members)).toList ++ rest =
        ',' :: ((newline level).toList ++ ((quote key).toList ++ (':' :: ' ' ::
          ((renderAt level value).toList ++ ((renderMembers level members).toList ++ rest))))) := by
      simp [renderMembers]
    rw [text, scan_mark before .comma rfl, scan_newline, scan_field _ named,
      scan_renderAt level value first _ (endsValue_members level members ends),
      scan_renderMembers level members others _ ends]
    simp [tokensOfMembers]

end

/-- The text of a document is scanned to its tokens. -/
theorem scan_render {document : Json} (well : document.WellWritten) :
    scan? (render document).toList = some document.tokens := by
  have scanned := scan_renderAt 0 document well [] (.inl rfl : EndsValue [])
  rw [List.append_nil, List.append_nil] at scanned
  change scanFrom ([], .between) (renderAt 0 document).toList = _
  rw [scanned]
  simp [scanFrom, finish?]

end SpectrumShare.Json
