import SpectrumShare.Json.Parse
import SpectrumShare.Proofs.Json.Scan

/-! # Written documents read back

A reader that stands where a value may begin takes the tokens of a document and delivers it to the array or
object around it, whatever follows. So the text of a well-formed document stands for it. -/

namespace SpectrumShare.Json

open Reader

/-- The reader takes one token after the other. -/
def readFrom (reader : Reader) (tokens : List Token) : Option Reader := tokens.foldlM step? reader

theorem readFrom_cons (reader : Reader) (token : Token) (rest : List Token) :
    readFrom reader (token :: rest) = (step? reader token).bind (readFrom · rest) := by
  rw [readFrom, List.foldlM_cons]
  cases step? reader token <;> rfl

theorem tokens_begin (document : Json) :
    ∃ token rest, document.tokens = token :: rest ∧ token ≠ .closeArray := by
  rcases document with _ | _ | _ | _ | ⟨_ | ⟨item, items⟩⟩ | ⟨_ | ⟨⟨key, value⟩, members⟩⟩
  all_goals exact ⟨_, _, rfl, nofun⟩

/-- The first item of an array is read as any value is. -/
theorem read_first (outer : List Frame) (document : Json) (rest : List Token) :
    readFrom (outer, .firstItem) (document.tokens ++ rest) =
      readFrom (.items [] :: outer, .value) (document.tokens ++ rest) := by
  obtain ⟨token, more, begins, opens⟩ := tokens_begin document
  have same : step? (outer, .firstItem) token = step? (.items [] :: outer, .value) token := by
    cases token with
    | closeArray => exact absurd rfl opens
    | _ => rfl
  rw [begins, List.cons_append, readFrom_cons, readFrom_cons, same]

mutual

theorem read_tokens (outer : List Frame) (rest : List Token) : ∀ document : Json,
    readFrom (outer, .value) (document.tokens ++ rest) = readFrom (deliver document outer) rest
  | .null | .bool _ | .number _ | .string _ => by
    rw [tokens, List.singleton_append, readFrom_cons]
    rfl
  | .array [] => by
    rw [tokens, List.cons_append, List.singleton_append, readFrom_cons, step?, begin?, Option.bind_some,
      readFrom_cons]
    rfl
  | .array (item :: items) => by
    rw [tokens, List.cons_append, List.append_assoc, List.append_assoc, readFrom_cons, step?, begin?,
      Option.bind_some, read_first, read_tokens (.items [] :: outer) _ item, deliver,
      read_items outer _ items [item], List.singleton_append, readFrom_cons, step?, Option.bind_some]
    simp
  | .object [] => by
    rw [tokens, List.cons_append, List.singleton_append, readFrom_cons, step?, begin?, Option.bind_some,
      readFrom_cons]
    rfl
  | .object ((key, value) :: members) => by
    rw [tokens]
    simp only [List.cons_append, List.append_assoc, readFrom_cons, step?, begin?, Option.bind_some,
      read_tokens (.field [] key :: outer) _ value, deliver, read_members outer _ members [(key, value)],
      List.nil_append]
    simp

theorem read_items (outer : List Frame) (rest : List Token) : ∀ (items done : List Json),
    readFrom (outer, .nextItem done) (tokensOfItems items ++ rest) =
      readFrom (outer, .nextItem (items.reverse ++ done)) rest
  | [], done => rfl
  | item :: items, done => by
    rw [tokensOfItems, List.cons_append, List.append_assoc, readFrom_cons, step?, Option.bind_some,
      read_tokens (.items done :: outer) _ item, deliver, read_items outer rest items (item :: done)]
    simp

theorem read_members (outer : List Frame) (rest : List Token) :
    ∀ (members done : List (String × Json)),
    readFrom (outer, .nextMember done) (tokensOfMembers members ++ rest) =
      readFrom (outer, .nextMember (members.reverse ++ done)) rest
  | [], done => rfl
  | (key, value) :: members, done => by
    rw [tokensOfMembers]
    simp only [List.cons_append, List.append_assoc, readFrom_cons, step?, Option.bind_some,
      read_tokens (.field done key :: outer) _ value, deliver,
      read_members outer rest members ((key, value) :: done)]
    simp

end

theorem ofTokens_tokens (document : Json) : ofTokens? document.tokens = some document := by
  have whole := read_tokens [] [] document
  rw [List.append_nil] at whole
  have read : document.tokens.foldlM step? ([], .value) = some ([], .finished document) := whole
  rw [ofTokens?, read]
  rfl

/-- **A written document reads back.** If its numbers and strings are well formed then its text stands
for it. -/
theorem parse_render {document : Json} (well : document.WellWritten) :
    parse? (render document) = some document := by
  rw [parse?, scan_render well, Option.bind_eq_bind, Option.bind_some, ofTokens_tokens]

end SpectrumShare.Json
