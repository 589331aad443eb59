import Mathlib.Algebra.Order.Floor.Div
import SpectrumShare.Demo.Mixer
import SpectrumShare.Proofs.Text

/-! # Grants dealt out in turn

Items are dealt out one after the other, and the holders take turns: at each of its turns a holder has the
item of that round, and together they have what was dealt out. So no grant of a demo is lost or counted
twice among the authorities. -/

namespace SpectrumShare.Demo

/-! ### One item after the other -/

section

variable {ν : Type} {holders holder : Nat}

/-- An item more falls to the one whose turn it is. -/
theorem share_concat (items : List ν) (item : ν) :
    share holders holder (items ++ [item]) =
      if items.length % holders = holder then share holders holder items ++ [item]
      else share holders holder items := by
  have last : (items ++ [item]).zipIdx = items.zipIdx ++ [(item, items.length)] := by
    rw [List.zipIdx_append, Nat.zero_add]
    rfl
  rw [share, last, List.filter_append, List.map_append]
  by_cases turn : items.length % holders = holder
  · rw [if_pos turn]
    simp [share, turn]
  · rw [if_neg turn]
    simp [share, turn]

/-- An item more goes to the end of what one of the holders has. -/
theorem deal_concat (items : List ν) (item : ν) :
    deal holders (items ++ [item]) = (deal holders items).modify (items.length % holders) (· ++ [item]) := by
  apply List.ext_getElem?
  intro i
  rw [List.getElem?_modify, deal, deal, List.getElem?_map, List.getElem?_map]
  by_cases within : i < holders
  · rw [List.getElem?_range within]
    simp only [Option.map_some, Option.map_eq_map, share_concat]
  · rw [List.getElem?_eq_none (by simpa using within)]
    rfl

theorem deal_perm (some_holder : 0 < holders) (items : List ν) : (deal holders items).flatten.Perm items := by
  induction items using List.reverseRecOn with
  | nil =>
    have nothing : (deal holders ([] : List ν)).flatten = [] := by
      simp [deal, share]
    rw [nothing]
  | append_singleton items item ih =>
    have turn : items.length % holders < (deal holders items).length := by
      rw [deal, List.length_map, List.length_range]
      exact Nat.mod_lt _ some_holder
    obtain ⟨before, held, after, split, -, given⟩ := List.exists_of_modify (· ++ [item]) turn
    have end_of_held : (held ++ [item] ++ after.flatten).Perm (held ++ after.flatten ++ [item]) := by
      rw [List.append_assoc, List.append_assoc]
      exact List.perm_append_comm.append_left held
    rw [split, List.flatten_append, List.flatten_cons] at ih
    rw [deal_concat, given, List.flatten_append, List.flatten_cons]
    refine (end_of_held.append_left before.flatten).trans ?_
    rw [← List.append_assoc]
    exact ih.append_right [item]

/-- How many items a holder has is told by the turns at which there are none left. -/
theorem length_le_iff_of_turns {items held : List ν}
    (turns : ∀ turn, held[turn]? = items[holder + turn * holders]?) (turn : Nat) :
    held.length ≤ turn ↔ items.length ≤ holder + turn * holders := by
  rw [← List.getElem?_eq_none_iff, turns, List.getElem?_eq_none_iff]

theorem getElem?_concat (items : List ν) (item : ν) (i : Nat) :
    (items ++ [item])[i]? = if i = items.length then some item else items[i]? := by
  by_cases last : i = items.length
  · rw [if_pos last, last, List.getElem?_concat_length]
  · rw [if_neg last]
    by_cases early : i < items.length
    · exact List.getElem?_append_left early
    · rw [List.getElem?_eq_none (by rw [List.length_append, List.length_singleton]; omega),
        List.getElem?_eq_none (by omega)]

/-- At each turn a holder has the item that lies as many rounds after its first one. -/
theorem share_getElem? (within : holder < holders) (items : List ν) (turn : Nat) :
    (share holders holder items)[turn]? = items[holder + turn * holders]? := by
  have some_holder : 0 < holders := by omega
  induction items using List.reverseRecOn generalizing turn with
  | nil => rfl
  | append_singleton items item ih =>
    rw [share_concat, getElem?_concat]
    by_cases next : items.length % holders = holder
    · -- the turn comes when all rounds before it are full
      have place : items.length = holder + items.length / holders * holders := by
        have parts := Nat.mod_add_div' items.length holders
        omega
      have rounds (m n : Nat) : m * holders ≤ n * holders ↔ m ≤ n := Nat.mul_le_mul_right_iff some_holder
      have size : (share holders holder items).length = items.length / holders := by
        apply eq_of_forall_ge_iff
        intro t
        have full := rounds (items.length / holders) t
        rw [length_le_iff_of_turns ih]
        omega
      have due : turn = (share holders holder items).length ↔ holder + turn * holders = items.length := by
        have before := rounds turn (items.length / holders)
        have after := rounds (items.length / holders) turn
        rw [size]
        omega
      rw [if_pos next, getElem?_concat, ih]
      simp only [due]
    · have other : holder + turn * holders ≠ items.length := by
        intro same
        apply next
        rw [← same, Nat.add_mul_mod_self_right, Nat.mod_eq_of_lt within]
      rw [if_neg next, if_neg other, ih]

theorem share_length_le_iff (within : holder < holders) (items : List ν) (turns : Nat) :
    (share holders holder items).length ≤ turns ↔ items.length ≤ holder + turns * holders :=
  length_le_iff_of_turns (share_getElem? within items) turns

/-- Who comes earlier has as many items, or one more. -/
theorem share_lengths {later : Nat} (items : List ν) (before : holder < later) (within : later < holders) :
    (share holders later items).length ≤ (share holders holder items).length ∧
      (share holders holder items).length ≤ (share holders later items).length + 1 := by
  have first := (share_length_le_iff (before.trans within) items _).1 le_rfl
  have second := (share_length_le_iff within items _).1 le_rfl
  constructor
  · rw [share_length_le_iff within]
    omega
  · rw [share_length_le_iff (before.trans within), Nat.add_one_mul]
    omega

theorem share_length_first (some_holder : 0 < holders) (items : List ν) :
    (share holders 0 items).length = items.length ⌈/⌉ holders := by
  apply eq_of_forall_ge_iff
  intro turns
  rw [share_length_le_iff some_holder, ceilDiv_le_iff_le_mul some_holder, Nat.zero_add, Nat.mul_comm]

end

/-! ### Identifiers -/

/-- Zeros in front of the digits do not change the number, however many digits there are. -/
theorem grantId_injective : Function.Injective grantId := by
  have stands (index : Nat) : Nat.ofDigitChars 10 ((grantId index).toList.drop 5) 0 = index := by
    have digits : (grantId index).toList.drop 5 =
        List.replicate (3 - (toString index).length) '0' ++ Nat.toDigits 10 index := by
      simp only [grantId, String.toList_append, String.toList_ofList, toList_toString]
      rfl
    rw [digits, Nat.ofDigitChars_append, Nat.ofDigitChars_replicate_zero, Nat.mul_zero,
      Nat.ofDigitChars_ten_toDigits]
  intro i j same
  rw [← stands i, same, stands j]

/-! ### The scenario -/

variable {σ α : Type} [Scalar α] [Trigonometry α]

theorem randomGrant_id (chance : Chance σ α) (index : Nat) (source : σ) :
    ((randomGrant chance index).run source).1.id = grantId index := rfl

theorem randomGrants_ids (chance : Chance σ α) (indices : List Nat) (source : σ) :
    ((indices.mapM (randomGrant chance)).run source).1.map (·.id) = indices.map grantId := by
  induction indices generalizing source with
  | nil => rfl
  | cons index indices ih =>
    rw [List.mapM_cons]
    exact congrArg₂ List.cons (randomGrant_id chance index source) (ih _)

/-- The grants that a demo makes, before they are dealt out. -/
def drawn (chance : Chance σ α) (grants : Nat) (source : σ) : List (Grant α) :=
  (((List.range grants).mapM (randomGrant chance)).run source).1

theorem drawn_ids (chance : Chance σ α) (grants : Nat) (source : σ) :
    (drawn chance grants source).map (·.id) = (List.range grants).map grantId :=
  randomGrants_ids chance (List.range grants) source

theorem drawn_length (chance : Chance σ α) (grants : Nat) (source : σ) :
    (drawn chance grants source).length = grants := by
  have ids := congrArg List.length (drawn_ids chance grants source)
  rwa [List.length_map, List.length_map, List.length_range] at ids

end SpectrumShare.Demo

namespace SpectrumShare

/-- The activity dumps of a scenario, that of the local authority first. -/
def Scenario.dumps {α : Type} (s : Scenario α) : List (List (Grant α)) := s.own :: s.others

theorem GrantSet.managedCount_ofDumps {α : Type} (own : List (Grant α)) (others : List (List (Grant α))) :
    (GrantSet.ofDumps own others).managedCount = own.length := by
  simp [GrantSet.managedCount, GrantSet.ofDumps, Function.comp_def]

theorem Scenario.grantSet_length {α : Type} (s : Scenario α) :
    s.grantSet.grants.length = s.dumps.flatten.length := by
  simp [Scenario.grantSet, Scenario.dumps, GrantSet.ofDumps, Function.comp_def]

namespace Demo

variable {σ α : Type} [Scalar α] [Trigonometry α]

theorem scenario_dumps (chance : Chance σ α) (grants peers : Nat) (source : σ) :
    ((scenario chance grants peers).run source).1.dumps =
      deal (peers + 1) (drawn chance grants source) := by
  change (deal (peers + 1) (drawn chance grants source)).headD [] ::
    (deal (peers + 1) (drawn chance grants source)).tail = _
  rw [deal, List.range_succ_eq_map]
  rfl

theorem scenario_others (chance : Chance σ α) (grants peers : Nat) (source : σ) :
    ((scenario chance grants peers).run source).1.others.length = peers := by
  have dumps := congrArg List.length (scenario_dumps chance grants peers source)
  rw [deal, List.length_map, List.length_range] at dumps
  exact Nat.succ_injective dumps

/-- **Demo grants are dealt out without loss.** From whatever source the grants of a demo are drawn, they are as
many as were asked for, each with the identifier of its index. Each of the peers has a dump, and so has the
local authority. The dump of a holder, counted from the local one, has at each turn the grant that lies as many
rounds after the first one of the holder, and nothing else. So the dumps have all grants together, with
identifiers that are told apart; they differ by one grant at most and get no longer along the row. The grant set
counts all the authorities and all the grants, and the grants of a full or partial round for the local one. -/
theorem dealt_without_loss (chance : Chance σ α) (grants peers : Nat) (source : σ) :
    let made := drawn chance grants source
    let scene := ((scenario chance grants peers).run source).1
    made.map (·.id) = (List.range grants).map grantId ∧
    scene.others.length = peers ∧
    (∀ holder ≤ peers, ∃ dump, scene.dumps[holder]? = some dump ∧
      ∀ turn, dump[turn]? = made[holder + turn * (peers + 1)]?) ∧
    scene.dumps.flatten.Perm made ∧ scene.dumps.flatten.length = grants ∧
    (scene.dumps.flatten.map (·.id)).Nodup ∧
    (scene.dumps.Pairwise fun earlier later =>
      later.length ≤ earlier.length ∧ earlier.length ≤ later.length + 1) ∧
    scene.grantSet.peers = peers + 1 ∧ scene.grantSet.grants.length = grants ∧
      scene.grantSet.managedCount = grants ⌈/⌉ (peers + 1) := by
  intro made scene
  have some_holder : 0 < peers + 1 := Nat.succ_pos peers
  have dumps : scene.dumps = deal (peers + 1) made := scenario_dumps chance grants peers source
  have others : scene.others.length = peers := scenario_others chance grants peers source
  have ids : made.map (·.id) = (List.range grants).map grantId := drawn_ids chance grants source
  have together : scene.dumps.flatten.Perm made := dumps ▸ deal_perm some_holder made
  have count : scene.dumps.flatten.length = grants :=
    together.length_eq.trans (drawn_length chance grants source)
  refine ⟨ids, others, ?_, together, count, ?_, ?_, congrArg Nat.succ others, ?_, ?_⟩
  · intro holder within
    refine ⟨share (peers + 1) holder made, ?_, share_getElem? (Nat.lt_succ_of_le within) made⟩
    rw [dumps, deal, List.getElem?_map, List.getElem?_range (Nat.lt_succ_of_le within)]
    rfl
  · rw [(together.map (·.id)).nodup_iff, ids]
    exact List.nodup_range.map grantId_injective
  · rw [dumps, deal, List.pairwise_map]
    apply List.pairwise_lt_range.imp_of_mem
    intro holder later _ within before
    exact share_lengths made before (List.mem_range.1 within)
  · rw [Scenario.grantSet_length, count]
  · have own : scene.own = share (peers + 1) 0 made := by
      rw [Scenario.dumps, deal, List.range_succ_eq_map] at dumps
      exact (List.cons.inj dumps).1
    rw [Scenario.grantSet, GrantSet.managedCount_ofDumps, own, share_length_first some_holder, drawn_length]

/-- Of 1010 grants among four authorities the first peer has at its 252nd turn one whose identifier outgrows three
digits, and at its next turn but one none any more. The local authority manages one in four, rounded up. -/
theorem dealt_without_loss_thousand :
    1 ≤ 3 ∧
    (∃ dump, ((scenario Mixer.chance 1010 3).run ⟨7⟩).1.dumps[1]? = some dump ∧
      dump[251]?.map (·.id) = some "CBSD-1005" ∧ dump[253]? = none) ∧
    ((scenario Mixer.chance 1010 3).run ⟨7⟩).1.grantSet.managedCount = 253 := by
  obtain ⟨ids, -, turns, -, -, -, -, -, -, managed⟩ := dealt_without_loss Mixer.chance 1010 3 ⟨7⟩
  obtain ⟨dump, listed, has⟩ := turns 1 (by decide)
  refine ⟨by decide, ⟨dump, listed, ?_, ?_⟩, managed.trans (by decide)⟩
  · rw [has, ← List.getElem?_map, ids]
    decide +kernel
  · rw [has, List.getElem?_eq_none]
    rw [drawn_length]
    decide

end Demo

end SpectrumShare
