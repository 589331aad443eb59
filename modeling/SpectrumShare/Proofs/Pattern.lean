import Mathlib.Data.List.Forall2
import SpectrumShare.Interference
import SpectrumShare.Proofs.Exact

/-!
# The nearest sample on the circle

From one angle to another there are many ways round the circle, one for each number of whole turns that is
put in between. A pattern is searched for the sample with the shortest of them:

* `shortWay_isLeast`: the short way round is the least of them all;
* `shortWay_neg`, `shortWay_add_turns`: so it is as long from the other end, and whole turns do not count;
* `exists_first_least`: a search that gives way to lesser values alone finds the first of the least;
* `nearest_sample`: so the gain in a direction is that of the first sample nearest to it on the circle.
-/

namespace SpectrumShare

open Scalar

/-- Remainders that are those of exact arithmetic: what is left of a number after whole multiples of another
one, from zero up to but not the other one. -/
class Rounding.IsEuclidean (K : Type) [Field K] [LinearOrder K] [Rounding K] : Prop where
  remainder_nonneg (a : K) {b : K} (positive : 0 < b) : 0 ≤ Rounding.remainder a b
  remainder_lt (a : K) {b : K} (positive : 0 < b) : Rounding.remainder a b < b
  exists_multiple (a : K) {b : K} (positive : 0 < b) : ∃ k : Int, Rounding.remainder a b = a + b * k

instance : Rounding.IsEuclidean ℚ where
  remainder_nonneg a b positive := by
    change 0 ≤ a - |b| * ⌊a / |b|⌋
    rw [abs_of_pos positive]
    have below := Int.floor_le (a / b)
    rw [le_div_iff₀ positive] at below
    linarith
  remainder_lt a b positive := by
    change a - |b| * ⌊a / |b|⌋ < b
    rw [abs_of_pos positive]
    have above := Int.lt_floor_add_one (a / b)
    rw [div_lt_iff₀ positive] at above
    linarith
  exists_multiple a b positive := by
    refine ⟨-⌊a / b⌋, ?_⟩
    change a - |b| * ⌊a / |b|⌋ = _
    rw [abs_of_pos positive]
    push_cast
    ring

namespace Direction

variable {K : Type} [Field K] [LinearOrder K] [Rounding K]

theorem between_eq (a b : K) : between a b = .toward (a - b) := by
  simp [between, isNumber, isBounded]

theorem precedes_toward (a b : K) : (toward a).precedes (toward b) = decide (a < b) := by
  simp only [precedes, same]
  by_cases apart : a = b
  · subst apart
    simp
  · have unequal : ¬ (a ≤ b ∧ b ≤ a) := fun both => apart (le_antisymm both.1 both.2)
    simp [unequal]

end Direction

theorem Sphere.direction_eq {K : Type} [Field K] [LinearOrder K] [Rounding K] [Trigonometry K]
    (a b : Position K) : Sphere.direction a b = .toward (Sphere.bearing a b) := by
  simp [Sphere.direction, isNumber]

namespace Pattern

/-- A search that gives way to lesser values alone ends with the first of the least. -/
theorem exists_first_least {β K : Type} [LinearOrder K] (f : β → K) {s best : β} {rest : List β}
    (ends : rest.foldl (fun best t => if f t < f best then t else best) s = best) :
    ∃ before after, s :: rest = before ++ best :: after ∧ (∀ t ∈ before, f best < f t) ∧
      ∀ t ∈ after, f best ≤ f t := by
  induction rest using List.reverseRecOn generalizing best with
  | nil => exact ⟨[], [], congrArg (· :: []) ends, nofun, nofun⟩
  | append_singleton rest t ih =>
    obtain ⟨before, after, split, first, least⟩ := ih rfl
    rw [List.foldl_concat] at ends
    generalize rest.foldl (fun best t => if f t < f best then t else best) s = held at split first least ends
    by_cases lesser : f t < f held
    · -- all that was seen before is no less than what was held
      rw [if_pos lesser] at ends
      subst ends
      refine ⟨s :: rest, [], rfl, ?_, nofun⟩
      intro u there
      rw [split] at there
      rcases List.mem_append.1 there with early | late
      · exact lesser.trans (first u early)
      · rcases List.mem_cons.1 late with rfl | late
        · exact lesser
        · exact lesser.trans_le (least u late)
    · rw [if_neg lesser] at ends
      subst ends
      refine ⟨before, after ++ [t], ?_, first, ?_⟩
      · rw [← List.cons_append, split, List.append_assoc, List.cons_append]
      · intro u there
        rcases List.mem_append.1 there with late | last
        · exact least u late
        · rw [List.mem_singleton.1 last]
          exact not_lt.1 lesser

section

variable {K : Type} [Field K] [LinearOrder K]

/-- How far it is round the circle, by whole turns more or less. -/
def ways (angle : K) : Set K := Set.range fun turns : Int => |angle + 360 * turns|

theorem ways_neg (angle : K) : ways (-angle) = ways angle := by
  have within (a : K) : ways (-a) ⊆ ways a := by
    rintro _ ⟨n, rfl⟩
    refine ⟨-n, ?_⟩
    dsimp only
    rw [← abs_neg]
    congr 1
    push_cast
    ring
  apply Set.Subset.antisymm (within angle)
  have back := within (-angle)
  rwa [neg_neg] at back

theorem ways_add_turns (angle : K) (k : Int) : ways (angle + 360 * k) = ways angle := by
  have within (a : K) (j : Int) : ways (a + 360 * j) ⊆ ways a := by
    rintro _ ⟨n, rfl⟩
    refine ⟨j + n, ?_⟩
    dsimp only
    congr 1
    push_cast
    ring
  apply Set.Subset.antisymm (within angle k)
  have back := within (angle + 360 * k) (-k)
  have undone : angle + 360 * (k : K) + 360 * ((-k : Int) : K) = angle := by
    push_cast
    ring
  rwa [undone] at back

variable [Rounding K]

theorem gap_toward (angle offset : K) : gap angle (.toward offset) = .toward (shortWay (angle - offset)) := by
  rw [gap, Direction.between_eq]
  rfl

theorem offset_toward (boresight bearing : K) :
    offset boresight (.toward bearing) = .toward (wrap (bearing - boresight)) := by
  rw [offset, Direction.between_eq]
  rfl

theorem nearest?_toward (offset : K) (s : PatternSample K) (rest : List (PatternSample K)) :
    nearest? (.toward offset) (s :: rest) =
      some (rest.foldl (fun best t =>
        if shortWay (t.angle - offset) < shortWay (best.angle - offset) then t else best) s) := by
  simp only [nearest?, gap_toward, Direction.precedes_toward, decide_eq_true_eq]

theorem shortWay_eq (angle : K) : shortWay angle = min (wrap angle) (360 - wrap angle) := by
  simp [shortWay, least_eq_min, Sphere.fullTurn]

end

/-! ### The short way round -/

variable {K : Type} [Field K] [LinearOrder K] [IsStrictOrderedRing K] [Rounding K] [Rounding.IsEuclidean K]

/-- A wrapped angle lies within one turn, whole turns away from the angle. -/
theorem wrap_within (angle : K) :
    0 ≤ wrap angle ∧ wrap angle < 360 ∧ ∃ k : Int, wrap angle = angle + 360 * k := by
  have turn : (Sphere.fullTurn : K) = 360 := by simp [Sphere.fullTurn]
  have positive : (0 : K) < 360 := by norm_num
  rw [wrap, turn]
  exact ⟨Rounding.IsEuclidean.remainder_nonneg angle positive,
    Rounding.IsEuclidean.remainder_lt angle positive, Rounding.IsEuclidean.exists_multiple angle positive⟩

/-- The short way goes on to the wrapped angle or back to it. -/
theorem shortWay_mem_ways (angle : K) : shortWay angle ∈ ways angle := by
  obtain ⟨low, high, k, turned⟩ := wrap_within angle
  rw [shortWay_eq]
  rcases min_choice (wrap angle) (360 - wrap angle) with forward | back
  · rw [forward]
    refine ⟨k, ?_⟩
    dsimp only
    rw [← turned, abs_of_nonneg low]
  · rw [back]
    refine ⟨k - 1, ?_⟩
    have behind : angle + 360 * ((k - 1 : Int) : K) = wrap angle - 360 := by
      rw [turned]
      push_cast
      ring
    dsimp only
    rw [behind, abs_of_neg (by linarith), neg_sub]

/-- No other turns make a shorter way. -/
theorem shortWay_le_way {angle way : K} (there : way ∈ ways angle) : shortWay angle ≤ way := by
  obtain ⟨low, high, k, turned⟩ := wrap_within angle
  obtain ⟨n, rfl⟩ := there
  have further : angle + 360 * (n : K) = wrap angle + 360 * ((n - k : Int) : K) := by
    rw [turned]
    push_cast
    ring
  dsimp only
  rw [shortWay_eq, further]
  by_cases forward : 0 ≤ n - k
  · have turns : (0 : K) ≤ ((n - k : Int) : K) := by exact_mod_cast forward
    have ahead := le_abs_self (wrap angle + 360 * ((n - k : Int) : K))
    have first := min_le_left (wrap angle) (360 - wrap angle)
    linarith
  · have turns : ((n - k : Int) : K) ≤ -1 := by exact_mod_cast (by omega : n - k ≤ -1)
    have behind := neg_abs_le (wrap angle + 360 * ((n - k : Int) : K))
    have second := min_le_right (wrap angle) (360 - wrap angle)
    linarith

/-- The short way round is the least of all the ways. -/
theorem shortWay_isLeast (angle : K) : IsLeast (ways angle) (shortWay angle) :=
  ⟨shortWay_mem_ways angle, fun _ there => shortWay_le_way there⟩

theorem shortWay_nonneg (angle : K) : 0 ≤ shortWay angle := by
  obtain ⟨low, high, -⟩ := wrap_within angle
  rw [shortWay_eq, le_min_iff]
  constructor <;> linarith

omit [Rounding.IsEuclidean K] in
theorem shortWay_le (angle : K) : shortWay angle ≤ 180 := by
  rw [shortWay_eq, min_le_iff]
  by_cases before : wrap angle ≤ 180
  · exact .inl before
  · right
    linarith

theorem shortWay_neg (angle : K) : shortWay (-angle) = shortWay angle := by
  have least := shortWay_isLeast (-angle)
  rw [ways_neg] at least
  exact least.unique (shortWay_isLeast angle)

theorem shortWay_add_turns (angle : K) (k : Int) : shortWay (angle + 360 * k) = shortWay angle := by
  have least := shortWay_isLeast (angle + 360 * k)
  rw [ways_add_turns] at least
  exact least.unique (shortWay_isLeast angle)

/-- A direction may be wrapped before it is compared with an angle. -/
theorem shortWay_sub_wrap (angle direction : K) :
    shortWay (angle - wrap direction) = shortWay (angle - direction) := by
  obtain ⟨-, -, k, turned⟩ := wrap_within direction
  rw [← shortWay_add_turns (angle - direction) (-k), turned]
  congr 1
  push_cast
  ring

/-! ### The search for the nearest sample -/

/-- The gain is that of the sample the search ends with. -/
theorem gain_toward (s : PatternSample K) (rest : List (PatternSample K)) (boresight bearing : K) :
    gain (s :: rest) boresight (.toward bearing) =
      (rest.foldl (fun best t => if shortWay (t.angle - (bearing - boresight)) <
        shortWay (best.angle - (bearing - boresight)) then t else best) s).gain := by
  rw [gain, offset_toward, nearest?_toward]
  simp only [shortWay_sub_wrap]

/-- The first sample of a pattern from which no way round to a direction is longer than the least one from
any other sample. -/
def IsNearest (pattern : List (PatternSample K)) (direction : K) (s : PatternSample K) : Prop :=
  ∃ before after distance, pattern = before ++ s :: after ∧
    IsLeast (ways (s.angle - direction)) distance ∧
    (∀ t ∈ before, ∀ way ∈ ways (t.angle - direction), distance < way) ∧
    ∀ t ∈ after, ∀ way ∈ ways (t.angle - direction), distance ≤ way

theorem exists_nearest {pattern : List (PatternSample K)} (sampled : pattern ≠ []) (boresight bearing : K) :
    ∃ s, IsNearest pattern (bearing - boresight) s ∧
      gain pattern boresight (.toward bearing) = s.gain := by
  obtain ⟨s, rest, rfl⟩ := List.exists_cons_of_ne_nil sampled
  obtain ⟨before, after, split, first, least⟩ :=
    exists_first_least (fun t : PatternSample K => shortWay (t.angle - (bearing - boresight))) rfl
  refine ⟨_, ⟨before, after, _, split, shortWay_isLeast _, ?_, ?_⟩, gain_toward s rest boresight bearing⟩
  · intro t early way there
    exact (first t early).trans_le (shortWay_le_way there)
  · intro t late way there
    exact (least t late).trans (shortWay_le_way there)

/-- Samples of one gain whose angles are whole turns apart. -/
def Alike (s t : PatternSample K) : Prop := t.gain = s.gain ∧ ∃ k : Int, t.angle = s.angle + 360 * k

/-- Whole turns of the samples, of the boresight or of the bearing do not change the gain. -/
theorem gain_of_alike {pattern turned : List (PatternSample K)} (alike : List.Forall₂ Alike pattern turned)
    (boresight bearing : K) (m n : Int) :
    gain turned (boresight + 360 * m) (.toward (bearing + 360 * n)) =
      gain pattern boresight (.toward bearing) := by
  have level {s t : PatternSample K} (same : Alike s t) :
      shortWay (t.angle - (bearing + 360 * n - (boresight + 360 * m))) =
        shortWay (s.angle - (bearing - boresight)) := by
    obtain ⟨-, k, turns⟩ := same
    rw [← shortWay_add_turns (s.angle - (bearing - boresight)) (k - n + m), turns]
    congr 1
    push_cast
    ring
  cases alike with
  | nil => rfl
  | cons first others =>
    rw [gain_toward, gain_toward]
    refine (List.rel_foldl (P := Alike) (R := Alike) ?_ first others).1
    intro best best' ahead t t' next
    dsimp only
    rw [level ahead, level next]
    split
    · exact next
    · exact ahead

omit [IsStrictOrderedRing K] [Rounding.IsEuclidean K] in
theorem gain_add (pattern : List (PatternSample K)) (boresight bearing turn : K) :
    gain pattern (boresight + turn) (.toward (bearing + turn)) =
      gain pattern boresight (.toward bearing) := by
  rw [gain, gain, offset_toward, offset_toward, add_sub_add_right_eq_sub]

/-- The gap between two angles is the least way round from one to the other, from either of them. -/
theorem gap_isLeast (angle offset : K) :
    ∃ distance, gap angle (.toward offset) = .toward distance ∧ gap offset (.toward angle) = .toward distance ∧
      IsLeast (ways (angle - offset)) distance ∧ 0 ≤ distance ∧ distance ≤ 180 := by
  refine ⟨_, gap_toward angle offset, ?_, shortWay_isLeast _, shortWay_nonneg _, shortWay_le _⟩
  rw [gap_toward, ← neg_sub, shortWay_neg]

/-- **The gain is that of the nearest sample.** In exact arithmetic let a pattern have samples at any angles.
For every boresight and bearing its gain is that of the first sample from which the least of all ways round the
circle to the bearing, seen from the boresight, is not longer than from any other sample. The gap by which
samples are compared is that least way; it is the same from either end and lies between nought and a half turn.
The gain stays the same when boresight and bearing are turned by one angle, and when whole turns are put to the
boresight, to the bearing or to the angles of the samples. -/
theorem nearest_sample {pattern : List (PatternSample K)} (sampled : pattern ≠ []) (boresight bearing : K) :
    (∃ s, IsNearest pattern (bearing - boresight) s ∧ gain pattern boresight (.toward bearing) = s.gain) ∧
    (∀ angle offset : K, ∃ distance,
      gap angle (.toward offset) = .toward distance ∧ gap offset (.toward angle) = .toward distance ∧
        IsLeast (ways (angle - offset)) distance ∧ 0 ≤ distance ∧ distance ≤ 180) ∧
    (∀ turn : K, gain pattern (boresight + turn) (.toward (bearing + turn)) =
      gain pattern boresight (.toward bearing)) ∧
    ∀ turned, List.Forall₂ Alike pattern turned → ∀ m n : Int,
      gain turned (boresight + 360 * m) (.toward (bearing + 360 * n)) =
        gain pattern boresight (.toward bearing) :=
  ⟨exists_nearest sampled boresight bearing, gap_isLeast, gain_add pattern boresight bearing,
    fun _ alike m n => gain_of_alike alike boresight bearing m n⟩

/-- Samples at 190, 10 and 10 degrees, some whole turns away. -/
def scattered : List (PatternSample ℚ) := [⟨550, -30⟩, ⟨-350, -1⟩, ⟨730, -2⟩]

/-- The same samples within one turn. -/
def gathered : List (PatternSample ℚ) := [⟨190, -30⟩, ⟨10, -1⟩, ⟨10, -2⟩]

/-- The bearing lies 10 degrees from the boresight. Of the two samples there the first has the gain, and the one
behind is half a turn away from it. -/
theorem nearest_sample_behind :
    scattered ≠ [] ∧
    (∃ s, IsNearest scattered (-260 - 450) s ∧ (-1 : ℚ) = s.gain) ∧
    (∃ distance, gap 550 (.toward (-350)) = .toward distance ∧
      gap (-350) (.toward 550) = .toward distance ∧ IsLeast (ways (550 - -350 : ℚ)) distance ∧
      0 ≤ distance ∧ distance ≤ 180) ∧
    gain scattered (450 + 5) (.toward (-260 + 5)) = -1 ∧
    List.Forall₂ Alike scattered gathered ∧
    gain gathered (450 + 360 * (-1 : Int)) (.toward (-260 + 360 * (1 : Int))) = -1 := by
  have sampled : scattered ≠ [] := by decide
  have first : gain scattered 450 (.toward (-260)) = -1 := by decide +kernel
  have alike : List.Forall₂ Alike scattered gathered := by
    refine .cons ⟨rfl, -1, ?_⟩ (.cons ⟨rfl, 1, ?_⟩ (.cons ⟨rfl, -2, ?_⟩ .nil)) <;> norm_num
  obtain ⟨near, gaps, turns, whole⟩ := nearest_sample sampled 450 (-260)
  rw [first] at near
  exact ⟨sampled, near, gaps 550 (-350), (turns 5).trans first, alike,
    (whole gathered alike (-1) 1).trans first⟩

end Pattern

variable {K : Type} [Field K] [LinearOrder K] [IsStrictOrderedRing K] [Rounding K] [Rounding.IsEuclidean K]

/-- A sector antenna receives a grant with the gain of the sample that is nearest to its bearing. -/
theorem FreeSpace.receiveGain_of_sector [Trigonometry K] (space : FreeSpace K) (grant point : Position K)
    {antenna : SectorAntenna K} (sampled : antenna.pattern ≠ []) :
    ∃ s, Pattern.IsNearest antenna.pattern (Sphere.bearing point grant - antenna.azimuth) s ∧
      space.receiveGain grant point (.sector antenna) = antenna.gain + s.gain := by
  obtain ⟨s, nearest, gains⟩ :=
    Pattern.exists_nearest sampled antenna.azimuth (Sphere.bearing point grant)
  refine ⟨s, nearest, ?_⟩
  have some_sample : antenna.pattern.isEmpty = false := by simpa using sampled
  rw [receiveGain, some_sample, Sphere.direction_eq, gains]
  rfl

end SpectrumShare
