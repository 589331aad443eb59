import Mathlib.Algebra.Order.Module.Defs
import Mathlib.Algebra.Order.Module.Synonym
import Mathlib.Algebra.Order.Monoid.Prod
import Mathlib.Data.List.Chain
import Mathlib.Data.List.MinMax
import SpectrumShare.Proofs.HalfPlane

/-!
# What is inside a convex polygon

A polygon is convex when it turns to one side only. A place is told to be inside it by counting the edges
that its parallel crosses, and lies inside it when it is on the inner side of every edge:

* `Convex.peak`: the walk round a convex polygon turns downward at its highest vertex only;
* `crossesOddly_of_valley`: so the walk goes down once and up once, and with a place on its left it crosses
  once to the east of the place;
* `convex_exact`: counting crossings and looking at the sides of the edges come to the same.
-/

namespace SpectrumShare.Polygon

variable {K : Type} [Field K] [LinearOrder K] [IsStrictOrderedRing K] [Rounding K] {p : Position K}

/-! ## The steps round a polygon -/

section

variable {α : Type} {R : Position α → Position α → Prop}

theorem forall_mem_zip_iff {first : Position α} {rest : List (Position α)} :
    (∀ e ∈ (first :: rest).zip rest, R e.1 e.2) ↔ (first :: rest).IsChain R := by
  induction rest generalizing first with
  | nil => simp
  | cons w rest ih => rw [List.zip_cons_cons, List.forall_mem_cons, List.isChain_cons_cons, ih]

/-- The edges of a polygon are the steps of the walk that comes back to its first vertex. -/
theorem forall_edges_cons {v : Position α} {rest : List (Position α)} :
    (∀ e ∈ edges (v :: rest), R e.1 e.2) ↔ (v :: rest ++ [v]).IsChain R := by
  obtain ⟨last, ends⟩ : ∃ last, (v :: rest).getLast? = some last :=
    ⟨_, List.getLast?_eq_some_getLast (by simp)⟩
  obtain ⟨walk, parted⟩ := List.getLast?_eq_some_iff.1 ends
  rw [edges, ends]
  change (∀ e ∈ (last :: v :: rest).zip (v :: rest), R e.1 e.2) ↔ _
  rw [forall_mem_zip_iff, List.isChain_cons_cons, parted, List.append_assoc, List.singleton_append,
    List.isChain_append_cons_cons]
  simp [and_comm]

theorem forall_edges_append_comm (xs ys : List (Position α)) :
    (∀ e ∈ edges (xs ++ ys), R e.1 e.2) ↔ ∀ e ∈ edges (ys ++ xs), R e.1 e.2 := by
  cases xs with
  | nil => simp
  | cons v xs =>
    cases ys with
    | nil => simp
    | cons w ys =>
      have parted (a b : Position α) (there back : List (Position α)) :
          (∀ e ∈ edges (a :: there ++ b :: back), R e.1 e.2) ↔
            (a :: (there ++ [b])).IsChain R ∧ (b :: (back ++ [a])).IsChain R := by
        rw [List.cons_append, forall_edges_cons, ← List.cons_append, List.append_assoc]
        exact List.isChain_cons_split
      rw [parted, parted, and_comm]

theorem forall_edges_reverse {ring : List (Position α)} :
    (∀ e ∈ edges ring.reverse, R e.1 e.2) ↔ ∀ e ∈ edges ring, R e.2 e.1 := by
  cases ring with
  | nil => simp [edges]
  | cons v rest =>
    have closed : v :: rest.reverse ++ [v] = (v :: rest ++ [v]).reverse := by simp
    rw [List.reverse_cons, forall_edges_append_comm, List.singleton_append, forall_edges_cons, closed,
      List.isChain_reverse]
    exact (forall_edges_cons (R := fun v w => R w v)).symm

theorem mem_of_mem_edges {ring : List (Position α)} {e : Position α × Position α} (there : e ∈ edges ring) :
    e.1 ∈ ring ∧ e.2 ∈ ring := by
  rw [edges] at there
  split at there
  · cases there
  · rename_i last ends
    obtain ⟨first, second⟩ := List.of_mem_zip there
    refine ⟨?_, second⟩
    rcases List.mem_cons.1 first with closing | listed
    · exact closing ▸ List.mem_of_getLast? ends
    · exact listed

end

/-! ## Heights -/

section

variable {K : Type}

/-- Places from south to north, and from west to east on one parallel. -/
def height (p : Position K) : K ×ₗ K := toLex (p.latitude, p.longitude)

theorem height_injective : Function.Injective (height : Position K → K ×ₗ K) := by
  rintro ⟨_, _⟩ ⟨_, _⟩ same
  rw [Position.mk.injEq]
  exact Prod.mk.inj (toLex.injective same)

theorem latitude_le_of_height [LinearOrder K] {v w : Position K} (rises : height v ≤ height w) :
    v.latitude ≤ w.latitude := by
  rcases Prod.Lex.toLex_le_toLex.1 rises with above | ⟨level, -⟩
  · exact above.le
  · exact level.le

/-- What is above a place to the north is to the north. -/
theorem isNorth_of_height [Field K] [LinearOrder K] [Rounding K] {p v w : Position K}
    (rises : height v ≤ height w) (north : isNorth p v = true) : isNorth p w = true :=
  decide_eq_true ((of_decide_eq_true north).trans_le (latitude_le_of_height rises))

theorem corner_latitude [Field K] (v w u x : Position K) :
    turn w u v * (x.latitude - w.latitude) =
      turn w u x * (v.latitude - w.latitude) + turn v w x * (u.latitude - w.latitude) := by
  simp only [turn]
  ring

/-- Two steps that meet at a vertex span the plane: a place is reached from the vertex by going towards
their other ends as far as it lies to the left of the steps. -/
theorem corner [Field K] (v w u x : Position K) :
    turn w u v • (height x - height w) =
      turn w u x • (height v - height w) + turn v w x • (height u - height w) := by
  apply ofLex.injective
  refine Prod.ext (corner_latitude v w u x) ?_
  change turn w u v * (x.longitude - w.longitude) =
    turn w u x * (v.longitude - w.longitude) + turn v w x * (u.longitude - w.longitude)
  simp only [turn]
  ring

end

theorem exists_greatest {β γ : Type} [LinearOrder γ] (f : β → γ) {values : List β} (some : values ≠ []) :
    ∃ before w after, values = before ++ w :: after ∧ ∀ v ∈ values, f v ≤ f w := by
  obtain ⟨w, greatest⟩ := Option.ne_none_iff_exists'.1 ((List.argmax_eq_none (f := f)).not.2 some)
  obtain ⟨before, after, parted⟩ := List.append_of_mem (List.argmax_mem greatest)
  exact ⟨before, w, after, parted, fun v there => List.le_of_mem_argmax there greatest⟩

instance lex_posSMulStrictMono : PosSMulStrictMono K (K ×ₗ K) where
  smul_lt_smul_of_pos_left a positive x y rises := by
    rcases Prod.Lex.lt_iff.1 rises with above | ⟨level, east⟩
    · exact Prod.Lex.lt_iff.2 (.inl (mul_lt_mul_of_pos_left above positive))
    · exact Prod.Lex.lt_iff.2 (.inr ⟨congrArg (a * ·) level, mul_lt_mul_of_pos_left east positive⟩)

/-! ## Walks that go down and then up -/

section

variable {K : Type} [LinearOrder K]

theorem mem_of_inner {β : Type} {first last b : β} {rest before after : List β}
    (parted : before ++ b :: after = first :: rest ++ [last]) (begun : before ≠ []) (more : after ≠ []) :
    b ∈ rest := by
  obtain ⟨x, before, rfl⟩ := List.exists_cons_of_ne_nil begun
  have later : before ++ b :: after = rest ++ [last] := (List.cons.inj parted).2
  have middle : before ++ b :: after.dropLast = rest := by
    simpa [List.dropLast_append_of_ne_nil, List.dropLast_cons_of_ne_nil more] using
      congrArg List.dropLast later
  exact middle ▸ List.mem_append_right before List.mem_cons_self

/-- A walk that turns downward nowhere. -/
def Valley (walk : List (Position K)) : Prop :=
  ∀ a b c, [a, b, c] <:+: walk → height a < height b → height b < height c

theorem Valley.tail {v : Position K} {walk : List (Position K)} (valley : Valley (v :: walk)) :
    Valley walk :=
  fun a b c inner => valley a b c (inner.trans (List.suffix_cons v walk).isInfix)

/-- Such a walk goes up once it has gone up. -/
theorem Valley.rises {v w : Position K} {walk : List (Position K)} (valley : Valley (v :: w :: walk))
    (first : height v < height w) : (v :: w :: walk).IsChain fun a b => height a < height b := by
  induction walk generalizing v w with
  | nil => exact List.isChain_pair.2 first
  | cons u walk ih =>
    have second : height w < height u := valley v w u ⟨[], walk, rfl⟩ first
    exact List.isChain_cons_cons.2 ⟨first, ih valley.tail second⟩

end

/-- A walk that goes up with a place on its left crosses to the east of the place when it comes to the
north of it. -/
theorem crossesOddly_of_rises {v last : Position K} {rest : List (Position K)}
    (rises : (v :: rest ++ [last]).IsChain fun a b => height a < height b)
    (left : (v :: rest ++ [last]).IsChain fun a b => 0 < turn a b p) :
    crossesOddly p (v :: rest ++ [last]) = (!isNorth p v && isNorth p last) := by
  induction rest generalizing v with
  | nil =>
    rw [List.singleton_append, crossesOddly_pair]
    exact crosses_of_left (List.isChain_cons_cons.1 left).1
  | cons w rest ih =>
    obtain ⟨first, later⟩ := List.isChain_cons_cons.1 rises
    obtain ⟨left_first, left_later⟩ := List.isChain_cons_cons.1 left
    have to_last : height w < height last := by
      have above := List.isChain_iff_pairwise.1 later
      exact List.rel_of_pairwise_cons above (by simp)
    have beyond := isNorth_of_height (p := p) to_last.le
    have before := isNorth_of_height (p := p) first.le
    rw [List.cons_append, List.cons_append, crossesOddly, ← List.cons_append, ih later left_later,
      crosses_of_left left_first]
    cases north_v : isNorth p v with
    | true => simp [before north_v]
    | false =>
      cases north_w : isNorth p w with
      | true => simp [beyond north_w]
      | false => simp

/-- A walk that goes down and then up, from and to the north of a place, and with the place on its left,
crosses once to the east of the place. -/
theorem crossesOddly_of_valley {v last : Position K} {rest : List (Position K)}
    (valley : Valley (v :: rest ++ [last])) (left : (v :: rest ++ [last]).IsChain fun a b => 0 < turn a b p)
    (north : isNorth p last = true) (south : ∃ w ∈ v :: rest, isNorth p w = false) :
    crossesOddly p (v :: rest ++ [last]) = true := by
  induction rest generalizing v with
  | nil =>
    obtain ⟨w, there, south⟩ := south
    obtain rfl := List.mem_singleton.1 there
    rw [List.singleton_append, crossesOddly_pair, crosses_of_left (List.isChain_cons_cons.1 left).1, south,
      north]
    rfl
  | cons w rest ih =>
    obtain ⟨u, there, south⟩ := south
    by_cases rises : height v < height w
    · -- the walk has come to its lowest vertex, and a vertex to the south is not below it
      have rising := valley.rises rises
      have lowest : height v ≤ height u := by
        rcases List.mem_cons.1 there with rfl | later
        · exact le_rfl
        · have above := List.isChain_iff_pairwise.1 rising
          exact (List.rel_of_pairwise_cons above (List.mem_append_left _ later)).le
      have south_v : isNorth p v = false := by
        by_contra north_v
        rw [isNorth_of_height lowest (Bool.not_eq_false _ ▸ north_v)] at south
        cases south
      rw [crossesOddly_of_rises rising left, south_v, north]
      rfl
    · obtain ⟨left_first, left_later⟩ := List.isChain_cons_cons.1 left
      have falls := isNorth_of_height (p := p) (not_lt.1 rises)
      have later : crossesOddly p (w :: rest ++ [last]) = true := by
        apply ih valley.tail left_later
        rcases List.mem_cons.1 there with rfl | later
        · refine ⟨w, List.mem_cons_self, Bool.eq_false_iff.2 fun north_w => ?_⟩
          rw [falls north_w] at south
          cases south
        · exact ⟨u, later, south⟩
      have apart : crosses p (v, w) = false := by
        rw [crosses_of_left left_first]
        cases north_w : isNorth p w with
        | false => simp
        | true => simp [falls north_w]
      rw [List.cons_append, List.cons_append, crossesOddly, ← List.cons_append, later, apart]
      rfl

/-! ## Convex polygons -/

/-- Which way a polygon is gone round. -/
inductive Hand
  | left
  | right

section

variable {K : Type} [Field K]

/-- How far a place lies on the inner side of an edge, for a polygon that keeps its inside on one hand. -/
def depth (hand : Hand) (e : Position K × Position K) (p : Position K) : K :=
  match hand with
  | .left => turn e.1 e.2 p
  | .right => turn e.2 e.1 p

/-- A polygon that turns to one side only: its vertices are all different, they do not lie on one line, and
none of them lies on the outer side of an edge. -/
structure Convex [LinearOrder K] (hand : Hand) (ring : List (Position K)) : Prop where
  distinct : ring.Nodup
  spread : ∃ a ∈ ring, ∃ b ∈ ring, ∃ c ∈ ring, turn a b c ≠ 0
  inner : ∀ e ∈ edges ring, ∀ u ∈ ring, 0 ≤ depth hand e u

end

namespace Convex

section

variable {K : Type} [Field K] [LinearOrder K] {hand : Hand} {ring : List (Position K)}

theorem append_comm {xs ys : List (Position K)} (convex : Convex hand (xs ++ ys)) :
    Convex hand (ys ++ xs) := by
  have same (u : Position K) : u ∈ ys ++ xs ↔ u ∈ xs ++ ys := by
    rw [List.mem_append, List.mem_append, or_comm]
  refine ⟨List.perm_append_comm.nodup_iff.1 convex.distinct, ?_, ?_⟩
  · simp only [same]
    exact convex.spread
  · simp only [same]
    exact (forall_edges_append_comm (R := fun v w => ∀ u ∈ xs ++ ys, 0 ≤ depth hand (v, w) u) xs ys).1
      convex.inner

theorem reverse (convex : Convex .right ring) : Convex .left ring.reverse := by
  refine ⟨List.nodup_reverse.2 convex.distinct, ?_, ?_⟩
  · simp only [List.mem_reverse]
    exact convex.spread
  · simp only [List.mem_reverse]
    exact (forall_edges_reverse (R := fun v w => ∀ u ∈ ring, 0 ≤ depth .left (v, w) u)).2 convex.inner

theorem rest_ne_nil {v : Position K} {rest : List (Position K)} (convex : Convex hand (v :: rest)) :
    rest ≠ [] := by
  rintro rfl
  obtain ⟨a, ha, b, hb, c, hc, turns⟩ := convex.spread
  obtain rfl := List.mem_singleton.1 ha
  obtain rfl := List.mem_singleton.1 hb
  exact turns (by simp [turn])

theorem apart (convex : Convex hand ring) {e : Position K × Position K} (there : e ∈ edges ring) :
    e.1 ≠ e.2 := by
  cases ring with
  | nil => cases there
  | cons v rest =>
    have distinct := List.nodup_cons.1 convex.distinct
    refine forall_edges_cons (R := fun a b => a ≠ b).2 (List.isChain_append.2 ⟨?_, ?_, ?_⟩) e there
    · exact convex.distinct.isChain
    · exact List.isChain_singleton v
    · intro last ends first starts
      cases starts
      rintro rfl
      obtain ⟨w, rest, rfl⟩ := List.exists_cons_of_ne_nil convex.rest_ne_nil
      rw [List.getLast?_cons_cons] at ends
      exact distinct.1 (List.mem_of_getLast? ends)

theorem exists_inner (convex : Convex hand ring) {e : Position K × Position K} (there : e ∈ edges ring) :
    ∃ u ∈ ring, 0 < depth hand e u := by
  by_contra! none
  have level : ∀ u ∈ ring, depth hand e u = 0 := fun u hu => le_antisymm (none u hu) (convex.inner e there u hu)
  obtain ⟨a, ha, b, hb, c, hc, turns⟩ := convex.spread
  apply turns
  cases hand with
  | left => exact turn_eq_zero_of_line (convex.apart there) (level a ha) (level b hb) (level c hc)
  | right => exact turn_eq_zero_of_line (convex.apart there).symm (level a ha) (level b hb) (level c hc)

theorem exists_corner {w : Position K} {rest : List (Position K)} (convex : Convex hand (w :: rest)) :
    ∃ v ∈ rest, ∃ u ∈ rest, (v, w) ∈ edges (w :: rest) ∧ (w, u) ∈ edges (w :: rest) := by
  have steps : (w :: rest ++ [w]).IsChain fun a b => (a, b) ∈ edges (w :: rest) :=
    forall_edges_cons.1 fun e there => there
  obtain ⟨u, later, starts⟩ := List.exists_cons_of_ne_nil convex.rest_ne_nil
  obtain ⟨v, ends⟩ : ∃ v, rest.getLast? = some v := ⟨_, List.getLast?_eq_some_getLast convex.rest_ne_nil⟩
  obtain ⟨walk, parted⟩ := List.getLast?_eq_some_iff.1 ends
  refine ⟨v, List.mem_of_getLast? ends, u, starts ▸ List.mem_cons_self, ?_, ?_⟩
  · have last : w :: rest ++ [w] = w :: walk ++ v :: [w] := by rw [parted]; simp
    rw [last] at steps
    exact (List.isChain_append_cons_cons.1 steps).2.1
  · have first : w :: rest ++ [w] = w :: u :: (later ++ [w]) := by rw [starts]; simp
    rw [first] at steps
    exact (List.isChain_cons_cons.1 steps).1

end

variable {hand : Hand} {ring : List (Position K)}

section

variable (convex : Convex .left ring) {v w u : Position K} (into : (v, w) ∈ edges ring)
  (out : (w, u) ∈ edges ring)
include convex into out

omit [Rounding K] in
/-- Where the walk turns downward or upward, it turns to the left. -/
theorem sharp (turns : height v < height w ∧ height u < height w ∨ height w < height v ∧ height w < height u) :
    0 < turn w u v := by
  refine (convex.inner _ out v (mem_of_mem_edges into).1).lt_of_ne fun flat => ?_
  obtain ⟨x, hx, off⟩ := convex.exists_inner into
  have side := convex.inner _ out x hx
  have balance := corner v w u x
  change 0 = turn w u v at flat
  rw [← flat, zero_smul] at balance
  rcases turns with ⟨hv, hu⟩ | ⟨hv, hu⟩
  · exact (add_neg_of_nonpos_of_neg (smul_nonpos_of_nonneg_of_nonpos side (sub_neg.2 hv).le)
      (smul_neg_of_pos_of_neg off (sub_neg.2 hu))).ne balance.symm
  · exact (add_pos_of_nonneg_of_pos (smul_nonneg side (sub_pos.2 hv).le)
      (smul_pos off (sub_pos.2 hu))).ne balance

omit [Rounding K] in
/-- Where the walk turns downward it is at its highest vertex. -/
theorem peak (hv : height v < height w) (hu : height u < height w) {x : Position K} (hx : x ∈ ring) :
    height x ≤ height w := by
  by_contra! above
  have up : 0 < turn w u v • (height x - height w) :=
    smul_pos (convex.sharp into out (.inl ⟨hv, hu⟩)) (sub_pos.2 above)
  have down : turn w u x • (height v - height w) + turn v w x • (height u - height w) ≤ 0 :=
    add_nonpos (smul_nonpos_of_nonneg_of_nonpos (convex.inner _ out x hx) (sub_neg.2 hv).le)
      (smul_nonpos_of_nonneg_of_nonpos (convex.inner _ into x hx) (sub_neg.2 hu).le)
  rw [corner v w u x] at up
  exact down.not_gt up

end

omit [Rounding K] in
/-- From the highest vertex on the walk turns downward nowhere. -/
theorem valley {top : Position K} {rest : List (Position K)} (convex : Convex .left (top :: rest))
    (highest : ∀ v ∈ rest, height v < height top) : Valley (top :: rest ++ [top]) := by
  intro a b c inner rises
  obtain ⟨before, after, parted⟩ := inner
  have steps : (top :: rest ++ [top]).IsChain fun a b => (a, b) ∈ edges (top :: rest) :=
    forall_edges_cons.1 fun e there => there
  rw [← parted, List.append_assoc] at steps
  obtain ⟨-, into, steps⟩ := List.isChain_append_cons_cons.1 steps
  have out := (List.isChain_cons_cons.1 steps).1
  have inside : b ∈ rest := by
    have at_b : (before ++ [a]) ++ b :: c :: after = top :: rest ++ [top] := by
      rw [← parted]
      simp
    exact mem_of_inner at_b (by simp) (by simp)
  by_contra! falls
  have below : height c < height b :=
    falls.lt_of_ne fun same => convex.apart out (height_injective same).symm
  exact (convex.peak into out rises below List.mem_cons_self).not_gt (highest b inside)

end Convex

section

variable {v w u : Position K} (into : 0 < turn v w p) (out : 0 < turn w u p) (sharp : 0 < turn w u v)
include into out sharp

omit [Rounding K] in
/-- What lies to the left of the steps to and from a peak lies to the south of it. -/
theorem south_of_peak (hv : v.latitude ≤ w.latitude) (hu : u.latitude ≤ w.latitude) :
    p.latitude < w.latitude := by
  by_contra! beyond
  have balance := corner_latitude v w u p
  have first := mul_nonpos_of_nonneg_of_nonpos out.le (sub_nonpos.2 hv)
  have second := mul_nonpos_of_nonneg_of_nonpos into.le (sub_nonpos.2 hu)
  have away := mul_nonneg sharp.le (sub_nonneg.2 beyond)
  -- then both steps lie on the parallel of the peak, and there is no turn between them
  have level_v : v.latitude - w.latitude = 0 :=
    (mul_eq_zero.1 (by linarith : turn w u p * (v.latitude - w.latitude) = 0)).resolve_left out.ne'
  have level_u : u.latitude - w.latitude = 0 :=
    (mul_eq_zero.1 (by linarith : turn v w p * (u.latitude - w.latitude) = 0)).resolve_left into.ne'
  have flat : turn w u v = 0 := by
    rw [turn, level_v, level_u]
    ring
  exact sharp.ne' flat

omit [Rounding K] in
/-- What lies to the left of the steps to and from a pit does not lie to the south of it. -/
theorem north_of_pit (hv : w.latitude ≤ v.latitude) (hu : w.latitude ≤ u.latitude) :
    w.latitude ≤ p.latitude := by
  have balance := corner_latitude v w u p
  have first := mul_nonneg out.le (sub_nonneg.2 hv)
  have second := mul_nonneg into.le (sub_nonneg.2 hu)
  exact sub_nonneg.1 (nonneg_of_mul_nonneg_right (by linarith) sharp)

end

namespace Convex

section

variable {hand : Hand} {ring : List (Position K)} (convex : Convex .left ring)
  (inside : ∀ e ∈ edges ring, 0 < turn e.1 e.2 p)
include convex inside

omit [IsStrictOrderedRing K] in
/-- A convex polygon may start at the vertex that is the greatest by a measure. -/
theorem exists_first {γ : Type} [LinearOrder γ] {f : Position K → γ} (tells : Function.Injective f) :
    ∃ w rest, (∀ v, v ∈ w :: rest ↔ v ∈ ring) ∧ contains (w :: rest) p = contains ring p ∧
      Convex .left (w :: rest) ∧ (∀ e ∈ edges (w :: rest), 0 < turn e.1 e.2 p) ∧
      ∀ v ∈ rest, f v < f w := by
  obtain ⟨a, ha, -⟩ := convex.spread
  obtain ⟨before, w, after, rfl, greatest⟩ := exists_greatest f (List.ne_nil_of_mem ha)
  have turned := convex.append_comm
  refine ⟨w, after ++ before, fun v => ?_, contains_append_comm (w :: after) before, turned, ?_,
    fun v there => ?_⟩
  · rw [← List.cons_append, List.mem_append, List.mem_append, or_comm]
  · exact (forall_edges_append_comm (R := fun v w => 0 < turn v w p) _ _).1 inside
  · refine (greatest v ?_).lt_of_ne fun same => ?_
    · rw [List.mem_append, List.mem_cons]
      rcases List.mem_append.1 there with later | earlier
      · exact .inr (.inr later)
      · exact .inl earlier
    · rw [tells same] at there
      exact (List.nodup_cons.1 turned.distinct).1 there

/-- A place on the inner side of all edges has a vertex to the south of it, or beside it. -/
theorem exists_south : ∃ v ∈ ring, isNorth p v = false := by
  obtain ⟨w, rest, same, -, convex, inside, lowest⟩ :=
    convex.exists_first inside (OrderDual.toDual.injective.comp height_injective)
  obtain ⟨v, hv, u, hu, into, out⟩ := convex.exists_corner
  have sharp := convex.sharp into out (.inr ⟨lowest v hv, lowest u hu⟩)
  have pit := north_of_pit (inside _ into) (inside _ out) sharp
    (latitude_le_of_height (lowest v hv).le) (latitude_le_of_height (lowest u hu).le)
  exact ⟨w, (same w).1 List.mem_cons_self, decide_eq_false pit.not_gt⟩

/-- A place on the inner side of all edges is inside. -/
theorem contains_of_inside : contains ring p = true := by
  obtain ⟨top, rest, -, same, convex, inside, highest⟩ := convex.exists_first inside height_injective
  obtain ⟨v, hv, u, hu, into, out⟩ := convex.exists_corner
  have sharp := convex.sharp into out (.inl ⟨highest v hv, highest u hu⟩)
  have peak := south_of_peak (inside _ into) (inside _ out) sharp
    (latitude_le_of_height (highest v hv).le) (latitude_le_of_height (highest u hu).le)
  rw [← same, contains_cons]
  exact crossesOddly_of_valley (convex.valley highest) (forall_edges_cons.1 inside)
    (decide_eq_true peak) (convex.exists_south inside)

end

/-- So it is on whichever hand the inside lies. -/
theorem contains_of_deep {hand : Hand} {ring : List (Position K)} (convex : Convex hand ring)
    (deep : ∀ e ∈ edges ring, 0 < depth hand e p) : contains ring p = true := by
  cases hand with
  | left => exact convex.contains_of_inside deep
  | right =>
    rw [← contains_reverse]
    exact convex.reverse.contains_of_inside ((forall_edges_reverse (R := fun v w => 0 < turn v w p)).2 deep)

end Convex

/-- **Counting crossings is right on convex polygons.** Let the vertices of a polygon be all different and
not on one line, and let no vertex lie on the outer side of an edge, be the inner side the left one of
each edge or the right one of each. A place strictly on the inner side of all edges is inside, and a place
strictly on the outer side of some edge is not. -/
theorem convex_exact {hand : Hand} {ring : List (Position K)} (convex : Convex hand ring)
    (p : Position K) :
    ((∀ e ∈ edges ring, 0 < depth hand e p) → contains ring p = true) ∧
      ((∃ e ∈ edges ring, depth hand e p < 0) → contains ring p = false) := by
  constructor
  · exact convex.contains_of_deep
  · rintro ⟨e, there, outside⟩
    by_contra inside
    rw [Bool.not_eq_false] at inside
    apply outside.not_ge
    cases hand with
    | left => exact left_of_contains inside (convex.inner e there)
    | right => exact left_of_contains inside (convex.inner e there)

/-- A house with a post in the middle of its floor, gone round with the inside on the left. -/
def house : List (Position ℚ) := [⟨0, 0⟩, ⟨0, 2⟩, ⟨0, 4⟩, ⟨2, 4⟩, ⟨3, 2⟩, ⟨2, 0⟩]

/-- The parallel through the eaves meets the house at two vertices. A place between them is inside, and one
to the west of them is not; nor is one to the west of the floor and on its line. -/
theorem convex_exact_house :
    Convex .left house ∧ Convex .right house.reverse ∧
      contains house ⟨2, 1⟩ = true ∧ contains house.reverse ⟨2, 1⟩ = true ∧
      contains house ⟨2, -1⟩ = false ∧ contains house.reverse ⟨0, -1⟩ = false := by
  have left : Convex .left house := ⟨by decide +kernel, by decide +kernel, by decide +kernel⟩
  have right : Convex .right house.reverse := ⟨by decide +kernel, by decide +kernel, by decide +kernel⟩
  refine ⟨left, right, ?_, ?_, ?_, ?_⟩
  · exact (convex_exact left ⟨2, 1⟩).1 (by decide +kernel)
  · exact (convex_exact right ⟨2, 1⟩).1 (by decide +kernel)
  · exact (convex_exact left ⟨2, -1⟩).2 (by decide +kernel)
  · exact (convex_exact right ⟨0, -1⟩).2 (by decide +kernel)

end SpectrumShare.Polygon
