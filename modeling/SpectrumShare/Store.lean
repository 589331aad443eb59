import SpectrumShare.PointMap

/-! # Totals by point

For each point the store holds what its channels came to, in the order in which they were allocated:
the interference of the grants of the local authority, and that of all grants. -/
namespace SpectrumShare

/-- Milliwatts by channel. -/
structure PointTotals (α : Type) where
  localTotals : List α
  globalTotals : List α
  deriving DecidableEq, Repr

/-- Whether both lists speak of the same channels. -/
def PointTotals.isAligned {α : Type} (t : PointTotals α) : Bool :=
  t.localTotals.length == t.globalTotals.length

abbrev Store (α : Type) := PointMap (PointTotals α)

namespace Store

variable {α : Type}

def totals (s : Store α) (key : PointKey) : PointTotals α := (s.get? key).getD ⟨[], []⟩

/-- Appends the totals of one more channel of a point. -/
def append (s : Store α) (key : PointKey) (localTotal globalTotal : α) : Store α :=
  let before := s.totals key
  s.insert key ⟨before.localTotals ++ [localTotal], before.globalTotals ++ [globalTotal]⟩

end Store

end SpectrumShare
