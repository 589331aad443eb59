import SpectrumShare.Double.Parts
import SpectrumShare.Scalar

/-! # Doubles as the numbers of an allocation -/
namespace SpectrumShare.Double

/-- The whole number that a double is, brought to the nearer end of the 64-bit range when beyond it;
zero when it is undefined. -/
def toWhole (x : Float) : Int := x.toInt64.toInt

instance : Scalar Float where
  toAdd := inferInstance
  toSub := inferInstance
  toMul := inferInstance
  toDiv := inferInstance
  toNeg := inferInstance
  toLT := inferInstance
  toLE := inferInstance
  natCast := Float.ofNat
  intCast := Float.ofInt
  decidableLT := inferInstanceAs (DecidableLT Float)
  decidableLE := inferInstanceAs (DecidableLE Float)
  isFinite := Float.isFinite
  floor x := toWhole x.floor
  ceil x := toWhole x.ceil
  round x := toWhole x.round
  remainder := remainder

instance : Decibel Float where
  toLinear db := Float.pow 10.0 (db / 10.0)
  ofLinear power := 10.0 * power.log10

instance : Trigonometry Float where
  pi := 3.141592653589793
  sqrt := Float.sqrt
  sin := Float.sin
  cos := Float.cos
  arcsin := Float.asin
  arctan2 := Float.atan2
  log10 := Float.log10

end SpectrumShare.Double
