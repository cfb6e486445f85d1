import ParameterScan.Scalar
import ParameterScan.Scalar.ErrorFunction

/-!
# Doubles as the numbers of a fit

The instance of `Scalar` that the program runs on. Addition, multiplication, division, the square
root and the comparisons are those of binary64. Truncation and the floor are built from the
conversion to an integer, so that they can be evaluated inside a proof; the logarithms and the
powers cannot.
-/
namespace ParameterScan

namespace Double

/-- The floor. A magnitude of `2⁵²` or more is whole already. -/
def floor (x : Float) : Float :=
  if x.abs < 4503599627370496 then
    let whole := x.abs.toUInt64.toFloat
    if x < 0 then (if whole < x.abs then -(whole + 1) else -whole) else whole
  else x

def greatest : Float := 1.7976931348623157e308

def nan : Float := 0 / 0

end Double

instance : Scalar Float where
  decLt := inferInstance
  decLe := inferInstance
  ofNat := Float.ofNat
  ofDecimal m e := Float.ofScientific m true e
  toNat x := x.toUInt64.toNat
  isNaN := Float.isNaN
  isFinite := Float.isFinite
  infinity := 1 / 0
  abs := Float.abs
  sqrt := Float.sqrt
  floor := Double.floor
  ln := Float.log
  log10 := Float.log10
  tenTo x := Float.pow 10 x
  erfc := ErrorFunction.erfc

end ParameterScan
