import ParameterScan.CurveFit
import ParameterScan.Dataset
import ParameterScan.Decimal
import ParameterScan.Decimal.Double
import ParameterScan.Derivative
import ParameterScan.Diagnostic
import ParameterScan.Display
import ParameterScan.Error
import ParameterScan.Fit
import ParameterScan.Fit.Crossing
import ParameterScan.Fit.Estimate
import ParameterScan.Grid
import ParameterScan.Grid.Build
import ParameterScan.Json
import ParameterScan.Json.NumberFormat
import ParameterScan.Json.Reader
import ParameterScan.Json.Record
import ParameterScan.Json.Writer
import ParameterScan.Linear.Bidiagonal
import ParameterScan.Linear.Inverse
import ParameterScan.Linear.LeastSquares
import ParameterScan.Linear.Mat
import ParameterScan.Linear.Svd
import ParameterScan.Method
import ParameterScan.Minimize.DampedLeastSquares
import ParameterScan.Minimize.Restart
import ParameterScan.Minimize.Search
import ParameterScan.Minimize.Simplex
import ParameterScan.Parameter
import ParameterScan.Random.Stream
import ParameterScan.Scalar
import ParameterScan.Scalar.Double
import ParameterScan.Scalar.ErrorFunction
import ParameterScan.Scan.Evaluator
import ParameterScan.Scan.Hold
import ParameterScan.Scan.Interval
import ParameterScan.Scan.Levels
import ParameterScan.Scan.Mode
import ParameterScan.Scan.Options
import ParameterScan.Scan.Plan
import ParameterScan.Scan.Region
import ParameterScan.Scan.Workers
import ParameterScan.Spacing
import ParameterScan.Statistic
import ParameterScan.Stored.Fit
import ParameterScan.Stored.Options
import ParameterScan.Stored.Result
import ParameterScan.Summary
import ParameterScan.Proofs.Scan.Frame
import ParameterScan.Proofs.Scan.Schedule
import ParameterScan.Proofs.Failure
import ParameterScan.Proofs.Fit.Reachable
import ParameterScan.Proofs.Scan.Pointwise
import ParameterScan.Proofs.Scan.Targets
import ParameterScan.Proofs.Scalar.Double
import ParameterScan.Proofs.Minimize.Box
import ParameterScan.Proofs.Minimize.Simplex
import ParameterScan.Proofs.Minimize.DampedLeastSquares
import ParameterScan.Proofs.Minimize.Restart
import ParameterScan.Proofs.Limits
import ParameterScan.Proofs.Statistic
import ParameterScan.Proofs.Fit.Search
import ParameterScan.Proofs.Fit.Contract
import ParameterScan.Proofs.Fit.Estimate
import ParameterScan.Proofs.Fit.Interface
import ParameterScan.Proofs.Fit.KeptErrors
import ParameterScan.Proofs.Scan.Delivery
import ParameterScan.Proofs.Scan.Refit
import ParameterScan.Proofs.Scan.Refusal
import ParameterScan.Proofs.Scan.Optimizer
import ParameterScan.Proofs.Scan.Containment
import ParameterScan.Proofs.Scan.AxisOrder
import ParameterScan.Proofs.Scan.KeptErrors
import ParameterScan.Proofs.Scan.History
import ParameterScan.Proofs.Scan.Comparison
import ParameterScan.Proofs.Scan.Transpose
import ParameterScan.Proofs.Scalar.Rounding
import ParameterScan.Proofs.Scalar.Arithmetic
import ParameterScan.Proofs.Scalar.Monotone
import ParameterScan.Proofs.Scalar.Halfway
import ParameterScan.Proofs.Spacing
import ParameterScan.Proofs.Scalar.Real
import ParameterScan.Proofs.Derivative
import ParameterScan.Proofs.Linear.Inverse
import ParameterScan.Proofs.Fit.Covariance
import ParameterScan.Proofs.Json.Record
import ParameterScan.Proofs.Stored.Options
import ParameterScan.Proofs.Minimize.SimplexRun
import ParameterScan.Proofs.Minimize.DampedRun
import ParameterScan.Proofs.Minimize.DampedBooks
import ParameterScan.Proofs.Fit.Crossing
import ParameterScan.Proofs.Linear.LeastSquares
import ParameterScan.Proofs.Scan.OpenSide
import ParameterScan.Proofs.Statistic.Discrepancy
import ParameterScan.Proofs.Minimize.RestartRun
import ParameterScan.Proofs.Scalar.Extended
import ParameterScan.Proofs.Minimize.Enclosure
import ParameterScan.Proofs.Scan.NonFinite
import ParameterScan.Proofs.Display
import ParameterScan.Proofs.Derivative.Stencil
import ParameterScan.Proofs.Derivative.Cubic
import ParameterScan.Proofs.Linear.DampedStep
import ParameterScan.Proofs.Scan.DerivedRange
import ParameterScan.Proofs.Grid.AxisLayout
import ParameterScan.Proofs.Grid.Mesh
import ParameterScan.Proofs.Statistic.Ranking
import ParameterScan.Proofs.Display.Agreement
import ParameterScan.Proofs.Scan.Restoration
import ParameterScan.Proofs.Fit.WriteBack
