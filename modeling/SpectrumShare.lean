import SpectrumShare.Allocation.Basic
import SpectrumShare.Allocation.Loop
import SpectrumShare.Allocation.Point
import SpectrumShare.Allowance
import SpectrumShare.ChannelPlan
import SpectrumShare.Command
import SpectrumShare.Config
import SpectrumShare.Demo.Mixer
import SpectrumShare.Demo.Scenario
import SpectrumShare.Direction
import SpectrumShare.Document.Entity
import SpectrumShare.Document.Grant
import SpectrumShare.Document.Report
import SpectrumShare.Document.Rules
import SpectrumShare.Document.Scenario
import SpectrumShare.Double.Arithmetic
import SpectrumShare.Double.Parts
import SpectrumShare.Double.Shortest
import SpectrumShare.Double.Text
import SpectrumShare.Duty
import SpectrumShare.Engine
import SpectrumShare.Entity
import SpectrumShare.Error
import SpectrumShare.Frequency
import SpectrumShare.Grant
import SpectrumShare.Grid
import SpectrumShare.Interference
import SpectrumShare.Json.Basic
import SpectrumShare.Json.Fields
import SpectrumShare.Json.Layout
import SpectrumShare.Json.Parse
import SpectrumShare.Json.Quoted
import SpectrumShare.Json.Token
import SpectrumShare.Main
import SpectrumShare.Neighborhood
import SpectrumShare.Pattern
import SpectrumShare.Place
import SpectrumShare.PointMap
import SpectrumShare.Polygon
import SpectrumShare.Pool.Basic
import SpectrumShare.Pool.Step
import SpectrumShare.Proofs.Allocation.Balance
import SpectrumShare.Proofs.Allocation.Coordination
import SpectrumShare.Proofs.Allocation.Descent
import SpectrumShare.Proofs.Allocation.Ending
import SpectrumShare.Proofs.Allocation.Fairness
import SpectrumShare.Proofs.Allocation.Lowering
import SpectrumShare.Proofs.Allocation.Oblivion
import SpectrumShare.Proofs.Allocation.Ownership
import SpectrumShare.Proofs.Allocation.Partition
import SpectrumShare.Proofs.Allocation.Point
import SpectrumShare.Proofs.Allocation.Refusal
import SpectrumShare.Proofs.Allocation.Scale
import SpectrumShare.Proofs.Allocation.Share
import SpectrumShare.Proofs.Allocation.Simulation
import SpectrumShare.Proofs.Allocation.Stage
import SpectrumShare.Proofs.Allocation.Termination
import SpectrumShare.Proofs.Cells
import SpectrumShare.Proofs.ChannelPlan
import SpectrumShare.Proofs.Convex
import SpectrumShare.Proofs.Dealing
import SpectrumShare.Proofs.Decibel
import SpectrumShare.Proofs.Document.Content
import SpectrumShare.Proofs.Document.Modest
import SpectrumShare.Proofs.Document.Stable
import SpectrumShare.Proofs.Document.Written
import SpectrumShare.Proofs.Double.Text
import SpectrumShare.Proofs.Exact
import SpectrumShare.Proofs.GridCover
import SpectrumShare.Proofs.GridPoints
import SpectrumShare.Proofs.HalfPlane
import SpectrumShare.Proofs.History
import SpectrumShare.Proofs.Json.Edit
import SpectrumShare.Proofs.Json.Number
import SpectrumShare.Proofs.Json.Parse
import SpectrumShare.Proofs.Json.Quoted
import SpectrumShare.Proofs.Json.Record
import SpectrumShare.Proofs.Json.Scan
import SpectrumShare.Proofs.Lattice
import SpectrumShare.Proofs.Malformed
import SpectrumShare.Proofs.Neighborhood
import SpectrumShare.Proofs.Noise
import SpectrumShare.Proofs.OwnEntry
import SpectrumShare.Proofs.Pattern
import SpectrumShare.Proofs.PointMap
import SpectrumShare.Proofs.Polygon
import SpectrumShare.Proofs.Pool.Interleaving
import SpectrumShare.Proofs.Pool.Isolation
import SpectrumShare.Proofs.Pool.Run
import SpectrumShare.Proofs.Pool.Stopping
import SpectrumShare.Proofs.Pool.Verdict
import SpectrumShare.Proofs.Protection
import SpectrumShare.Proofs.Raster
import SpectrumShare.Proofs.RasterIndex
import SpectrumShare.Proofs.Relevance
import SpectrumShare.Proofs.Report
import SpectrumShare.Proofs.Rolloff
import SpectrumShare.Proofs.Rounding
import SpectrumShare.Proofs.Scenario
import SpectrumShare.Proofs.Schedule
import SpectrumShare.Proofs.Spread
import SpectrumShare.Proofs.Text
import SpectrumShare.Raster
import SpectrumShare.Rules
import SpectrumShare.Scalar
import SpectrumShare.Scenario
import SpectrumShare.SortedMap
import SpectrumShare.Sphere
import SpectrumShare.Store
import SpectrumShare.Summary
import SpectrumShare.Text
