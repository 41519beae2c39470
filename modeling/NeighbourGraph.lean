import NeighbourGraph.CheckProfile
import NeighbourGraph.Graph.Ring
import NeighbourGraph.Main
import NeighbourGraph.Metric.Properties
import NeighbourGraph.Progress
import NeighbourGraph.Proofs.Best
import NeighbourGraph.Proofs.LocalJoin
import NeighbourGraph.Proofs.Results
import NeighbourGraph.Proofs.Symmetry
import NeighbourGraph.Recall
import NeighbourGraph.Search.Filtered
import NeighbourGraph.StopFlags
import NeighbourGraph.Summary
import NeighbourGraph.Synthetic
import NeighbourGraph.Proofs.Exclusion
import NeighbourGraph.Proofs.NeighbourList.Ranked
import NeighbourGraph.Proofs.Filtered
import NeighbourGraph.Proofs.Mirror
import NeighbourGraph.Proofs.Search.Accounts
import NeighbourGraph.Proofs.Failures
import NeighbourGraph.Proofs.Convergence
import NeighbourGraph.Proofs.Search.BrokenOff
import NeighbourGraph.Proofs.Cancellation
import NeighbourGraph.Proofs.Division
import NeighbourGraph.Proofs.MissingScores
import NeighbourGraph.Proofs.TieFree
import NeighbourGraph.Proofs.Search.Entering
import NeighbourGraph.Proofs.Search.Abreast
import NeighbourGraph.Proofs.Schedules
import NeighbourGraph.Proofs.Search.Congruence
import NeighbourGraph.Proofs.Search.Outset
import NeighbourGraph.Proofs.Search.Steps
import NeighbourGraph.Proofs.Search.Extent
import NeighbourGraph.Proofs.Cutoff
import NeighbourGraph.Proofs.MoreIterations
import NeighbourGraph.Proofs.Search.Mimics
import NeighbourGraph.Proofs.ScoreOrder
import NeighbourGraph.Proofs.Search.Cumulative
import NeighbourGraph.Proofs.Search.During
import NeighbourGraph.Proofs.Evaluations
import NeighbourGraph.Proofs.AcceptedEdges
import NeighbourGraph.Proofs.Fullness
import NeighbourGraph.Proofs.Traces
import NeighbourGraph.Proofs.NeighbourList.TopOffers
import NeighbourGraph.Proofs.NeighbourList.Stays
import NeighbourGraph.Proofs.Plateau
import NeighbourGraph.Proofs.Rows
import NeighbourGraph.Proofs.SampledCandidates
import NeighbourGraph.Proofs.EdgeList.Columns
import NeighbourGraph.Proofs.EdgeList.Layout
import NeighbourGraph.Proofs.Matrix.Batches
import NeighbourGraph.Proofs.Metric.BothWays
import NeighbourGraph.Proofs.Metric.Sets
import NeighbourGraph.Proofs.Progress
import NeighbourGraph.Proofs.Recall
import NeighbourGraph.Proofs.Tiling
import NeighbourGraph.Proofs.Summary
import NeighbourGraph.Proofs.Number.Values
import NeighbourGraph.Proofs.DenseVectors
import NeighbourGraph.Proofs.Ring
import NeighbourGraph.Proofs.ListSize
import NeighbourGraph.Proofs.Measurements
import NeighbourGraph.Proofs.Random.Seeds
import NeighbourGraph.Proofs.WorkingSets
