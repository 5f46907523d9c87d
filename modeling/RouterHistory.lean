import RouterHistory.Format.Report
import RouterHistory.Main
import RouterHistory.Simulation.World
import RouterHistory.Proofs.Shared.Workers
import RouterHistory.Proofs.Shared.Conduct
import RouterHistory.Proofs.Shared.StepConduct
import RouterHistory.Proofs.Batch.GaplessSlots
import RouterHistory.Proofs.Shared.CycleConduct
import RouterHistory.Proofs.Shared.Law
import RouterHistory.Proofs.Reconciliation.Deletion
import RouterHistory.Proofs.Reconciliation.ChainSource
import RouterHistory.Proofs.Reconciliation.StableChain
import RouterHistory.Proofs.Ingestion.Batches
import RouterHistory.Proofs.Ingestion.ExactlyOnce
import RouterHistory.Proofs.Reconciliation.Observation
import RouterHistory.Proofs.Store.Attained
import RouterHistory.Proofs.Reconciliation.LoneCycle
import RouterHistory.Proofs.Reconciliation.Outcome
import RouterHistory.Proofs.Reconciliation.Recovery
import RouterHistory.Proofs.Store.LedgerTables
import RouterHistory.Proofs.Store.Backends
import RouterHistory.Proofs.Store.CheckpointMoves
import RouterHistory.Proofs.Pipeline.StepEnds
import RouterHistory.Proofs.Ingestion.FinalRows
import RouterHistory.Proofs.Ingestion.CatchingUp
import RouterHistory.Proofs.Ingestion.BatchSize
import RouterHistory.Proofs.Reconciliation.Convergence
import RouterHistory.Proofs.History.DisjointTables
import RouterHistory.Proofs.History.Provenance
import RouterHistory.Proofs.Pipeline.RunPhases
import RouterHistory.Proofs.Pipeline.TransientFailures
import RouterHistory.Proofs.Store.Lifecycles
import RouterHistory.Proofs.Pipeline.StepFetch
import RouterHistory.Proofs.Pipeline.BatchAccount
import RouterHistory.Proofs.Pipeline.SharedCursors
import RouterHistory.Proofs.Batch.LinearChains
import RouterHistory.Proofs.Ingestion.FalseForks
import RouterHistory.Proofs.Batch.Condensed
import RouterHistory.Proofs.Batch.ResolvedCopies
import RouterHistory.Proofs.Reconciliation.FixedPoint
import RouterHistory.Proofs.Reconciliation.RepliedCycle
import RouterHistory.Proofs.Reconciliation.ResolutionOrder
import RouterHistory.Proofs.Store.TableSizes
import RouterHistory.Proofs.Reconciliation.CycleAccount
import RouterHistory.Proofs.Pipeline.LoneStep
import RouterHistory.Proofs.Ingestion.Coverage
import RouterHistory.Proofs.Store.BatchWrites
import RouterHistory.Proofs.Reconciliation.FinalityBoundary
import RouterHistory.Proofs.Batch.NormalForm
import RouterHistory.Proofs.Batch.BlockTimes
import RouterHistory.Proofs.Batch.RouterCopies
import RouterHistory.Proofs.Reconciliation.RescanWindow
import RouterHistory.Proofs.Batch.Rewinding
import RouterHistory.Proofs.Batch.Lineage
import RouterHistory.Proofs.Signature.Spelling
import RouterHistory.Proofs.Classification.Grounds
import RouterHistory.Proofs.Pipeline.AllowedAttempts
import RouterHistory.Proofs.Ingestion.SignedSlots
import RouterHistory.Proofs.Store.RewrittenRows
