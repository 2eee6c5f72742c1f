import RepoMesh.Delivery.Absorption
import RepoMesh.Delivery.Persistence
import RepoMesh.Delivery.RollbackAllOrNothing
import RepoMesh.Delivery.StoreAgreement
import RepoMesh.AgentRuntime.EventJournal
import RepoMesh.AgentRuntime.ReservationLife
import RepoMesh.Orchestration.PlanPaths
import RepoMesh.Orchestration.RevisionKeys
import RepoMesh.Orchestration.RollUp
import RepoMesh.Runner.DatabaseGate
import RepoMesh.Runner.Lineage
import RepoMesh.Runner.StdoutLines
import RepoMesh.Runner.TaskSource
import RepoMesh.Scm.ApprovedDelivery
import RepoMesh.Scm.BaseDrift
import RepoMesh.Scm.CIEvidence
import RepoMesh.Scm.CommandKeys
import RepoMesh.Scm.DeliveryLoops
import RepoMesh.Scm.PollRefusals
import RepoMesh.Scm.SagaIsolation
import RepoMesh.Project.CheckpointGate
import RepoMesh.Project.TopologyLatches
import RepoMesh.Execution.EvidenceChain
import RepoMesh.Execution.TaskWire
import RepoMesh.Bridge.CodexConfig
import RepoMesh.Bridge.GovernedApproval
import RepoMesh.Bridge.LeaderNotices
import RepoMesh.Bridge.OneAnswer
import RepoMesh.Bridge.PlanCheck
import RepoMesh.Bridge.Unstopped
import RepoMesh.Context.MountedContext
import RepoMesh.DecisionChain.EveryDecision
import RepoMesh.Drivers.EveryDriver
import RepoMesh.Planning.FactOrder
import RepoMesh.Planning.PlanChanges
import RepoMesh.Planning.ReplanScope
import RepoMesh.Planning.TieringInForce
import RepoMesh.Validation.BranchRuns
import RepoMesh.Scan.GradleDependencies
import RepoMesh.Scan.Supplements
import RepoMesh.Collaboration.DeliveryRetry
