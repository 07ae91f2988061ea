import OpenExec.AsyncWrites
import OpenExec.AutoDispatch
import OpenExec.BatchProgress
import OpenExec.CacheAgreement
import OpenExec.CancellationFinality
import OpenExec.CompletionChecks
import OpenExec.ConnectionDisabling
import OpenExec.DeniedDirectories
import OpenExec.DispatchBudgets
import OpenExec.EvidenceBuffers
import OpenExec.ExecutionEvents
import OpenExec.FixChains
import OpenExec.GrantConservation
import OpenExec.GraphFreshness
import OpenExec.HandoverChains
import OpenExec.IdentityAgreement
import OpenExec.ImpactExactness
import OpenExec.InfraArguments
import OpenExec.JSONMigration
import OpenExec.PatchRoundTrip
import OpenExec.PlanCitations
import OpenExec.RecordedEvidence
import OpenExec.RecoveryEdges
import OpenExec.RepairAuthority
import OpenExec.ResumedCalls
import OpenExec.RetainedIdentities
import OpenExec.ReviewHistory
import OpenExec.ReviewedImports
import OpenExec.RunCheckpoints
import OpenExec.RunSteps
import OpenExec.SavedPlans
import OpenExec.SensitivePaths
import OpenExec.StreamLines
import OpenExec.SymbolSlices
import OpenExec.TaskQueueTermination
import OpenExec.ToolResults
import OpenExec.WholeTokens
