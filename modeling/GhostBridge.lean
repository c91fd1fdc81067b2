import GhostBridge.Trust.Receipt
import GhostBridge.Trust.IssuerReview
import GhostBridge.NativeAgent.RedemptionPaths
import GhostBridge.NativeAgent.Submissions
import GhostBridge.DurableWork.Fencing
import GhostBridge.DurableWork.ExecutionLeaseRuns
import GhostBridge.InvocationControl.KeyChains
import GhostBridge.SchemaValidation.ReferenceHistories
import GhostBridge.RuntimeProtection.CircuitProbes
import GhostBridge.Delegation.Classification
import GhostBridge.RegionalResilience.AuthorityRuns
import GhostBridge.RegionalResilience.Routing
import GhostBridge.AgentSelection.Scoring
import GhostBridge.Delegation.Chains
import GhostBridge.Delegation.InvocationStarts
import GhostBridge.DelegatedData.RedactionRuns
import GhostBridge.OutboundRequests.FetchRuns
import GhostBridge.NativeClient.RevocationRuns
import GhostBridge.Issuer.RevocationAgreement
import GhostBridge.Issuer.KeyRuns
import GhostBridge.ProductionScale.AdmissionOrder
import GhostBridge.ProductionScale.RoutingEvolution
import GhostBridge.ProductionScale.PartitionRuns
import GhostBridge.ProductionScale.QuotaRuns
import GhostBridge.ProtocolCore.Limits
import GhostBridge.ProtocolCore.ExtensionNegotiation
import GhostBridge.SchemaValidation.CanonicalIpv6
import GhostBridge.SchemaValidation.ProtocolNumberLaw
import GhostBridge.Trust.StrictJsonLaw
import GhostBridge.RuntimeCapacity.LeaseLaw
import GhostBridge.SchemaValidation.ProtocolReleases
import GhostBridge.DelegatedData.MinimizationLaw
import GhostBridge.Policies.ConditionLaw
import GhostBridge.Approvals.ConsumptionRuns
import GhostBridge.SchemaValidation.FrozenRanges
import GhostBridge.SchemaValidation.JoiningContexts
import GhostBridge.UnicodeData.UnicodeDataFile
import GhostBridge.DataAccess.MemoryCacheRuns
import GhostBridge.ProductionScale.FairScheduleLaw
import GhostBridge.Orchestration.CompensationPlans
import GhostBridge.Orchestration.Checkpoints
import GhostBridge.SchemaValidation.TimeEvidence
import GhostBridge.SchemaValidation.ByteTexts
import GhostBridge.Policies.PolicyRuns
import GhostBridge.NativeClient.RevokedSubjects
