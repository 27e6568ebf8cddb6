import AgentProtocols.A2A.CallEnds
import AgentProtocols.A2A.ClientLocks
import AgentProtocols.A2A.HistoryLimit
import AgentProtocols.A2A.MissedUpdates
import AgentProtocols.A2A.OneAnswer
import AgentProtocols.A2A.PushNotification
import AgentProtocols.A4P.Approval
import AgentProtocols.A4P.CredentialFile
import AgentProtocols.A4P.FloatLayout
import AgentProtocols.A4P.Intent.ExecutionLimit
import AgentProtocols.A4P.Intent.PythonGlob
import AgentProtocols.A4P.TrustedServers
import AgentProtocols.A4P.UserSignature.CredentialBinding
import AgentProtocols.A4P.UserSignature.SignCounter
import AgentProtocols.A4P.ValidityWindow
import AgentProtocols.Cluster.DisplayIds
import AgentProtocols.Cluster.EphemeralEntries
import AgentProtocols.Cluster.HoldTimer
import AgentProtocols.Cluster.MembershipRestart
import AgentProtocols.Cluster.MerkleSeparation
import AgentProtocols.Cluster.Noninterference
import AgentProtocols.Cluster.ReAdd
import AgentProtocols.JsonRpc.SseChunks
import AgentProtocols.MCP.ClientRequests
import AgentProtocols.MCP.HttpSessions
import AgentProtocols.MCP.InitGate
import AgentProtocols.MCP.OneResponse
import AgentProtocols.MCP.Pagination
import AgentProtocols.MCP.SamplingValidation
import AgentProtocols.MCP.SchemaDecides
import AgentProtocols.MCP.StdioConnection
import AgentProtocols.MCP.StdioFraming
import AgentProtocols.MCP.WorkerQueues
import AgentProtocols.Registry.AuthStore
import AgentProtocols.Registry.BlankEndpoints
import AgentProtocols.Registry.BuildJobs
import AgentProtocols.Registry.ConfigRoundTrip
import AgentProtocols.Registry.FailedReleases
import AgentProtocols.Registry.Heartbeats
import AgentProtocols.Registry.LeaseRuns
import AgentProtocols.Registry.LlmClient
import AgentProtocols.Registry.OwnerProtection
import AgentProtocols.Registry.Renewers
import AgentProtocols.Registry.RequestTargets
import AgentProtocols.Registry.ServicePages
import AgentProtocols.Registry.SkillMd
import AgentProtocols.Registry.TaxonomyState
import AgentProtocols.Search.IncrementalBuilder
import AgentProtocols.Search.SplitPartition
import AgentProtocols.Search.TreeSearch
import AgentProtocols.Search.VectorSync
import AgentProtocols.Shared.FinalReports
import AgentProtocols.Shared.HttpConnections
import AgentProtocols.Shared.LockdownReport
import AgentProtocols.Shared.LoopbackRule
import AgentProtocols.Shared.NotifyQueue
import AgentProtocols.Shared.RingRefusals
import AgentProtocols.Shared.SafePathRule
import AgentProtocols.Shared.SseReaders
