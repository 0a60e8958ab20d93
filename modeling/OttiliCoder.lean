import OttiliCoder.Proofs.Approvals
import OttiliCoder.Proofs.BlockerAudit
import OttiliCoder.Proofs.Commands
import OttiliCoder.Proofs.Completion
import OttiliCoder.Proofs.Delegation
import OttiliCoder.Proofs.Deltas
import OttiliCoder.Proofs.Fences
import OttiliCoder.Proofs.Gate
import OttiliCoder.Proofs.GraphRecovery
import OttiliCoder.Proofs.Mailbox
import OttiliCoder.Proofs.Readiness
import OttiliCoder.Proofs.ResourceLocks
import OttiliCoder.Proofs.Retries
import OttiliCoder.Proofs.Streaming
import OttiliCoder.Proofs.TaskOwners
import OttiliCoder.Proofs.ToolBudget
import OttiliCoder.ContextFormat.Ocf
import OttiliCoder.Proofs.Schemas
import OttiliCoder.Proofs.ValueTexts
import OttiliCoder.Agents.Graph
import OttiliCoder.Proofs.AgentGraph
import OttiliCoder.Proofs.AgentTopology
import OttiliCoder.Proofs.AgentForest
import OttiliCoder.Library.Paired
import OttiliCoder.Proofs.AgentSnapshots
import OttiliCoder.Runtime.Engine
import OttiliCoder.ContextFormat.Tokens
import OttiliCoder.Library.Bisection
import OttiliCoder.Context.Planner
import OttiliCoder.Runtime.Context
import OttiliCoder.Proofs.Planner
import OttiliCoder.Runtime.MissionTools
import OttiliCoder.Validation.Stagnation
import OttiliCoder.Runtime.Turn
import OttiliCoder.Library.Handlers
import OttiliCoder.Proofs.Engine
import OttiliCoder.Proofs.Exchanges
import OttiliCoder.Proofs.Inbox
import OttiliCoder.Library.Wildcards
import OttiliCoder.Proofs.Scopes
import OttiliCoder.Proofs.Containment
import OttiliCoder.Library.PosixPath
import OttiliCoder.Workspace.Sandbox
import OttiliCoder.Proofs.Sandboxes
import OttiliCoder.Proofs.Snapshots
import OttiliCoder.Proofs.Restores
import OttiliCoder.Agents.Capacity
import OttiliCoder.Proofs.ClosedBranches
import OttiliCoder.Agents.Mailbox
import OttiliCoder.Proofs.AgentMailboxes
import OttiliCoder.Proofs.MailboxKeys
import OttiliCoder.Integrations.Mcp
import OttiliCoder.Proofs.McpHistory
import OttiliCoder.Proofs.McpDisconnects
import OttiliCoder.Proofs.McpFailures
import OttiliCoder.Core.WildcardText
import OttiliCoder.Proofs.Permissions
import OttiliCoder.Proofs.WildcardTexts
import OttiliCoder.Proofs.BudgetPhases
import OttiliCoder.ContextFormat.InPlace
import OttiliCoder.Library.Keeping
import OttiliCoder.Proofs.DeltasInPlace
import OttiliCoder.ContextFormat.DeltaWire
import OttiliCoder.Proofs.DeltaWires
import OttiliCoder.Library.JsonProperties
import OttiliCoder.Runtime.Decoding
import OttiliCoder.Proofs.Decodings
import OttiliCoder.Proofs.QuietJournals
import OttiliCoder.Runtime.Scheduler
import OttiliCoder.Proofs.ProviderFailures
import OttiliCoder.Proofs.FailingTurns
import OttiliCoder.Library.FixedWidth
import OttiliCoder.Proofs.DateTexts
import OttiliCoder.Library.NumberText
import OttiliCoder.Runtime.RetryAfter
import OttiliCoder.Proofs.RetryDates
import OttiliCoder.Proofs.SandboxRebinding
import OttiliCoder.Proofs.PlannerBooks
import OttiliCoder.Proofs.RequiredContext
import OttiliCoder.Library.Turns
import OttiliCoder.Proofs.Conversations
import OttiliCoder.Proofs.LockGrants
import OttiliCoder.Proofs.TurnActs
import OttiliCoder.Proofs.StagnantTurns
import OttiliCoder.Library.ArgumentLine
import OttiliCoder.Proofs.CommandTargets
import OttiliCoder.Workspace.GitStatus
import OttiliCoder.Proofs.GitStatuses
import OttiliCoder.Proofs.McpToolNames
import OttiliCoder.Integrations.McpCall
import OttiliCoder.Proofs.McpAborts
import OttiliCoder.Library.Cutting
import OttiliCoder.Integrations.JsonRpc
import OttiliCoder.Integrations.Lsp
import OttiliCoder.Library.Search
import OttiliCoder.Proofs.LspFrames
import OttiliCoder.Integrations.Stdio
import OttiliCoder.Proofs.StdioRequests
import OttiliCoder.Proofs.McpLines
import OttiliCoder.Proofs.LspChunks
import OttiliCoder.Proofs.LspRoundTrip
import OttiliCoder.Library.Amounts
import OttiliCoder.Library.Patterns
import OttiliCoder.Context.Symbols
import OttiliCoder.Context.RepoMap
import OttiliCoder.Proofs.PageRank
import OttiliCoder.Proofs.RepoMaps
import OttiliCoder.Proofs.RepoMapTexts
import OttiliCoder.Context.Memory
import OttiliCoder.Proofs.MemoryCalls
import OttiliCoder.Proofs.MemoryGates
import OttiliCoder.Proofs.MemoryFacts
import OttiliCoder.Proofs.MemoryPromotions
import OttiliCoder.Library.Windows
import OttiliCoder.Context.SemanticIndex
import OttiliCoder.Proofs.Chunks
import OttiliCoder.Proofs.SemanticIndexes
import OttiliCoder.Proofs.StreamHeaders
import OttiliCoder.Proofs.StreamRecords
import OttiliCoder.Proofs.Streams
import OttiliCoder.Proofs.DecodedStreams
