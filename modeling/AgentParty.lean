import AgentParty.Lib.Recent
import AgentParty.Lib.Run
import AgentParty.Lib.Table
import AgentParty.Lib.Loop
import AgentParty.Lib.Framing
import AgentParty.Lib.Lines
import AgentParty.Lib.PrefixCode
import AgentParty.Lib.Sorting
import AgentParty.Delivery.Data
import AgentParty.Delivery.Terminal
import AgentParty.Delivery.Tree
import AgentParty.Delivery.Machine
import AgentParty.Delivery.Lease
import AgentParty.Delivery.Recover
import AgentParty.Delivery.Update
import AgentParty.Delivery.Enqueue
import AgentParty.Delivery.Dispatch
import AgentParty.Delivery.Webhook
import AgentParty.Delivery.Completions
import AgentParty.Delivery.Sockets
import AgentParty.Guards.Data
import AgentParty.Guards.LoopGuard
import AgentParty.Guards.WorkflowGuard
import AgentParty.Guards.Send
import AgentParty.Proofs.GuardedSends
import AgentParty.Proofs.LoopGuard
import AgentParty.Proofs.WorkflowGuard
import AgentParty.Proofs.Replacements
import AgentParty.Proofs.Settlement
import AgentParty.Proofs.Sweep
import AgentParty.Proofs.Writes
import AgentParty.Proofs.Steady
import AgentParty.Proofs.Operations
import AgentParty.Proofs.Transactions
import AgentParty.Proofs.Leasing
import AgentParty.Proofs.Retraction
import AgentParty.Proofs.Steps
import AgentParty.Proofs.Exclusive
import AgentParty.Proofs.Replay
import AgentParty.Proofs.Fence
import AgentParty.Proofs.Election
import AgentParty.Proofs.ServeLease
import AgentParty.Proofs.ElectedHolder
import AgentParty.Codex.Data
import AgentParty.Codex.Arbiter
import AgentParty.Codex.Interactive
import AgentParty.Codex.Observe
import AgentParty.Codex.Machine
import AgentParty.Proofs.Journal
import AgentParty.Proofs.LaneOps
import AgentParty.Proofs.AtMostOnce
import AgentParty.Proofs.QueueAccounts
import AgentParty.Proofs.Standing
import AgentParty.Proofs.QueueRecords
import AgentParty.Cli.Account
import AgentParty.Proofs.AccountRefresh
import AgentParty.Shared.Mentions
import AgentParty.Shared.Json
import AgentParty.Shared.Collation
import AgentParty.Shared.Aliases
import AgentParty.Shared.Conflicts
import AgentParty.Proofs.CodeRanges
import AgentParty.Proofs.Aliases
import AgentParty.Proofs.Conflicts
import AgentParty.Delivery.BodyMentions
import AgentParty.Proofs.BodyMentions
import AgentParty.Cli.InstanceLock
import AgentParty.Cli.RecoveryJournal
import AgentParty.Cli.RecoveryOwner
import AgentParty.Cli.TaskLease
import AgentParty.Lib.Handover
import AgentParty.Proofs.Claims
import AgentParty.Proofs.InstanceLocks
import AgentParty.Proofs.NoLockout
import AgentParty.Proofs.TaskLeases
import AgentParty.Proofs.SocketState
import AgentParty.Web.State
import AgentParty.Proofs.MessageView
import AgentParty.Proofs.Current
import AgentParty.Delivery.Content
import AgentParty.Proofs.Content
import AgentParty.Delivery.History
import AgentParty.Proofs.HistoryPages
import AgentParty.Web.SessionOutputRing
import AgentParty.Web.SessionOutputStore
import AgentParty.Proofs.SessionView
import AgentParty.Proofs.FrozenSession
import AgentParty.Proofs.SessionStore
import AgentParty.Proofs.RemovedMembers
import AgentParty.Proofs.QueuedTime
import AgentParty.Desktop.Tables
import AgentParty.Desktop.DutyReconcile
import AgentParty.Proofs.DutyReconcile
import AgentParty.Desktop.Requests
import AgentParty.Proofs.DesktopRefresh
import AgentParty.Proofs.DesktopPairing
import AgentParty.Cli.ClaudeStream
import AgentParty.Cli.DesktopIpc
import AgentParty.Cli.NativeSession
import AgentParty.Proofs.ClaudeStream
import AgentParty.Proofs.DesktopIpc
import AgentParty.Proofs.NativeSession
import AgentParty.Cli.SessionReporter
import AgentParty.Cli.ServeLoop
import AgentParty.Proofs.SessionReporter
import AgentParty.Proofs.WakeAttempts
import AgentParty.Cli.Client
import AgentParty.Delivery.Hello
import AgentParty.Proofs.Client
import AgentParty.Proofs.Handoff
import AgentParty.Lib.Chain
import AgentParty.Decisions.LedgerText
import AgentParty.Decisions.Ledger
import AgentParty.Proofs.DecisionLedger
import AgentParty.Lib.Window
import AgentParty.Lib.Keyset
import AgentParty.Delivery.WakeBudget
import AgentParty.Proofs.WakeBudget
import AgentParty.Delivery.Authority
import AgentParty.Proofs.Authority
import AgentParty.Delivery.Presence
import AgentParty.Proofs.Pauses
import AgentParty.Lib.SecondaryIndex
import AgentParty.Delivery.Routing
import AgentParty.Proofs.MentionIndex
import AgentParty.Proofs.RoutedTargets
import AgentParty.Decisions.Answers
import AgentParty.Proofs.Answers
