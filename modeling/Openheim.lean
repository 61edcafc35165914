import Openheim.Memory.HistoryDurability
import Openheim.Memory.LeaseExclusion
import Openheim.Memory.LeaseTakeover
import Openheim.Config.Types
import Openheim.Core.Uuid
import Openheim.Core.AgentHistory
import Openheim.Core.ContextTrim
import Openheim.Core.TrimReports
import Openheim.Core.Llm.SseChunking
import Openheim.Core.PermissionSoundness
import Openheim.Core.RequestValidity
import Openheim.Runtime.OneTurnPerConversation
import Openheim.Runtime.SessionSettings
import Openheim.Runtime.ToolScoping
import Openheim.Runtime.LogFollowsTurn
import Openheim.Runtime.DeletionPermanence
import Openheim.Rag.CurrentVectors
import Openheim.Rag.VectorSpace
import Openheim.Tools.ParallelEdits
import Openheim.Tools.SandboxSoundness
import Openheim.Acp.ReplayShowsLive
import Openheim.Core.OverflowRetries
import Openheim.Core.RepairExactness
import Openheim.Core.RunEnd
import Openheim.Library.StableSort
import Openheim.Runtime.Eviction
import Openheim.Runtime.OpenedSessions
import Openheim.Runtime.LoadedHistory
import Openheim.Memory.HostAgreement
import Openheim.Tools.UnambiguousEdits
import Openheim.Tools.Paging
import Openheim.Tools.EntrySoundness
import Openheim.Core.Llm.AnthropicRoundTrip
import Openheim.Core.Llm.ToolCallAssembly
import Openheim.Core.Llm.StreamedIsStored
import Openheim.Core.Llm.ThinkingReplay
import Openheim.Core.Llm.GeminiRoundTrip
import Openheim.Core.Llm.RetryAttempts
import Openheim.Core.ApprovalKeys
import Openheim.Tools.AddressFilter
import Openheim.Tools.CappedReads
import Openheim.Tools.EntityDecoding
import Openheim.Rag.Refusals
import Openheim.Rag.NoStarvation
import Openheim.Rag.SearchOnce
import Openheim.Config.ThemeSaving
import Openheim.Mcp.DistinctNames
import Openheim.Mcp.Reconnects
import Openheim.Memory.LoadedSkills
import Openheim.Subagents.Frontmatter
import Openheim.Runtime.DelegatedIterations
import Openheim.Tui.InputLine
import Openheim.Tui.AnsweredPermissions
import Openheim.Library.Filling
import Openheim.Tui.WordWrap
import Openheim.Tui.AppSafety
import Openheim.Tui.Quitting
import Openheim.Tui.Drawing
import Openheim.Core.RunTermination
import Openheim.Tui.ActiveModel
import Openheim.Tui.BusyStatus
import Openheim.Tui.TurnCancel
import Openheim.Tui.RestoredChat
import Openheim.Tools.ExecuteCommand
import Openheim.Tools.CommandGroups
import Openheim.Transport.Relay
import Openheim.Transport.SidecarSoundness
import Openheim.Transport.RelayOrder
import Openheim.Acp.ClientConsent
import Openheim.Transport.Uninterrupted
