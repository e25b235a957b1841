import RemoteControl.Lib.Transition
import RemoteControl.Lib.Probing
import RemoteControl.Lib.Binary64
import RemoteControl.Lib.BiMap
import RemoteControl.Std.Bytes
import RemoteControl.Helpers.Crc32
import RemoteControl.Lib.ShiftRegister
import RemoteControl.Helpers.Crc32Bits
import RemoteControl.IdManager.Basic
import RemoteControl.IdManager.Invariant
import RemoteControl.IdManager.Restart
import RemoteControl.IdManager.FreshId
import RemoteControl.Lib.Linearizable
import RemoteControl.IdManager.Concurrent
import RemoteControl.Lib.Grows
import RemoteControl.Aimp.Core
import RemoteControl.Aimp.Find
import RemoteControl.Std.Json
import RemoteControl.Helpers.PlaylistEntryJson
import RemoteControl.IdManager.Session
import RemoteControl.Commands.Entries
import RemoteControl.Commands.Playlists
import RemoteControl.Commands.ControlPanel
import RemoteControl.Commands.TrackIds
import RemoteControl.Lib.Separated
import RemoteControl.Settings.Auth
import RemoteControl.Http.Message
import RemoteControl.Auth.DigestAuthenticator
import RemoteControl.Auth.Soundness
import RemoteControl.Settings.Config
import RemoteControl.Settings.OptionsFrame
import RemoteControl.Settings.FailClosed
import RemoteControl.Auth.NonceLifetime
import RemoteControl.Auth.Atomicity
import RemoteControl.Settings.Persistence
import RemoteControl.Events.StateUpdateEvents
import RemoteControl.Events.LongPoll
import RemoteControl.Events.WorkerPool
import RemoteControl.Lib.CondVar
import RemoteControl.Timer.SleepTimer
import RemoteControl.Timer.Safety
import RemoteControl.Network.RemoteControlServer
import RemoteControl.Network.NetworkWatcher
import RemoteControl.Network.Converge
import RemoteControl.Network.DiscoveryServer
import RemoteControl.Plugin.Finalize
import RemoteControl.Plugin.Shutdown
import RemoteControl.Plugin.Cycles
import RemoteControl.Plugin.PumpingJoin
import RemoteControl.Aimp.Controls
import RemoteControl.Aimp.LivePlayer
import RemoteControl.Commands.MainThread
import RemoteControl.Events.Waiters
import RemoteControl.Events.PanelSelection
import RemoteControl.Events.ControlPanelChanges
import RemoteControl.Commands.Mutations
import RemoteControl.Commands.Scheduler
import RemoteControl.Timer.Permission
import RemoteControl.Timer.Delays
import RemoteControl.Commands.Tracks
import RemoteControl.Commands.PlaylistChecksum
import RemoteControl.Commands.PlayNext
import RemoteControl.Commands.PanelFacts
import RemoteControl.Commands.Covers
import RemoteControl.Lib.Scale
import RemoteControl.Commands.Status
import RemoteControl.Commands.PercentScales
import RemoteControl.Commands.StatusPanel
import RemoteControl.Upload.Path
import RemoteControl.Helpers.EntrySearch
import RemoteControl.Auth.SignedUri
import RemoteControl.Lib.Disk
import RemoteControl.Http.FileTree
import RemoteControl.Http.Routes
import RemoteControl.Http.PreRouting
import RemoteControl.Upload.UniqueTarget
import RemoteControl.Upload.UploadTrack
import RemoteControl.Upload.Concurrent
import RemoteControl.Upload.Refused
import RemoteControl.Upload.Naming
import RemoteControl.Commands.SuccessReplies
import RemoteControl.Commands.PhysicalRemoval
import RemoteControl.Commands.NotFound
import RemoteControl.Commands.IdTargets
import RemoteControl.Commands.IdCommands
import RemoteControl.Commands.IdEndpoints
import RemoteControl.Commands.WideIds
import RemoteControl.Commands.FailureCodes
import RemoteControl.Commands.StaleTracks
import RemoteControl.Lib.Cyclic
import RemoteControl.Events.FocusCycle
import RemoteControl.Lib.Streaks
import RemoteControl.Network.BindFailures
import RemoteControl.Settings.StoredHa1
import RemoteControl.Lib.Segments
import RemoteControl.Settings.ListCodec
import RemoteControl.Settings.ExclusionList
import RemoteControl.Commands.CoverUris
import RemoteControl.Commands.EntryCounts
import RemoteControl.Lib.Sorting
import RemoteControl.Commands.BrowseFiles
import RemoteControl.Commands.FileListing
import RemoteControl.Commands.ListingEncoding
import RemoteControl.Network.DiscoveryIo
import RemoteControl.Network.DiscoveryRuns
import RemoteControl.Lib.References
import RemoteControl.Aimp.References
import RemoteControl.Commands.References
import RemoteControl.Commands.PanelReferences
import RemoteControl.Commands.EntryReferences
import RemoteControl.Commands.ListingReferences
import RemoteControl.Commands.HeldReferences
import RemoteControl.Commands.ReferenceRuns
import RemoteControl.Lib.RefCounts
import RemoteControl.Events.Subscription
import RemoteControl.Events.SubscriptionRuns
import RemoteControl.Commands.Downloads
import RemoteControl.Lib.UnlockedCount
import RemoteControl.Lib.SingleThread
import RemoteControl.Commands.MainThreadTasks
import RemoteControl.Commands.MainThreadOrder
import RemoteControl.Commands.ServedRequests
