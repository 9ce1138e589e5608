import Forgetty.Lib.PartialMap
import Forgetty.Lib.Visit
import Forgetty.Lib.Run
import Forgetty.Lib.Ring
import Forgetty.Lib.Channel
import Forgetty.Session.Layout
import Forgetty.Session.Events
import Forgetty.Session.ByteLog
import Forgetty.Session.Manager
import Forgetty.Session.Operations
import Forgetty.Lib.Splice
import Forgetty.Session.Effect
import Forgetty.Session.Coherence
import Forgetty.Socket.Handlers
import Forgetty.Socket.ClosePane
import Forgetty.Session.Drain
import Forgetty.Lib.FileStore
import Forgetty.Workspace.Persistence
import Forgetty.Gtk.StartUp
import Forgetty.Gtk.Windows
import Forgetty.Lib.InodeStore
import Forgetty.Session.Snapshot
import Forgetty.Daemon.Saves
import Forgetty.Daemon.Restore
import Forgetty.Daemon.RestorePlan
import Forgetty.Daemon.RestoreRun
import Forgetty.Daemon.RestoreFocus
import Forgetty.Daemon.PartialRestore
import Forgetty.Session.Indices
import Forgetty.Daemon.RoundTrip
import Forgetty.Gtk.Client
import Forgetty.Gtk.PaneTree
import Forgetty.Gtk.Navigation
import Forgetty.Gtk.Dividers
import Forgetty.Gtk.Ratios
import Forgetty.Session.Traffic
import Forgetty.Socket.SubscribeOutput
import Forgetty.Remote.PaneStream
import Forgetty.Gtk.Terminal
import Forgetty.Gtk.Workspaces
import Forgetty.Gtk.FocusEcho
import Forgetty.Gtk.Rebuild
import Forgetty.Lib.Echo
import Forgetty.Session.WorkspaceCalls
import Forgetty.Gtk.ReorderEcho
import Forgetty.Session.Ids
import Forgetty.Daemon.RestoredIds
import Forgetty.Gtk.LockStep
import Forgetty.Gtk.Labels
import Forgetty.Lib.LastWrite
import Forgetty.Gtk.Names
import Forgetty.Gtk.Pages
import Forgetty.Session.Bounds
import Forgetty.Session.Failures
import Forgetty.Daemon.Reached
import Forgetty.Session.ActiveFocus
import Forgetty.Lib.Replica
import Forgetty.Socket.SubscribeLayout
import Forgetty.Socket.LayoutReplica
import Forgetty.Session.Ended
import Forgetty.Session.LiveFocus
import Forgetty.Daemon.FocusLive
import Forgetty.Daemon.LiveShells
import Forgetty.Lib.Sections
import Forgetty.Session.LockSections
import Forgetty.Session.Registry
import Forgetty.Session.LiveLogs
import Forgetty.Daemon.LiveLogs
import Forgetty.Daemon.Duplicating
import Forgetty.Socket.CreateWorkspace
import Forgetty.Gtk.OscNotification
import Forgetty.Gtk.OutputHandler
import Forgetty.Gtk.Replay
import Forgetty.Lib.Source
import Forgetty.Socket.Framing
import Forgetty.Session.LogSizes
import Forgetty.Socket.ReplayFrame
import Forgetty.Sync.Registry
import Forgetty.Sync.Pairing
import Forgetty.Remote.Revocation
import Forgetty.Gtk.Buckets
import Forgetty.Daemon.Prune
import Forgetty.Lib.Interruption
import Forgetty.Workspace.Migration
import Forgetty.Lib.Stamped
import Forgetty.Workspace.Trash
import Forgetty.Lib.Endings
import Forgetty.Lib.Reserve
import Forgetty.Session.Heard
import Forgetty.Session.ClosedOnce
import Forgetty.Session.Arranged
import Forgetty.Session.DiskLog
import Forgetty.Socket.Attachment
import Forgetty.Sync.PairingWindow
import Forgetty.Vt.Screen
import Forgetty.Vt.Terminal
import Forgetty.Vt.ScreenCache
import Forgetty.Vt.Selection
import Forgetty.Vt.Scrollback
import Forgetty.Gtk.CopySelection
import Forgetty.Lib.Gaps
import Forgetty.Gtk.Clipboard
import Forgetty.Gtk.CopiedText
import Forgetty.Gtk.Search
import Forgetty.Gtk.WideText
import Forgetty.Socket.JsonText
import Forgetty.Gtk.GetLayout
import Forgetty.Gtk.InterruptEcho
import Forgetty.Gtk.OscChunks
import Forgetty.Session.TabOrder
import Forgetty.Vt.ExtractText
import Forgetty.Gtk.SearchSpans
import Forgetty.Gtk.SearchScrollback
import Forgetty.Gtk.ScrollLock
import Forgetty.Gtk.KeptSelection
import Forgetty.Daemon.RebuiltTree
import Forgetty.Daemon.RepeatedIds
import Forgetty.Gtk.SmartCopy
import Forgetty.Core.Rgba
import Forgetty.Core.HexColours
import Forgetty.Lib.BinaryFloat
import Forgetty.Config.Toml
import Forgetty.Config.Theme
import Forgetty.Config.Catalogue
import Forgetty.Config.Schema
import Forgetty.Config.RoundTrip
import Forgetty.Config.ColourPanics
import Forgetty.Socket.Sizes
import Forgetty.Lib.Pairing
import Forgetty.Gtk.MouseReports
import Forgetty.Gtk.KeyRepeat
import Forgetty.Workspace.AtomicSave
import Forgetty.Gtk.UrlHover
import Forgetty.Gtk.CodeBlocks
import Forgetty.Lib.Stretches
import Forgetty.Lib.Calendar
import Forgetty.Sync.Dates
import Forgetty.Gtk.Timestamp
import Forgetty.Lib.TreePath
import Forgetty.Lib.Moments
import Forgetty.Vt.Mutators
import Forgetty.Vt.Generations
import Forgetty.Session.SplitLeaf
import Forgetty.Lib.Base64
import Forgetty.Socket.Dispatch
import Forgetty.Socket.Refusals
import Forgetty.Socket.Lines
import Forgetty.Gtk.Rpc
import Forgetty.Socket.Ordered
import Forgetty.Gtk.DirectCalls
import Forgetty.Gtk.OverTheWire
import Forgetty.Gtk.Keystrokes
import Forgetty.Session.Belonging
import Forgetty.Gtk.ClosePage
import Forgetty.Lib.CutStream
import Forgetty.Socket.LayoutLines
import Forgetty.Gtk.LayoutStream
import Forgetty.Gtk.Keybindings
import Forgetty.Gtk.HotReload
import Forgetty.Lib.FirstPlace
import Forgetty.Gtk.WindowTitle
import Forgetty.Lib.Spread
import Forgetty.Gtk.WordDrag
import Forgetty.Remote.TypedInput
