import Retrace.Command.Basic
import Retrace.Command.Line
import Retrace.Command.Program
import Retrace.Command.Settings
import Retrace.Command.Status
import Retrace.Command.Trace
import Retrace.Command.Watch
import Retrace.Config.Basic
import Retrace.Config.Document
import Retrace.Config.Key
import Retrace.Config.Store
import Retrace.Digest.Blake3
import Retrace.Environment
import Retrace.Failure
import Retrace.Json.Quoted
import Retrace.Json.Scan
import Retrace.Launch.Build
import Retrace.Launch.Invocation
import Retrace.Live.Debounce
import Retrace.Live.Display
import Retrace.Live.Engine
import Retrace.Live.Scripted
import Retrace.Live.Session
import Retrace.Live.Timeline
import Retrace.Lock.Content
import Retrace.Lock.Ledger
import Retrace.Lock.Naming
import Retrace.Lock.Protocol
import Retrace.Lock.Session
import Retrace.Lock.World
import Retrace.Machine.Errno
import Retrace.Machine.Files
import Retrace.Machine.Handles
import Retrace.Machine.Job
import Retrace.Machine.Tree
import Retrace.Main
import Retrace.Number.Binary64
import Retrace.Output.Replace
import Retrace.Output.Sink
import Retrace.Output.Style
import Retrace.Output.Terminal
import Retrace.Path.Basic
import Retrace.Path.ModuleName
import Retrace.Run.Basic
import Retrace.Run.Process
import Retrace.Run.Supervision
import Retrace.Shell.Arith
import Retrace.Shell.Condition
import Retrace.Shell.Course
import Retrace.Shell.Eval
import Retrace.Shell.Expansion
import Retrace.Shell.Format
import Retrace.Shell.Image
import Retrace.Shell.Pattern
import Retrace.Shell.Process
import Retrace.Shell.Reader
import Retrace.Shell.Syntax
import Retrace.Shell.Tool.Basic
import Retrace.Shell.Tool.Files
import Retrace.Shell.Tool.Text
import Retrace.Source
import Retrace.Text.Blank
import Retrace.Text.Duration
import Retrace.Text.Lowercase
import Retrace.Text.Natural
import Retrace.Text.Utf8
import Retrace.Token
import Retrace.Token.Holders
import Retrace.Toml.Document
import Retrace.Toml.Node
import Retrace.Toml.Quoted
import Retrace.Toml.Scalar
import Retrace.Toml.Written
import Retrace.Watch.File
import Retrace.Watch.Loop
import Retrace.Watch.World
import Retrace.Proofs.Live.Order
import Retrace.Proofs.Live.Barrier
import Retrace.Proofs.Live.Convergence
import Retrace.Proofs.Lock.Exclusion
import Retrace.Proofs.Live.SingleFlight
import Retrace.Proofs.Live.Fate
import Retrace.Proofs.Live.QuietPeriod
import Retrace.Proofs.Live.Playback
import Retrace.Proofs.Config.Store
import Retrace.Proofs.Watch.Freshness
import Retrace.Proofs.Lock.Refusal
import Retrace.Proofs.Path.Split
import Retrace.Proofs.Text.Natural
import Retrace.Proofs.Config.Key
import Retrace.Proofs.Machine.Descent
import Retrace.Proofs.Command.Setting
import Retrace.Proofs.Json.Written
import Retrace.Proofs.Lock.Content
import Retrace.Proofs.Machine.Directory
import Retrace.Proofs.Lock.Operation
import Retrace.Proofs.Lock.Naming
import Retrace.Proofs.Lock.Keeping
import Retrace.Proofs.Lock.Ledger
import Retrace.Proofs.Config.Shown
import Retrace.Proofs.Launch.Build
import Retrace.Proofs.Run.Supervision
import Retrace.Proofs.Path.ModuleName
import Retrace.Proofs.Config.Overlay
import Retrace.Proofs.Live.Clients
import Retrace.Proofs.Output.Replace
import Retrace.Proofs.Output.Temporary
import Retrace.Proofs.Output.Sink
import Retrace.Proofs.Token.Sharing
import Retrace.Proofs.Live.Running
import Retrace.Proofs.Live.Starting
import Retrace.Proofs.Command.Repair
