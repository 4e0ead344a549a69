import AppLauncher.Build.Query
import AppLauncher.Build.Version
import AppLauncher.Cache.Clear
import AppLauncher.Client.Relay
import AppLauncher.Client.Script
import AppLauncher.Config.Basic
import AppLauncher.Config.Derived
import AppLauncher.Config.Layer
import AppLauncher.Config.Lenient
import AppLauncher.Config.Load
import AppLauncher.Config.Render
import AppLauncher.Config.Schema
import AppLauncher.Config.Strict
import AppLauncher.Decimal.Double
import AppLauncher.Decimal.Shortest
import AppLauncher.Document.Json
import AppLauncher.Document.Moment
import AppLauncher.Document.Toml.Chars
import AppLauncher.Document.Toml.Reader
import AppLauncher.Document.Toml.Scalar
import AppLauncher.Document.Toml.Tree
import AppLauncher.Document.Value
import AppLauncher.Duration
import AppLauncher.Error
import AppLauncher.Fault
import AppLauncher.Headless.Run
import AppLauncher.Launcher.Call
import AppLauncher.Launcher.Opening
import AppLauncher.Launcher.Session
import AppLauncher.Launcher.Shutdown
import AppLauncher.Launcher.State
import AppLauncher.Log
import AppLauncher.Logs.File
import AppLauncher.Logs.Pruning
import AppLauncher.Main
import AppLauncher.Output.BoundedSink
import AppLauncher.Output.Capture
import AppLauncher.Output.Forward
import AppLauncher.Output.LineWatch
import AppLauncher.Program.Behaviour
import AppLauncher.Program.Launch
import AppLauncher.Program.Script.Arithmetic
import AppLauncher.Program.Script.Command
import AppLauncher.Program.Script.Format
import AppLauncher.Program.Script.Pattern
import AppLauncher.Program.Script.Run
import AppLauncher.Program.Script.Shell
import AppLauncher.Program.Script.Token
import AppLauncher.Program.Script.Tool
import AppLauncher.Proofs.Output.LineWatch
import AppLauncher.Proofs.Output.Lines
import AppLauncher.Server.Outcome
import AppLauncher.Server.Readiness
import AppLauncher.Server.Running
import AppLauncher.Server.Supervision
import AppLauncher.Server.World
import AppLauncher.Startup
import AppLauncher.Storage.Disk
import AppLauncher.Text.Base64
import AppLauncher.Text.Digits
import AppLauncher.Text.Literal
import AppLauncher.Text.Lowercase
import AppLauncher.Text.Markup
import AppLauncher.Text.Quoted
import AppLauncher.Text.Trim
import AppLauncher.Text.Unprintable
import AppLauncher.Text.Utf8
import AppLauncher.Window.ErrorPage
import AppLauncher.Window.Host
import AppLauncher.Word
import AppLauncher.Proofs.Config.StringStyles
import AppLauncher.Proofs.Document.Toml.Integer
import AppLauncher.Proofs.Config.Layout
import AppLauncher.Proofs.Config.RoundTrip
import AppLauncher.Proofs.Launcher.Background
import AppLauncher.Proofs.Launcher.Shutdown
import AppLauncher.Proofs.Launcher.Opening
import AppLauncher.Proofs.Text.Characters
import AppLauncher.Proofs.Config.Layers
import AppLauncher.Proofs.Launcher.Session
import AppLauncher.Proofs.Output.Delivery
import AppLauncher.Proofs.Server.Handle
import AppLauncher.Proofs.Server.History
import AppLauncher.Proofs.Server.Readiness
import AppLauncher.Proofs.Cache.Clear
import AppLauncher.Proofs.Launcher.Usage
import AppLauncher.Proofs.Launcher.Settled
import AppLauncher.Proofs.Launcher.Loading
import AppLauncher.Proofs.Config.Fieldwise
import AppLauncher.Proofs.Text.Utf8
import AppLauncher.Proofs.Document.Toml.Distinct
import AppLauncher.Proofs.Config.Agreement
import AppLauncher.Proofs.Launcher.Handover
import AppLauncher.Proofs.Headless.Outcome
import AppLauncher.Proofs.Storage.Paths
import AppLauncher.Proofs.Storage.Removal
import AppLauncher.Proofs.Cache.Attempts
import AppLauncher.Proofs.Logs.Due
import AppLauncher.Proofs.Logs.Pruning
import AppLauncher.Proofs.Output.Transcript
import AppLauncher.Proofs.Output.Buffer
import AppLauncher.Proofs.Headless.Cleanup
import AppLauncher.Proofs.Client.Relay
import AppLauncher.Proofs.Text.Base64
import AppLauncher.Proofs.Text.Markup
import AppLauncher.Proofs.Cache.Order
import AppLauncher.Proofs.Window.ErrorPage
import AppLauncher.Proofs.Server.Uptime
import AppLauncher.Proofs.Logs.Repeated
import AppLauncher.Proofs.Build.Versions
import AppLauncher.Proofs.Address.Literal
import AppLauncher.Proofs.Address.Url
import AppLauncher.Proofs.Address.Polled
