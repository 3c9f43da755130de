import DebugAdapter.Breakpoints.LineMap
import DebugAdapter.Breakpoints.Registry
import DebugAdapter.Breakpoints.Source
import DebugAdapter.CommandLine.Address
import DebugAdapter.CommandLine.Help
import DebugAdapter.CommandLine.Options
import DebugAdapter.CommandLine.Report
import DebugAdapter.Config.FieldValue
import DebugAdapter.Config.LogFilter
import DebugAdapter.Config.Settings
import DebugAdapter.Execution.Context
import DebugAdapter.Execution.Rendezvous
import DebugAdapter.Files.Tree
import DebugAdapter.Json.Basic
import DebugAdapter.Json.Decode
import DebugAdapter.Json.Fault
import DebugAdapter.Json.Parser
import DebugAdapter.Json.Printer
import DebugAdapter.Json.Stream
import DebugAdapter.Main
import DebugAdapter.Number.Decimal
import DebugAdapter.Number.Double
import DebugAdapter.Output.Channel
import DebugAdapter.Output.LineBuffer
import DebugAdapter.Output.Relay
import DebugAdapter.Pattern.Basic
import DebugAdapter.Pattern.Parser
import DebugAdapter.Pattern.Support
import DebugAdapter.Proofs.Breakpoints.Lookup
import DebugAdapter.Proofs.Breakpoints.Marks
import DebugAdapter.Proofs.Json.Apart
import DebugAdapter.Proofs.Json.Numerals
import DebugAdapter.Proofs.Json.RoundTrip
import DebugAdapter.Proofs.Protocol.Growing
import DebugAdapter.Proofs.Protocol.Joined
import DebugAdapter.Proofs.Protocol.Truncated
import DebugAdapter.Proofs.Script.Instrumented
import DebugAdapter.Proofs.Server.Answered
import DebugAdapter.Proofs.Server.Serving
import DebugAdapter.Proofs.Session.Abandoned
import DebugAdapter.Proofs.Session.Agenda
import DebugAdapter.Proofs.Session.Answers
import DebugAdapter.Proofs.Session.AtRest
import DebugAdapter.Proofs.Session.Boundary
import DebugAdapter.Proofs.Session.Course
import DebugAdapter.Proofs.Session.Debugger
import DebugAdapter.Proofs.Session.Dues
import DebugAdapter.Proofs.Session.InstalledLines
import DebugAdapter.Proofs.Session.Order
import DebugAdapter.Proofs.Session.Path
import DebugAdapter.Proofs.Session.PausedVariables
import DebugAdapter.Proofs.Session.Queued
import DebugAdapter.Proofs.Session.Reference
import DebugAdapter.Proofs.Session.RefusalText
import DebugAdapter.Proofs.Session.Refused
import DebugAdapter.Proofs.Session.RequestStep
import DebugAdapter.Proofs.Session.SessionStep
import DebugAdapter.Proofs.Session.Shown
import DebugAdapter.Proofs.Session.Signals
import DebugAdapter.Proofs.Session.Stable
import DebugAdapter.Proofs.Session.Suspension
import DebugAdapter.Proofs.Session.Terminated
import DebugAdapter.Proofs.Session.ThroughRelay
import DebugAdapter.Proofs.Session.ThreadStep
import DebugAdapter.Proofs.Session.Unstarted
import DebugAdapter.Proofs.Text.Redacted
import DebugAdapter.Proofs.Text.Utf8
import DebugAdapter.Proofs.Variables.Overrides
import DebugAdapter.Protocol.Arguments
import DebugAdapter.Protocol.Command
import DebugAdapter.Protocol.Crash
import DebugAdapter.Protocol.Error
import DebugAdapter.Protocol.Frame
import DebugAdapter.Protocol.Message
import DebugAdapter.Request.Defaults
import DebugAdapter.Script.Evaluation
import DebugAdapter.Script.Library
import DebugAdapter.Script.Parser
import DebugAdapter.Script.Run
import DebugAdapter.Script.Statement
import DebugAdapter.Server
import DebugAdapter.Session.Answer
import DebugAdapter.Session.Backend
import DebugAdapter.Session.Effort
import DebugAdapter.Session.Event
import DebugAdapter.Session.Handler
import DebugAdapter.Session.Schedule
import DebugAdapter.Session.Settle
import DebugAdapter.Session.State
import DebugAdapter.Session.Steps
import DebugAdapter.Source.Key
import DebugAdapter.Text.Ascii
import DebugAdapter.Text.Blank
import DebugAdapter.Text.Digits
import DebugAdapter.Text.Hidden
import DebugAdapter.Text.Letters
import DebugAdapter.Text.Lines
import DebugAdapter.Text.Quoted
import DebugAdapter.Text.Ranges
import DebugAdapter.Text.Redacted
import DebugAdapter.Text.Split
import DebugAdapter.Text.Table
import DebugAdapter.Text.Utf8
import DebugAdapter.Toml.Basic
import DebugAdapter.Toml.Parser
import DebugAdapter.Toml.Scalar
import DebugAdapter.Variables.Display
import DebugAdapter.Variables.Path
import DebugAdapter.Variables.Segment
import DebugAdapter.Variables.Snapshot
import DebugAdapter.Variables.Template
import DebugAdapter.Proofs.Source.Passes
import DebugAdapter.Proofs.Source.Encodings
import DebugAdapter.Proofs.Source.Shown
import DebugAdapter.Proofs.Session.Asked
import DebugAdapter.Proofs.Session.PausedRun
import DebugAdapter.Proofs.Session.ShownPath
import DebugAdapter.Proofs.Session.Gates
import DebugAdapter.Proofs.Session.Phases
import DebugAdapter.Proofs.Script.Unnoticed
import DebugAdapter.Proofs.Script.Pieces
import DebugAdapter.Proofs.Script.ReadBack
import DebugAdapter.Proofs.Output.Chain
import DebugAdapter.Proofs.Output.Taps
import DebugAdapter.Proofs.Output.Held
import DebugAdapter.Proofs.Output.Unheard
import DebugAdapter.Proofs.Output.Lines
import DebugAdapter.Proofs.Output.Relayed
import DebugAdapter.Proofs.Output.Served
import DebugAdapter.Proofs.Session.OutputOrder
import DebugAdapter.Proofs.Variables.Expansion
import DebugAdapter.Proofs.Session.PauseAnswered
import DebugAdapter.Proofs.Session.BoundaryMarks
import DebugAdapter.Proofs.Output.Overlap
import DebugAdapter.Proofs.Protocol.Pieces
import DebugAdapter.Proofs.Variables.Retyped
import DebugAdapter.Proofs.Variables.Assigned
import DebugAdapter.Proofs.Variables.References
import DebugAdapter.Proofs.Variables.InPlace
import DebugAdapter.Proofs.Breakpoints.StoredLines
import DebugAdapter.Proofs.Breakpoints.History
import DebugAdapter.Proofs.Breakpoints.Apart
import DebugAdapter.Proofs.Session.OtherScripts
import DebugAdapter.Proofs.Variables.Shadowed
import DebugAdapter.Proofs.Text.Split
import DebugAdapter.Proofs.Variables.Placeholders
import DebugAdapter.Proofs.Script.Evaluated
import DebugAdapter.Proofs.Files.Components
import DebugAdapter.Proofs.Script.Opened
import DebugAdapter.Proofs.Script.NamedFiles
import DebugAdapter.Proofs.Execution.Waiters
import DebugAdapter.Proofs.Toml.Entries
import DebugAdapter.Proofs.Config.Sections
import DebugAdapter.Proofs.Config.Recognized
import DebugAdapter.Proofs.Config.UnknownKeys
