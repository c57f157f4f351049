import CommandLog.Bytes
import CommandLog.Command
import CommandLog.CommandLine.Grammar
import CommandLog.CommandLine.Matching
import CommandLog.CommandLine.Number
import CommandLog.Duration
import CommandLog.Event
import CommandLog.Failure
import CommandLog.Files.Replacement
import CommandLog.Files.Tree
import CommandLog.Hosting
import CommandLog.LineBuffer
import CommandLog.Lock
import CommandLog.Log.Basic
import CommandLog.Log.Position
import CommandLog.Log.Request
import CommandLog.Log.Snapshot
import CommandLog.Main
import CommandLog.Memory
import CommandLog.Net.SocketAddress
import CommandLog.Proofs.Command.Grammar
import CommandLog.Proofs.CommandLine.Flags
import CommandLog.Proofs.CommandLine.Settings
import CommandLog.Proofs.Failure.Messages
import CommandLog.Proofs.Files.Opening
import CommandLog.Proofs.Files.Replacing
import CommandLog.Proofs.LineBuffer.Lines
import CommandLog.Proofs.LineBuffer.Shares
import CommandLog.Proofs.Lock.Absence
import CommandLog.Proofs.Lock.Line
import CommandLog.Proofs.Log.Addresses
import CommandLog.Proofs.Log.Content
import CommandLog.Proofs.Log.Displacement
import CommandLog.Proofs.Log.Lines
import CommandLog.Proofs.Log.Retention
import CommandLog.Proofs.Registry.Books
import CommandLog.Proofs.Registry.Conservation
import CommandLog.Proofs.Registry.Drained
import CommandLog.Proofs.Registry.Draining
import CommandLog.Proofs.Ring.Contents
import CommandLog.Proofs.Ring.Representation
import CommandLog.Proofs.Ring.Words
import CommandLog.Proofs.Server.Course
import CommandLog.Proofs.Server.Shutdown
import CommandLog.Proofs.Service.Outcome
import CommandLog.Proofs.Service.Parts
import CommandLog.Proofs.Service.Reading
import CommandLog.Proofs.Text.Unambiguous
import CommandLog.Proofs.Worker.Account
import CommandLog.Proofs.Worker.Cuts
import CommandLog.Proofs.Worker.Exchanges
import CommandLog.Proofs.Worker.Framing
import CommandLog.Proofs.Worker.Hearing
import CommandLog.Proofs.Worker.Leftovers
import CommandLog.Proofs.Worker.Phases
import CommandLog.Proofs.Worker.Renumbering
import CommandLog.Proofs.Worker.Step
import CommandLog.Proofs.World.Apart
import CommandLog.Proofs.World.Arrivals
import CommandLog.Proofs.World.Conversation
import CommandLog.Proofs.World.Cursors
import CommandLog.Proofs.World.Delivery
import CommandLog.Proofs.World.Dialogue
import CommandLog.Proofs.World.Entries
import CommandLog.Proofs.World.Erasure
import CommandLog.Proofs.World.FirstCome
import CommandLog.Proofs.World.Isolation
import CommandLog.Proofs.World.Ledger
import CommandLog.Proofs.World.Lifecycle
import CommandLog.Proofs.World.Linearizable
import CommandLog.Proofs.World.LoneRun
import CommandLog.Proofs.World.Mirrored
import CommandLog.Proofs.World.Move
import CommandLog.Proofs.World.Numbering
import CommandLog.Proofs.World.PartialWrites
import CommandLog.Proofs.World.Passage
import CommandLog.Proofs.World.Replay
import CommandLog.Proofs.World.Responsive
import CommandLog.Proofs.World.Run
import CommandLog.Proofs.World.Segmentation
import CommandLog.Proofs.World.Sessions
import CommandLog.Proofs.World.Settling
import CommandLog.Proofs.World.Simulation
import CommandLog.Proofs.World.Solo
import CommandLog.Proofs.World.Turns
import CommandLog.Proofs.World.Uninterrupted
import CommandLog.Proofs.World.View
import CommandLog.Proofs.World.Waiting
import CommandLog.Registry
import CommandLog.Ring
import CommandLog.Schedule
import CommandLog.Server
import CommandLog.Service
import CommandLog.Session
import CommandLog.Settings
import CommandLog.Stream
import CommandLog.Table
import CommandLog.Text.Quoted
import CommandLog.Text.Terminal
import CommandLog.Text.Unprintable
import CommandLog.Text.Utf8
import CommandLog.Worker
import CommandLog.World
