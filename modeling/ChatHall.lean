/-
# A chat server

Sessions over TCP with framed packets, named job queues, chat rooms, and the
server that joins them.
-/

import ChatHall.Buffer.Chunk
import ChatHall.Buffer.Receive
import ChatHall.Buffer.Scatter
import ChatHall.Buffer.Workspace
import ChatHall.Bytes
import ChatHall.Chat.Command
import ChatHall.Chat.Error
import ChatHall.Chat.Packet
import ChatHall.Chat.Response
import ChatHall.Config.EnvFile
import ChatHall.Config.Environment
import ChatHall.Config.ServerSettings
import ChatHall.Decimal.Natural
import ChatHall.Decimal.Shortest
import ChatHall.Jobs.Failure
import ChatHall.Jobs.Pool
import ChatHall.Jobs.Queue
import ChatHall.Jobs.Realm
import ChatHall.Jobs.Task
import ChatHall.Json.Fault
import ChatHall.Json.Number
import ChatHall.Json.Printer
import ChatHall.Json.Reader
import ChatHall.Json.Record
import ChatHall.Json.Scalar
import ChatHall.Json.Skip
import ChatHall.Json.Text
import ChatHall.Json.Union
import ChatHall.Json.Value
import ChatHall.Log
import ChatHall.Log.Filter
import ChatHall.Main
import ChatHall.Net.Address
import ChatHall.Net.Error
import ChatHall.Net.Network
import ChatHall.Net.Reconnect
import ChatHall.Net.Settings
import ChatHall.Panic
import ChatHall.Server.Course
import ChatHall.Server.Delivery
import ChatHall.Server.House
import ChatHall.Server.Job
import ChatHall.Server.Rooms
import ChatHall.Server.Service
import ChatHall.Server.Sessions
import ChatHall.Server.Startup
import ChatHall.Server.Statistics
import ChatHall.Server.Visit
import ChatHall.Session.Connection
import ChatHall.Session.Handler
import ChatHall.Session.Receiver
import ChatHall.Session.Recorder
import ChatHall.Session.Schedule
import ChatHall.Table
import ChatHall.Text.Alphanumeric
import ChatHall.Text.Blank
import ChatHall.Text.Printable
import ChatHall.Text.Quoted
import ChatHall.Text.Utf8
import ChatHall.Wire.Frame
import ChatHall.Wire.Packet
import ChatHall.Wire.Tagged
import ChatHall.Proofs.Buffer.Receive
import ChatHall.Proofs.Text.Utf8
import ChatHall.Proofs.Wire.Front
import ChatHall.Proofs.Wire.Resumption
import ChatHall.Proofs.Wire.Stream
import ChatHall.Proofs.Wire.Exact
import ChatHall.Proofs.Wire.Tagged
import ChatHall.Proofs.Jobs.Serial
import ChatHall.Proofs.Jobs.Workshop
import ChatHall.Proofs.Session.Chunking
import ChatHall.Proofs.Jobs.Pool
import ChatHall.Proofs.Server.House
import ChatHall.Proofs.Server.Agenda
import ChatHall.Proofs.Server.Furnished
import ChatHall.Proofs.Server.Order
import ChatHall.Proofs.Server.Stage
import ChatHall.Proofs.Server.Turn
import ChatHall.Proofs.Server.Course
import ChatHall.Proofs.Server.Registry
import ChatHall.Proofs.Server.Seat
import ChatHall.Proofs.Server.Membership
import ChatHall.Proofs.Session.Threads
import ChatHall.Proofs.Session.Loop
import ChatHall.Proofs.Session.Hearing
import ChatHall.Proofs.Session.Inflow
import ChatHall.Proofs.Buffer.Scatter
import ChatHall.Proofs.Session.Batch
import ChatHall.Proofs.Session.Outward
import ChatHall.Proofs.Server.Errand
import ChatHall.Proofs.Server.Farewell
import ChatHall.Proofs.Session.Callbacks
import ChatHall.Proofs.Session.Parting
import ChatHall.Proofs.Server.Punctual
import ChatHall.Proofs.Server.Release
import ChatHall.Proofs.Server.Handout
import ChatHall.Proofs.Server.Presence
import ChatHall.Proofs.Server.Speech
import ChatHall.Proofs.Server.Audience
import ChatHall.Proofs.Buffer.Workspace
import ChatHall.Proofs.Buffer.Segments
import ChatHall.Proofs.Json.Text
import ChatHall.Proofs.Json.Number
import ChatHall.Proofs.Json.Scalar
import ChatHall.Proofs.Json.Object
import ChatHall.Proofs.Chat.Survival
import ChatHall.Proofs.Server.Shutdown
import ChatHall.Proofs.Json.Size
import ChatHall.Proofs.Chat.Size
import ChatHall.Proofs.Jobs.Returned
import ChatHall.Proofs.Jobs.Growth
import ChatHall.Proofs.Jobs.Idle
import ChatHall.Proofs.Jobs.Toil
import ChatHall.Proofs.Jobs.Directory
import ChatHall.Proofs.Jobs.Register
import ChatHall.Proofs.Server.Answer
import ChatHall.Proofs.Net.Reconnect
import ChatHall.Proofs.Config.Precedence
import ChatHall.Proofs.Server.Neighbours
import ChatHall.Proofs.Server.Headroom
