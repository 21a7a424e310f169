import ChatFlow.Action.Outcome
import ChatFlow.Action.Precondition
import ChatFlow.Action.Profile
import ChatFlow.Backend.Address
import ChatFlow.Backend.Client
import ChatFlow.Backend.Config
import ChatFlow.Backend.Retry
import ChatFlow.Catalogue
import ChatFlow.Context.Basic
import ChatFlow.Context.Event
import ChatFlow.Context.Store
import ChatFlow.Execution.Basic
import ChatFlow.Execution.Node
import ChatFlow.Fault
import ChatFlow.Graph.Authored
import ChatFlow.Graph.Basic
import ChatFlow.Graph.Lint
import ChatFlow.Graph.NodeType
import ChatFlow.Graph.Payload
import ChatFlow.Graph.Routing
import ChatFlow.Json.Reader
import ChatFlow.Manager
import ChatFlow.Message
import ChatFlow.Number.Basic
import ChatFlow.Number.Double
import ChatFlow.Number.Shortest
import ChatFlow.Preview
import ChatFlow.Proofs.Execution.Result
import ChatFlow.Proofs.Graph.Soundness
import ChatFlow.Proofs.Session.Abandonment
import ChatFlow.Proofs.Session.Move
import ChatFlow.Proofs.Session.Reply
import ChatFlow.Proofs.Session.WellFormed
import ChatFlow.Registry
import ChatFlow.Schema.Checked
import ChatFlow.Schema.Reader
import ChatFlow.Script
import ChatFlow.Session.Basic
import ChatFlow.Session.Instruction
import ChatFlow.Session.Machine
import ChatFlow.Settings.Basic
import ChatFlow.Settings.Engine
import ChatFlow.Settings.Environment
import ChatFlow.Simulation.Cast
import ChatFlow.Simulation.Interruption
import ChatFlow.Simulation.Stage
import ChatFlow.Table
import ChatFlow.Template.Basic
import ChatFlow.Template.Path
import ChatFlow.Text.Blank
import ChatFlow.Text.Digit
import ChatFlow.Text.Lowercase
import ChatFlow.Text.Printable
import ChatFlow.Text.Quoted
import ChatFlow.Text.Range
import ChatFlow.Text.Token
import ChatFlow.Text.Word
import ChatFlow.Value.Basic
import ChatFlow.Value.Display
import ChatFlow.Value.Integer
import ChatFlow.Proofs.Session.Visit
import ChatFlow.Proofs.Graph.Routing
import ChatFlow.Proofs.Session.Origin
import ChatFlow.Proofs.Session.Choice
import ChatFlow.Proofs.Session.Walk
import ChatFlow.Proofs.Session.Winding
import ChatFlow.Proofs.Session.Request
import ChatFlow.Proofs.Session.Closing
import ChatFlow.Proofs.Session.Silence
import ChatFlow.Proofs.Session.Resumption
import ChatFlow.Proofs.Execution.Attempt
import ChatFlow.Proofs.Session.Attempt
import ChatFlow.Proofs.Session.Bound
import ChatFlow.Proofs.Session.Limit
import ChatFlow.Proofs.Session.Failure
import ChatFlow.Proofs.Context.Store
import ChatFlow.Proofs.Session.Restoration
import ChatFlow.Proofs.Session.Serial
import ChatFlow.Proofs.Session.Playback
import ChatFlow.Proofs.Graph.Saving
import ChatFlow.Proofs.Manager.Coherence
import ChatFlow.Proofs.Manager.Isolation
import ChatFlow.Proofs.Manager.Report
import ChatFlow.Proofs.Execution.Totality
import ChatFlow.Proofs.Graph.Vocabulary
import ChatFlow.Proofs.Session.Voice
import ChatFlow.Proofs.Graph.Defect
import ChatFlow.Proofs.Graph.Refusal
import ChatFlow.Proofs.Session.Acceptance
import ChatFlow.Proofs.Session.Label
import ChatFlow.Proofs.Session.Capture
import ChatFlow.Proofs.Session.Preview
import ChatFlow.Proofs.Graph.Lint
import ChatFlow.Proofs.Registry.History
import ChatFlow.Proofs.Registry.Operation
import ChatFlow.Proofs.Backend.Client
import ChatFlow.Proofs.Settings.Overlay
import ChatFlow.Proofs.Template.Reading
