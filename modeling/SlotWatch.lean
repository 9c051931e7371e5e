import SlotWatch.Bench
import SlotWatch.CommandLine.Arguments
import SlotWatch.CommandLine.Execution
import SlotWatch.CommandLine.Usage
import SlotWatch.Failure
import SlotWatch.Files
import SlotWatch.Json.Basic
import SlotWatch.Json.Decode
import SlotWatch.Json.Numeral
import SlotWatch.Json.Token
import SlotWatch.Kind
import SlotWatch.Main
import SlotWatch.Payload
import SlotWatch.Phone
import SlotWatch.Registry
import SlotWatch.Replay.Report
import SlotWatch.Replay.Script
import SlotWatch.Replay.Simulation
import SlotWatch.Settings
import SlotWatch.Settings.File
import SlotWatch.State.Code
import SlotWatch.State.Named
import SlotWatch.State.Record
import SlotWatch.Switchboard.Basic
import SlotWatch.Switchboard.Publishing
import SlotWatch.Switchboard.Registering
import SlotWatch.Switchboard.Run
import SlotWatch.Text.Double
import SlotWatch.Text.Identifier
import SlotWatch.Text.Moment
import SlotWatch.Text.Numeral
import SlotWatch.Toml.Document
import SlotWatch.Toml.Quoted
import SlotWatch.Toml.Scan
import SlotWatch.Toml.Table
import SlotWatch.Proofs.Moment
import SlotWatch.Proofs.Feed
import SlotWatch.Proofs.Registry
import SlotWatch.Proofs.Requests
import SlotWatch.Proofs.Advance
import SlotWatch.Proofs.Registering
import SlotWatch.Proofs.Observation
import SlotWatch.Proofs.Record
import SlotWatch.Proofs.OneShot
import SlotWatch.Proofs.Delivery
import SlotWatch.Proofs.Marks
import SlotWatch.Proofs.Removal
import SlotWatch.Proofs.Withdrawal
import SlotWatch.Proofs.Finality
import SlotWatch.Proofs.Failing
import SlotWatch.Proofs.Answers
import SlotWatch.Proofs.Conservation
import SlotWatch.Proofs.LiveList
import SlotWatch.Proofs.Access
import SlotWatch.Proofs.Phone
import SlotWatch.Proofs.Matched
import SlotWatch.Proofs.Cache
import SlotWatch.Proofs.Replaying
import SlotWatch.Proofs.CallNumbers
import SlotWatch.Proofs.Roll
import SlotWatch.Proofs.RollBoard
import SlotWatch.Proofs.RollCall
import SlotWatch.Proofs.Quoted
import SlotWatch.Proofs.Numeral
import SlotWatch.Proofs.Document
import SlotWatch.Proofs.SavedSettings
import SlotWatch.Proofs.Token
import SlotWatch.Proofs.Reading
import SlotWatch.Proofs.Named
import SlotWatch.Proofs.Wire
import SlotWatch.Proofs.Naming
import SlotWatch.Proofs.Shape
import SlotWatch.Proofs.Mirrored
import SlotWatch.Proofs.ByName
import SlotWatch.Proofs.Lasting
import SlotWatch.Proofs.Steady
import SlotWatch.Proofs.LastUpdate
import SlotWatch.Proofs.Inquiry
import SlotWatch.Proofs.Relocation
import SlotWatch.Proofs.Idle
import SlotWatch.Proofs.Abandoned
import SlotWatch.Proofs.Unadmitted
import SlotWatch.Proofs.Granting
import SlotWatch.Proofs.Aspect
import SlotWatch.Proofs.Attribution
import SlotWatch.Proofs.Projection
import SlotWatch.Proofs.Counterpart
import SlotWatch.Proofs.Separation
import SlotWatch.Proofs.Changes
import SlotWatch.Proofs.Cascade
import SlotWatch.Proofs.Abreast
import SlotWatch.Proofs.RoundTrip
import SlotWatch.Proofs.Inboxes
import SlotWatch.Proofs.Channels
import SlotWatch.Proofs.Owing
import SlotWatch.Proofs.Panics
import SlotWatch.Proofs.Layout
import SlotWatch.Proofs.Fields
import SlotWatch.Proofs.Forms
import SlotWatch.Proofs.WireOrder
import SlotWatch.Proofs.StepForms
