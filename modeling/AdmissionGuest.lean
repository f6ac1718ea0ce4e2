import AdmissionGuest.Admission.Action
import AdmissionGuest.Admission.Request
import AdmissionGuest.Admission.Response
import AdmissionGuest.Capability.Basic
import AdmissionGuest.Capability.Certificate
import AdmissionGuest.Capability.Cluster
import AdmissionGuest.Capability.Network
import AdmissionGuest.Capability.Registry
import AdmissionGuest.Capability.Signature
import AdmissionGuest.Channel.Sink
import AdmissionGuest.Channel.Source
import AdmissionGuest.Config
import AdmissionGuest.Dict
import AdmissionGuest.DigestPolicy
import AdmissionGuest.Document
import AdmissionGuest.Error
import AdmissionGuest.Guest
import AdmissionGuest.Host.Address
import AdmissionGuest.Host.Basic
import AdmissionGuest.Host.Detached
import AdmissionGuest.Host.Scripted
import AdmissionGuest.Json.Ascii
import AdmissionGuest.Json.Basic
import AdmissionGuest.Json.Fault
import AdmissionGuest.Json.Read
import AdmissionGuest.Json.Scan
import AdmissionGuest.Json.Skip
import AdmissionGuest.Json.Value
import AdmissionGuest.Json.Write
import AdmissionGuest.KeyedMap
import AdmissionGuest.Label
import AdmissionGuest.Log.Event
import AdmissionGuest.Log.Level
import AdmissionGuest.Main
import AdmissionGuest.Manifest.Basic
import AdmissionGuest.Manifest.Configuration
import AdmissionGuest.Manifest.MediaType
import AdmissionGuest.Manifest.Reply
import AdmissionGuest.Number.Double
import AdmissionGuest.Number.Layout
import AdmissionGuest.Number.Shortest
import AdmissionGuest.Policy
import AdmissionGuest.Probe.Finding
import AdmissionGuest.Probe.Policy
import AdmissionGuest.Probe.Scenario
import AdmissionGuest.Program
import AdmissionGuest.Proofs.Admission.Request
import AdmissionGuest.Proofs.Admission.Response
import AdmissionGuest.Proofs.Capability.Calls
import AdmissionGuest.Proofs.Capability.Confined
import AdmissionGuest.Proofs.Capability.Payload
import AdmissionGuest.Proofs.Capability.Signature
import AdmissionGuest.Proofs.Channel.Document
import AdmissionGuest.Proofs.Channel.Sink
import AdmissionGuest.Proofs.Channel.Source
import AdmissionGuest.Proofs.Channel.Transport
import AdmissionGuest.Proofs.Document
import AdmissionGuest.Proofs.Guest
import AdmissionGuest.Proofs.Host.Replay
import AdmissionGuest.Proofs.Json.Nesting
import AdmissionGuest.Proofs.Json.Numeral
import AdmissionGuest.Proofs.Json.Parts
import AdmissionGuest.Proofs.Json.Read
import AdmissionGuest.Proofs.Json.RoundTrip
import AdmissionGuest.Proofs.Json.Skip.Append
import AdmissionGuest.Proofs.Json.Skip.Extent
import AdmissionGuest.Proofs.Json.Skip.Nested
import AdmissionGuest.Proofs.Json.Skip.Scalar
import AdmissionGuest.Proofs.Json.Text
import AdmissionGuest.Proofs.Json.Value
import AdmissionGuest.Proofs.Manifest.Classification
import AdmissionGuest.Proofs.Policy.Delivery
import AdmissionGuest.Proofs.Policy.Input
import AdmissionGuest.Proofs.Policy.Rejection
import AdmissionGuest.Proofs.Policy.Stages
import AdmissionGuest.Proofs.Policy.Truncation
import AdmissionGuest.Proofs.Probe.Configuration
import AdmissionGuest.Proofs.Probe.Effects
import AdmissionGuest.Proofs.Probe.Settings
import AdmissionGuest.Proofs.Probe.Verdict
import AdmissionGuest.Proofs.Shape.Canonical
import AdmissionGuest.Proofs.Shape.Carried
import AdmissionGuest.Proofs.Shape.Members
import AdmissionGuest.Proofs.Shape.Reading.Embedded
import AdmissionGuest.Proofs.Shape.Reading.Inversion
import AdmissionGuest.Proofs.Shape.Reading.Parts
import AdmissionGuest.Proofs.Shape.Reading.Record
import AdmissionGuest.Proofs.Shape.Rereading
import AdmissionGuest.Proofs.Shape.Skipped
import AdmissionGuest.Proofs.Shape.Tidy
import AdmissionGuest.Proofs.Shape.View
import AdmissionGuest.Proofs.Shape.Written
import AdmissionGuest.Proofs.Text.Utf8
import AdmissionGuest.Shape.Basic
import AdmissionGuest.Shape.Read
import AdmissionGuest.Shape.View
import AdmissionGuest.Text.Blank
import AdmissionGuest.Text.Coded
import AdmissionGuest.Text.Quoted
import AdmissionGuest.Text.Utf8
import AdmissionGuest.Proofs.Manifest.Wrapped
import AdmissionGuest.Proofs.Capability.Answers
import AdmissionGuest.Proofs.Host.Detached
import AdmissionGuest.Proofs.Probe.Unattended
import AdmissionGuest.Proofs.Json.Spelling.Basic
import AdmissionGuest.Proofs.Json.Spelling.Numeral
import AdmissionGuest.Proofs.Json.Spelling.Text
import AdmissionGuest.Proofs.Json.Spelling.Parts
import AdmissionGuest.Proofs.Json.Spelling.Skip
import AdmissionGuest.Proofs.Json.Spelling.Words
import AdmissionGuest.Proofs.Json.Spelling.Complete
import AdmissionGuest.Proofs.Json.Spelling.Uniform
import AdmissionGuest.Proofs.Shape.Reading.Spelled
import AdmissionGuest.Proofs.Shape.Reading.SpelledRecord
import AdmissionGuest.Proofs.Shape.Edit
import AdmissionGuest.Proofs.Admission.Tolerance
import AdmissionGuest.Proofs.Probe.Grammar
import AdmissionGuest.Proofs.Manifest.Aliases
import AdmissionGuest.Proofs.Integer
import AdmissionGuest.Proofs.Dict
import AdmissionGuest.Proofs.Text.Lossy
import AdmissionGuest.Proofs.Host.Failure
import AdmissionGuest.Proofs.Capability.Expiry
import AdmissionGuest.Proofs.Admission.Additions
import AdmissionGuest.Proofs.Text.Blank
import AdmissionGuest.Proofs.Log.Level
import AdmissionGuest.Proofs.Config
import AdmissionGuest.Proofs.Label
