import LogForwarder.Generation.Registry
import LogForwarder.Json
import LogForwarder.Main
import LogForwarder.Program.Settings
import LogForwarder.Workload.ApiObject
import LogForwarder.Proofs.Except
import LogForwarder.Proofs.Schema.Canonical
import LogForwarder.Proofs.Schema.ReadBack
import LogForwarder.Proofs.Value.Record
import LogForwarder.Proofs.Workload.RoundTrip
import LogForwarder.Proofs.Workload.Envelope
import LogForwarder.Proofs.Generation.Pipeline
import LogForwarder.Proofs.Generation.Steps
import LogForwarder.Proofs.Generation.Tables
import LogForwarder.Proofs.Generation.Accounts
import LogForwarder.Proofs.Generation.ForwarderPod
import LogForwarder.Proofs.Generation.Resources
import LogForwarder.Proofs.Generation.Agreement
import LogForwarder.Proofs.Generation.SecretAccess
import LogForwarder.Proofs.Generation.Environment
import LogForwarder.Proofs.Cluster.Identifier
import LogForwarder.Proofs.Cluster.Grammar
import LogForwarder.Proofs.Cluster.Pattern
import LogForwarder.Proofs.Cluster.Draft
import LogForwarder.Proofs.Generation.CollectionNames
import LogForwarder.Proofs.Generation.PodSelection
import LogForwarder.Proofs.Generation.Ownership
import LogForwarder.Proofs.Generation.Guards
import LogForwarder.Proofs.Generation.Disclosure
import LogForwarder.Proofs.Generation.ForwarderNames
import LogForwarder.Proofs.Generation.Membership
import LogForwarder.Proofs.Number.Numeral
import LogForwarder.Proofs.Yaml.Scalar
import LogForwarder.Proofs.Yaml.Char
import LogForwarder.Proofs.Yaml.Plain
import LogForwarder.Proofs.Yaml.Quoted
import LogForwarder.Proofs.Yaml.Block
import LogForwarder.Proofs.Yaml.Lexer
import LogForwarder.Proofs.Yaml.Entry
import LogForwarder.Proofs.Yaml.ScalarTokens
import LogForwarder.Proofs.Yaml.Written
import LogForwarder.Proofs.Yaml.Layout
import LogForwarder.Proofs.Yaml.Nodes
import LogForwarder.Proofs.Yaml.Values
import LogForwarder.Proofs.Schema.Written
import LogForwarder.Proofs.Schema.Entries
import LogForwarder.Proofs.Generation.Offline
import LogForwarder.Proofs.Generation.Printed
import LogForwarder.Proofs.Workload.Manifest
import LogForwarder.Proofs.Workload.EnvelopeFirst
import LogForwarder.Proofs.Program.Generate
import LogForwarder.Proofs.Generation.Defaults
import LogForwarder.Proofs.Generation.Stored
import LogForwarder.Proofs.Workload.Requirements
import LogForwarder.Proofs.Schema.Unknown
import LogForwarder.Proofs.Workload.Unknown
import LogForwarder.Proofs.Workload.Names
import LogForwarder.Proofs.Number.Literal
import LogForwarder.Proofs.Generation.Coercion
import LogForwarder.Proofs.Schema.Conformance
import LogForwarder.Proofs.Schema.Exactness
import LogForwarder.Proofs.Workload.Conformance
import LogForwarder.Proofs.Schema.Place
import LogForwarder.Proofs.Schema.NodePlace
import LogForwarder.Proofs.Yaml.Integer
import LogForwarder.Proofs.Workload.Interval
import LogForwarder.Proofs.Generation.Interval
