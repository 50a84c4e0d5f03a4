import GovernedRecords.Access.Permission
import GovernedRecords.Auth.Claims
import GovernedRecords.Auth.Guard
import GovernedRecords.Auth.KeyCache
import GovernedRecords.Database.Basic
import GovernedRecords.Database.Calls
import GovernedRecords.Database.Column
import GovernedRecords.Database.Definitions
import GovernedRecords.Database.Drafts
import GovernedRecords.Database.Pool
import GovernedRecords.Database.QueryLog
import GovernedRecords.Database.Records
import GovernedRecords.Database.Statistics
import GovernedRecords.Database.Tables
import GovernedRecords.Definition.Basic
import GovernedRecords.Definition.Check
import GovernedRecords.Definition.Document
import GovernedRecords.Definition.Timestamp
import GovernedRecords.Engine
import GovernedRecords.Environment
import GovernedRecords.Fault
import GovernedRecords.Hash.Sha256
import GovernedRecords.Http.Message
import GovernedRecords.Http.Origin
import GovernedRecords.Http.Preflight
import GovernedRecords.Http.Route
import GovernedRecords.Http.Service
import GovernedRecords.Issue
import GovernedRecords.Json.Canonical
import GovernedRecords.Json.Pieces
import GovernedRecords.Json.Reader
import GovernedRecords.Json.Writer
import GovernedRecords.Keyed
import GovernedRecords.Notice
import GovernedRecords.Number.Double
import GovernedRecords.Number.Numeral
import GovernedRecords.Number.Shortest
import GovernedRecords.Operation
import GovernedRecords.Pipeline.Request
import GovernedRecords.Pipeline.Run
import GovernedRecords.Proofs.Access.Permission
import GovernedRecords.Proofs.Auth.Header
import GovernedRecords.Proofs.Auth.Rotation
import GovernedRecords.Proofs.Database.Statements
import GovernedRecords.Proofs.Database.Transactions
import GovernedRecords.Proofs.Definition.Check
import GovernedRecords.Proofs.Definition.Codec
import GovernedRecords.Proofs.Definition.Grammar
import GovernedRecords.Proofs.Definition.Identity
import GovernedRecords.Proofs.Definition.Plain
import GovernedRecords.Proofs.Definition.Range
import GovernedRecords.Proofs.Engine.Conformance
import GovernedRecords.Proofs.Engine.Creators
import GovernedRecords.Proofs.Engine.DryRun
import GovernedRecords.Proofs.Engine.Ownership
import GovernedRecords.Proofs.Engine.Prediction
import GovernedRecords.Proofs.Engine.Refinement
import GovernedRecords.Proofs.Engine.Refusals
import GovernedRecords.Proofs.Engine.Runs
import GovernedRecords.Proofs.Engine.Uniqueness
import GovernedRecords.Proofs.Entries
import GovernedRecords.Proofs.Http.Administrators
import GovernedRecords.Proofs.Http.Arrivals
import GovernedRecords.Proofs.Http.Errors
import GovernedRecords.Proofs.Http.Publication
import GovernedRecords.Proofs.Json.Canonical
import GovernedRecords.Proofs.Json.Pieces
import GovernedRecords.Proofs.Json.RoundTrip
import GovernedRecords.Proofs.Json.Sameness
import GovernedRecords.Proofs.Json.Sendable
import GovernedRecords.Proofs.Json.Strings
import GovernedRecords.Proofs.Json.Unambiguous
import GovernedRecords.Proofs.Keyed
import GovernedRecords.Proofs.Number.Difference
import GovernedRecords.Proofs.Number.Numerals
import GovernedRecords.Proofs.Number.Overflow
import GovernedRecords.Proofs.Number.Rounding
import GovernedRecords.Proofs.Number.Shortest
import GovernedRecords.Proofs.Operation
import GovernedRecords.Proofs.Pipeline.Answers
import GovernedRecords.Proofs.Pipeline.Denials
import GovernedRecords.Proofs.Pipeline.Discipline
import GovernedRecords.Proofs.Pipeline.Passage
import GovernedRecords.Proofs.Pipeline.Readings
import GovernedRecords.Proofs.Pipeline.Values
import GovernedRecords.Proofs.Records.Listing
import GovernedRecords.Proofs.Records.Memory
import GovernedRecords.Proofs.Records.Reachable
import GovernedRecords.Proofs.Registry.Amendments
import GovernedRecords.Proofs.Registry.Calls
import GovernedRecords.Proofs.Registry.Changes
import GovernedRecords.Proofs.Registry.Coherence
import GovernedRecords.Proofs.Registry.Corruption
import GovernedRecords.Proofs.Registry.History
import GovernedRecords.Proofs.Registry.LastSaves
import GovernedRecords.Proofs.Registry.Outcomes
import GovernedRecords.Proofs.Registry.Turns
import GovernedRecords.Proofs.Registry.Validity
import GovernedRecords.Proofs.Registry.Versions
import GovernedRecords.Proofs.Registry.Writes
import GovernedRecords.Proofs.Schema.Columns
import GovernedRecords.Proofs.Schema.Statement
import GovernedRecords.Proofs.Schema.Tokens
import GovernedRecords.Proofs.Store.Agreement
import GovernedRecords.Proofs.Store.Directory
import GovernedRecords.Proofs.Store.Lawful
import GovernedRecords.Proofs.Store.Replacement
import GovernedRecords.Proofs.Text.Digits
import GovernedRecords.Proofs.Text.Order
import GovernedRecords.Proofs.Text.Plain
import GovernedRecords.Proofs.Text.Utf8
import GovernedRecords.Proofs.Time.Calendar
import GovernedRecords.Proofs.Time.Legibility
import GovernedRecords.Proofs.Time.Order
import GovernedRecords.Proofs.Time.Stamp
import GovernedRecords.Proofs.Validation.Defaults
import GovernedRecords.Proofs.Validation.Fieldwise
import GovernedRecords.Proofs.Validation.Limits
import GovernedRecords.Proofs.Validation.Payload
import GovernedRecords.Proofs.Validation.Stability
import GovernedRecords.Proofs.Value.Equality
import GovernedRecords.Registry.Basic
import GovernedRecords.Registry.Named
import GovernedRecords.Schema.Table
import GovernedRecords.Store.Calls
import GovernedRecords.Store.Definitions
import GovernedRecords.Store.Directory
import GovernedRecords.Store.Drafts
import GovernedRecords.Store.Observed
import GovernedRecords.Store.Records
import GovernedRecords.Text.Basic
import GovernedRecords.Text.Blank
import GovernedRecords.Text.DecimalDigit
import GovernedRecords.Text.LowerCase
import GovernedRecords.Text.Order
import GovernedRecords.Text.Printable
import GovernedRecords.Text.Quoted
import GovernedRecords.Text.Utf8
import GovernedRecords.Text.WideUnits
import GovernedRecords.Time.Calendar
import GovernedRecords.Time.Instant
import GovernedRecords.Time.IsoText
import GovernedRecords.Validation.Coercion
import GovernedRecords.Validation.Payload
import GovernedRecords.Value.Arithmetic
import GovernedRecords.Value.Basic
import GovernedRecords.Value.Copy
import GovernedRecords.Value.Display
import GovernedRecords.Value.Equality
import GovernedRecords.Value.Members
