import JsonDecoding.Assoc
import JsonDecoding.Attempt
import JsonDecoding.Calendar.Date
import JsonDecoding.Calendar.Iso
import JsonDecoding.Calendar.Moment
import JsonDecoding.Calendar.Stamp
import JsonDecoding.Concern
import JsonDecoding.Data
import JsonDecoding.Data.Clash
import JsonDecoding.Data.Hash
import JsonDecoding.Data.Order
import JsonDecoding.Data.Sets
import JsonDecoding.Data.Shown
import JsonDecoding.DecodeError
import JsonDecoding.Decoder
import JsonDecoding.Fault
import JsonDecoding.Json
import JsonDecoding.Json.Access
import JsonDecoding.Json.Reader
import JsonDecoding.Json.Render
import JsonDecoding.Json.Scanner
import JsonDecoding.Json.SyntaxError
import JsonDecoding.Location
import JsonDecoding.Log
import JsonDecoding.Models.Completion
import JsonDecoding.Models.Conform
import JsonDecoding.Models.Declared
import JsonDecoding.Models.Family
import JsonDecoding.Models.Flaw
import JsonDecoding.Models.Issue
import JsonDecoding.Models.Match
import JsonDecoding.Models.Scalar
import JsonDecoding.Number.Binary64
import JsonDecoding.Number.Decimal
import JsonDecoding.Number.Numeral
import JsonDecoding.Number.Shortest
import JsonDecoding.Parser
import JsonDecoding.Proofs.Alike
import JsonDecoding.Proofs.Arity
import JsonDecoding.Proofs.ArraySchemas
import JsonDecoding.Proofs.Arrivals
import JsonDecoding.Proofs.BareContainers
import JsonDecoding.Proofs.Brackets
import JsonDecoding.Proofs.Choice
import JsonDecoding.Proofs.Closed
import JsonDecoding.Proofs.Coercions
import JsonDecoding.Proofs.Collecting
import JsonDecoding.Proofs.Conclusions
import JsonDecoding.Proofs.Containers
import JsonDecoding.Proofs.Containment
import JsonDecoding.Proofs.Course
import JsonDecoding.Proofs.Describable
import JsonDecoding.Proofs.Diagnostics
import JsonDecoding.Proofs.EqualData
import JsonDecoding.Proofs.Equality
import JsonDecoding.Proofs.FailureRecords
import JsonDecoding.Proofs.Failures
import JsonDecoding.Proofs.Flaws
import JsonDecoding.Proofs.Hashable
import JsonDecoding.Proofs.History
import JsonDecoding.Proofs.Identities
import JsonDecoding.Proofs.Infinities
import JsonDecoding.Proofs.Isolation
import JsonDecoding.Proofs.KeyOrder
import JsonDecoding.Proofs.Layout
import JsonDecoding.Proofs.Lines
import JsonDecoding.Proofs.Lossless
import JsonDecoding.Proofs.Meanings
import JsonDecoding.Proofs.Membership
import JsonDecoding.Proofs.Mentions
import JsonDecoding.Proofs.Merging
import JsonDecoding.Proofs.ModelFields
import JsonDecoding.Proofs.NativeWarnings
import JsonDecoding.Proofs.Outcomes
import JsonDecoding.Proofs.Overflow
import JsonDecoding.Proofs.Overwriting
import JsonDecoding.Proofs.OwnKeys
import JsonDecoding.Proofs.Places
import JsonDecoding.Proofs.Precedence
import JsonDecoding.Proofs.Procedures
import JsonDecoding.Proofs.Reading
import JsonDecoding.Proofs.Recipe
import JsonDecoding.Proofs.RecordFields
import JsonDecoding.Proofs.Regrouping
import JsonDecoding.Proofs.Reordering
import JsonDecoding.Proofs.Reports
import JsonDecoding.Proofs.Restraint
import JsonDecoding.Proofs.Reuse
import JsonDecoding.Proofs.Room
import JsonDecoding.Proofs.RoundTrip
import JsonDecoding.Proofs.Rounding
import JsonDecoding.Proofs.Safety
import JsonDecoding.Proofs.Scanning
import JsonDecoding.Proofs.SharedKeys
import JsonDecoding.Proofs.Slots
import JsonDecoding.Proofs.Source
import JsonDecoding.Proofs.Strings
import JsonDecoding.Proofs.Subspecs
import JsonDecoding.Proofs.Termination
import JsonDecoding.Proofs.Texts
import JsonDecoding.Proofs.Walk
import JsonDecoding.Registry
import JsonDecoding.Schema
import JsonDecoding.Schema.Class
import JsonDecoding.Schema.Keys
import JsonDecoding.Schema.Model
import JsonDecoding.Schema.Record
import JsonDecoding.Schema.Rule
import JsonDecoding.Schema.Standard
import JsonDecoding.Spec
import JsonDecoding.Spec.Coercion
import JsonDecoding.Spec.Comparison
import JsonDecoding.Spec.Construction
import JsonDecoding.Spec.Description
import JsonDecoding.Spec.Expression
import JsonDecoding.Spec.Kind
import JsonDecoding.Spec.Misuse
import JsonDecoding.Spec.Names
import JsonDecoding.Spec.Operation
import JsonDecoding.Spec.Operator
import JsonDecoding.Spec.Scope
import JsonDecoding.Spec.Shown
import JsonDecoding.Spec.Token
import JsonDecoding.Spec.Union
import JsonDecoding.Spec.Written
import JsonDecoding.Text
import JsonDecoding.Text.Classes
import JsonDecoding.Text.Names
import JsonDecoding.Text.Printable
import JsonDecoding.Text.Quoted
import JsonDecoding.Text.Utf8
import JsonDecoding.Uuid
import JsonDecoding.Uuid.Forms
