import Rpy.Basic
import Rpy.Foundation.Machine
import Rpy.Foundation.Table
import Rpy.Foundation.Json
import Rpy.Queue.Keys
import Rpy.Queue.Jobs
import Rpy.Worker.Fencing
import Rpy.Worker.Loops
import Rpy.Foundation.JsonText
import Rpy.Foundation.Sha256
import Rpy.Foundation.Numerals
import Rpy.Foundation.JsonParse
import Rpy.Foundation.JsonFloat
import Rpy.Foundation.JsonGrammar
import Rpy.Foundation.JsonReading
import Rpy.Foundation.JsonWriter
import Rpy.Foundation.JsonSame
import Rpy.Foundation.PyJson
import Rpy.Foundation.PyJsonGrammar
import Rpy.Foundation.PyJsonReading
import Rpy.Foundation.PyJsonOfJson
import Rpy.JsonUtils
import Rpy.Platform
import Rpy.Processes.Semantics
import Rpy.Processes.Finalize
import Rpy.Foundation.Raising
import Rpy.Processes.NewestWins
import Rpy.Foundation.JsonKeys
import Rpy.Processes.RoundTrip
import Rpy.Processes.Staging
import Rpy.Processes.Immutability
import Rpy.Queue.Evolution
import Rpy.Judit.Webhook
import Rpy.Judit.Orphans
import Rpy.Judit.Grants
import Rpy.Lifecycle.PublicRequests
import Rpy.Lifecycle.Acquisitions
import Rpy.Lifecycle.Archive
import Rpy.Lifecycle.Topology
import Rpy.Lifecycle.Pipeline
import Rpy.Lifecycle.Transactions
import Rpy.Lifecycle.WellFormed
import Rpy.Lifecycle.NoStranded
import Rpy.Lifecycle.PaidCalls
import Rpy.Trackings.Tables
import Rpy.Trackings.Scheduling
import Rpy.Trackings.Transactions
import Rpy.Trackings.Refreshes
import Rpy.Trackings.Evolution
import Rpy.Trackings.Leaks
import Rpy.Trackings.Persistence
import Rpy.Lifecycle.NoDeadCnj
import Rpy.Queue.Ledger
import Rpy.Queue.Tickets
import Rpy.Lifecycle.Terminals
import Rpy.DataJud.Merge
import Rpy.DataJud.Conservative
import Rpy.DataJud.Provenance
import Rpy.DataJud.Codec
import Rpy.DataJud.Finalizers
import Rpy.Tenancy.Portfolio
import Rpy.Tenancy.Justified
import Rpy.Tenancy.RateLimit
import Rpy.Tenancy.Listing
import Rpy.Foundation.Effects
import Rpy.Foundation.SqlLogic
import Rpy.Foundation.Shortlist
import Rpy.Foundation.Tiling
import Rpy.Foundation.Sharing
import Rpy.Foundation.Runs
import Rpy.Foundation.Envelope
import Rpy.Retrieval.Eligibility
import Rpy.Retrieval.Embeddings
import Rpy.Retrieval.Selection
import Rpy.Retrieval.Generation
import Rpy.Retrieval.OnlyEligible
import Rpy.Retrieval.Mandatory
import Rpy.Retrieval.Optimality
import Rpy.Retrieval.TopK
import Rpy.Retrieval.Budget
import Rpy.Retrieval.ModelView
import Rpy.Foundation.Assoc
import Rpy.Foundation.JsonEquality
import Rpy.Foundation.Regex
import Rpy.Foundation.Occurrence
import Rpy.Foundation.Nesting
import Rpy.Foundation.Redaction
import Rpy.Foundation.Base64
import Rpy.Summaries.Prose
import Rpy.Summaries.Output
import Rpy.Summaries.Reparse
import Rpy.Summaries.Evidence
import Rpy.Summaries.Facts
import Rpy.Summaries.Verification
import Rpy.Summaries.Guarantee
import Rpy.Summaries.Rendering
import Rpy.Summaries.Headings
import Rpy.Summaries.Structure
import Rpy.Summaries.Checks
import Rpy.Attachments.Sandbox
import Rpy.Attachments.Protocol
import Rpy.Attachments.Chunks
import Rpy.Attachments.Ready
import Rpy.Publication.Gates
import Rpy.Publication.Tables
import Rpy.Publication.Responses
import Rpy.Publication.Agreement
import Rpy.Publication.Restricted
import Rpy.Summaries.Prompt
import Rpy.Foundation.Chains
import Rpy.Foundation.JsonPlain
import Rpy.Foundation.LineSearch
import Rpy.Foundation.FixedForm
import Rpy.Judit.Cnj
import Rpy.Lifecycle.Idempotency
import Rpy.Summaries.Validation
import Rpy.Summaries.Identifiers
import Rpy.Summaries.Words
import Rpy.Summaries.Labelled
import Rpy.Summaries.Tags
import Rpy.Summaries.OwnLines
import Rpy.Summaries.PlainLines
import Rpy.Egress.Confinement
import Rpy.Judit.Documents
import Rpy.Inbound.BodyLimit
import Rpy.Queue.LogSafety
import Rpy.Finalization.Retry
import Rpy.Foundation.Distinct
import Rpy.Publication.Persist
import Rpy.Publication.Stored
import Rpy.Publication.Verdicts
import Rpy.Publication.Monotone
import Rpy.Foundation.Keyset
import Rpy.Retrieval.Filling
import Rpy.Retrieval.Reindex
import Rpy.Migrations.Ledger
import Rpy.Migrations.Concurrent
import Rpy.Tenancy.Boundary
import Rpy.Judit.Replay
