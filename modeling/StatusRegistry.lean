import StatusRegistry.Http.Server
import StatusRegistry.Main
import StatusRegistry.Proofs.Calendar
import StatusRegistry.Proofs.Text.Digits
import StatusRegistry.Proofs.Text.Utf8
import StatusRegistry.Proofs.Instant
import StatusRegistry.Proofs.Json.Record
import StatusRegistry.Proofs.Uuid
import StatusRegistry.Proofs.Status
import StatusRegistry.Proofs.Operation
import StatusRegistry.Proofs.Course
import StatusRegistry.Proofs.Store
import StatusRegistry.Proofs.Traffic
import StatusRegistry.Proofs.Cache
import StatusRegistry.Proofs.Surroundings
import StatusRegistry.Proofs.Coherence
import StatusRegistry.Proofs.Coherence.Sequential
import StatusRegistry.Proofs.Coherence.Concurrent
import StatusRegistry.Proofs.Listing
import StatusRegistry.Proofs.History
import StatusRegistry.Proofs.Ownership
import StatusRegistry.Proofs.Faults
import StatusRegistry.Proofs.Coherence.Versions
import StatusRegistry.Proofs.Conversation
import StatusRegistry.Proofs.Http.Plans
import StatusRegistry.Proofs.Http.Standing
import StatusRegistry.Proofs.Http.Traces
import StatusRegistry.Proofs.Authentication
import StatusRegistry.Proofs.Http.Authorization
import StatusRegistry.Proofs.Documents
import StatusRegistry.Proofs.Tokens.Lifecycle
import StatusRegistry.Proofs.Settings.Summary
import StatusRegistry.Proofs.Cache.Recency
import StatusRegistry.Proofs.Contest
import StatusRegistry.Proofs.Search
import StatusRegistry.Proofs.Text.Form
import StatusRegistry.Proofs.Text.Integer
import StatusRegistry.Proofs.Query
import StatusRegistry.Proofs.Json.Grammar
import StatusRegistry.Proofs.Json.Passing
import StatusRegistry.Proofs.Json.Nesting
import StatusRegistry.Proofs.Json.Tokens
import StatusRegistry.Proofs.Json.Objects
import StatusRegistry.Proofs.Json.Decoding
import StatusRegistry.Proofs.Bodies
import StatusRegistry.Proofs.Edit
import StatusRegistry.Proofs.WellFormed
import StatusRegistry.Proofs.Cache.Influence
import StatusRegistry.Proofs.Cache.Upkeep
import StatusRegistry.Proofs.Page.Overflow
import StatusRegistry.Proofs.Session.Hits
import StatusRegistry.Proofs.Http.Spelling
import StatusRegistry.Proofs.Store.Texts
import StatusRegistry.Proofs.Counters
import StatusRegistry.Proofs.Http.Pace
import StatusRegistry.Proofs.Http.Isolation
import StatusRegistry.Proofs.Http.Limits
import StatusRegistry.Proofs.Http.Sustained
import StatusRegistry.Proofs.Http.Concealment
import StatusRegistry.Proofs.Settings.Acceptance
