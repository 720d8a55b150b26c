import PostsMedia.Library.Machine
import PostsMedia.Library.Lease
import PostsMedia.Library.Clock
import PostsMedia.Library.Segments
import PostsMedia.Domain.Basic
import PostsMedia.Storage.ObjectKey
import PostsMedia.Media.Row
import PostsMedia.Media.Variant
import PostsMedia.Queues.Dispatch
import PostsMedia.Queues.Jobs
import PostsMedia.Queues.Outbox
import PostsMedia.Media.Repository
import PostsMedia.Posts.Transactions
import PostsMedia.Domain.Number
import PostsMedia.Domain.Text
import PostsMedia.Library.Pages
import PostsMedia.Posts.Pagination
import PostsMedia.Posts.Updates
import PostsMedia.Idempotency.Record
import PostsMedia.Idempotency.Service
import PostsMedia.Idempotency.Effects
import PostsMedia.Idempotency.Soundness
import PostsMedia.Idempotency.Fencing
import PostsMedia.Posts.Calls
import PostsMedia.Posts.AtMostOnce
import PostsMedia.Idempotency.Permanence
import PostsMedia.Idempotency.Exclusion
import PostsMedia.Posts.Coupling
import PostsMedia.Processing.Claims
import PostsMedia.Processing.RowMachine
import PostsMedia.Processing.Fencing
import PostsMedia.Media.RetryCalls
import PostsMedia.Processing.Artifacts
import PostsMedia.Processing.Orchestrator
import PostsMedia.Processing.Statements
import PostsMedia.Processing.Coherence
import PostsMedia.Processing.Completion
import PostsMedia.Processing.Keys
import PostsMedia.Processing.Publication
import PostsMedia.Storage.Store
import PostsMedia.Processing.Publishing
import PostsMedia.Processing.Delivery
import PostsMedia.Processing.Turns
import PostsMedia.Processing.Stranding
import PostsMedia.Processing.Recovery
import PostsMedia.Processing.Refinement
import PostsMedia.Posts.Promotion
import PostsMedia.Posts.Originals
import PostsMedia.Queues.Effects
import PostsMedia.Queues.Lifecycle
import PostsMedia.Processing.Finality
import PostsMedia.Platform.Agreement
import PostsMedia.Platform.Changes
import PostsMedia.Platform.Effects
import PostsMedia.Platform.Generations
import PostsMedia.Posts.Compensation
import PostsMedia.Processing.Release
import PostsMedia.Posts.SortOrder
import PostsMedia.Posts.Deletion
import PostsMedia.Idempotency.Races
import PostsMedia.Idempotency.Binding
import PostsMedia.Posts.Replay
import PostsMedia.Library.Doubles
import PostsMedia.Video.Renditions
import PostsMedia.Video.Frames
import PostsMedia.Domain.Value
import PostsMedia.Validation.Policy
import PostsMedia.Validation.Signature
import PostsMedia.Validation.Inspection
import PostsMedia.Validation.Files
import PostsMedia.Validation.Codes
import PostsMedia.Validation.Accepted
import PostsMedia.Validation.Limits
import PostsMedia.Validation.Normal
import PostsMedia.Validation.Soundness
import PostsMedia.Validation.Fingerprint
import PostsMedia.Posts.PartialSuccess
import PostsMedia.Posts.Exits
import PostsMedia.Processing.Retries
import PostsMedia.Processing.Attempts
import PostsMedia.Library.Quotients
import PostsMedia.Video.Ladder
import PostsMedia.Video.Balance
import PostsMedia.Library.Vints
import PostsMedia.Validation.Ebml
import PostsMedia.Library.Trials
import PostsMedia.Validation.Magic
import PostsMedia.Validation.Tables
import PostsMedia.Library.Utf8
import PostsMedia.Domain.Json
import PostsMedia.Tools.Ffprobe
import PostsMedia.Queues.Runs
import PostsMedia.Library.Memo
import PostsMedia.Processing.Heartbeat
import PostsMedia.Library.Paths
import PostsMedia.Domain.Path
import PostsMedia.Processing.Workspaces
import PostsMedia.Validation.Durations
import PostsMedia.Library.Supervision
import PostsMedia.Tools.Ffmpeg
import PostsMedia.Tools.Probing
import PostsMedia.Validation.Probing
import PostsMedia.Processing.Shutdown
import PostsMedia.Processing.Promptness
import PostsMedia.Processing.Consumers
import PostsMedia.Library.Calls
import PostsMedia.Processing.Handlers
import PostsMedia.Media.Presenter
import PostsMedia.Posts.Presenter
import PostsMedia.Platform.Presentation
import PostsMedia.Posts.UploadSweep
import PostsMedia.Library.Renewal
import PostsMedia.Processing.Renewals
import PostsMedia.Processing.Freshness
import PostsMedia.Domain.Decimal
import PostsMedia.Library.Fields
import PostsMedia.Configuration.Environment
import PostsMedia.Configuration.Schema
import PostsMedia.Configuration.Deployment
import PostsMedia.Queues.Backoff
import PostsMedia.Queues.Drain
import PostsMedia.Library.Tenants
import PostsMedia.Media.Access
import PostsMedia.Storage.Tenants
import PostsMedia.Storage.Traffic
import PostsMedia.Processing.Continuation
import PostsMedia.Processing.Completable
