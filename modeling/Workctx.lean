import Workctx.Ledger.Verify
import Workctx.Staging.Window
import Workctx.Engine.Appends
import Workctx.Topics.Folding
import Workctx.Topics.Readers
import Workctx.Drafting.Delivered
import Workctx.Suggestions.Runs
import Workctx.Evidence.Lossless
import Workctx.Ingestion.Duplicates
import Workctx.Ingestion.Preservation
import Workctx.Ingestion.Batch
import Workctx.Adapters.Survival
import Workctx.Installs.Atomicity
import Workctx.Leases.Adapter
import Workctx.Leases.Fencing
import Workctx.Domain.Claims
import Workctx.Migration.Agreement
import Workctx.Owners.Compile
import Workctx.Owners.Uniqueness
import Workctx.Owners.Building
import Workctx.Graph.Edges
import Workctx.Graph.Probe
import Workctx.Graph.Indexed
import Workctx.Validation.Cycles
import Workctx.Validation.Overlaps
import Workctx.Retrieval.Order
import Workctx.References.RoundTrip
import Workctx.Topics.Review
import Workctx.Projection.Shortest
import Workctx.Retrieval.Truncation
import Workctx.Secrets.Gate
import Workctx.Engine.Collisions
import Workctx.Projection.Interference
import Workctx.Concurrent.Returns
import Workctx.Durable.Keeps
import Workctx.Engine.Recovery
import Workctx.Evidence.Relations
import Workctx.Projection.Fingerprint
import Workctx.Serialization.Canonical
import Workctx.Serialization.Markdown
import Workctx.Graph.Sifting
import Workctx.Migration.Grants
import Workctx.Migration.Stability
import Workctx.Ingestion.Destinations
import Workctx.Ingestion.Scanning
import Workctx.Ingestion.Sights
import Workctx.Adapters.Authority
import Workctx.Adapters.Commitment
import Workctx.Checkpoints.Service
import Workctx.Checkpoints.Successors
import Workctx.Checkpoints.Verdicts
import Workctx.Connectors.Models
import Workctx.Connectors.Origin
import Workctx.Durable.Slots
import Workctx.Migration.Inventory
import Workctx.Migration.Skips
import Workctx.Secrets.Dotenv
import Workctx.Secrets.Importing
import Workctx.Usage.Evaluation
import Workctx.Usage.Retained
import Workctx.Ledger.Encoding
import Workctx.Validation.AbsolutePaths
import Workctx.Engine.History
import Workctx.Locking.Overtaking
