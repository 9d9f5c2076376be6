import ChunkStore.Boundary.Call
import ChunkStore.Boundary.State
import ChunkStore.Boundary.Text
import ChunkStore.Chunk
import ChunkStore.Chunk.Json
import ChunkStore.Config.Basic
import ChunkStore.Config.Decode
import ChunkStore.Config.Environment
import ChunkStore.Config.Toml.Reader
import ChunkStore.Config.Toml.Scalar
import ChunkStore.Config.Toml.Tree
import ChunkStore.Config.Value
import ChunkStore.Database.Basic
import ChunkStore.Database.OnEngine
import ChunkStore.Database.OnScript
import ChunkStore.Dict
import ChunkStore.Disk.Basic
import ChunkStore.Disk.Files
import ChunkStore.Disk.IndexFiles
import ChunkStore.Disk.Path
import ChunkStore.Document
import ChunkStore.Engine.Basic
import ChunkStore.Engine.Changing
import ChunkStore.Engine.Opening
import ChunkStore.Engine.Saving
import ChunkStore.Engine.Searching
import ChunkStore.Failure
import ChunkStore.Index.Contents
import ChunkStore.Index.Manifest
import ChunkStore.Index.Record
import ChunkStore.Json.Basic
import ChunkStore.Json.Decode
import ChunkStore.Json.Escape
import ChunkStore.Json.Number
import ChunkStore.Json.Reader
import ChunkStore.Json.Writer
import ChunkStore.Metadata.Constraint
import ChunkStore.Metadata.Json
import ChunkStore.Metadata.Kind
import ChunkStore.Metadata.Value
import ChunkStore.Number.Binary32
import ChunkStore.Number.Binary64
import ChunkStore.Number.Numeral
import ChunkStore.Number.Shortest
import ChunkStore.Proofs.Boundary.Accessors
import ChunkStore.Proofs.Boundary.Arguments
import ChunkStore.Proofs.Boundary.Building
import ChunkStore.Proofs.Boundary.Consumption
import ChunkStore.Proofs.Boundary.Effects
import ChunkStore.Proofs.Boundary.ErrorChannel
import ChunkStore.Proofs.Boundary.FailureKinds
import ChunkStore.Proofs.Boundary.Fidelity
import ChunkStore.Proofs.Boundary.HandingOut
import ChunkStore.Proofs.Boundary.Lineage
import ChunkStore.Proofs.Boundary.Messages
import ChunkStore.Proofs.Boundary.Runs
import ChunkStore.Proofs.Boundary.Staging
import ChunkStore.Proofs.Boundary.Texts
import ChunkStore.Proofs.Chunk.PublicForm
import ChunkStore.Proofs.Config.Documents
import ChunkStore.Proofs.Config.Fallback
import ChunkStore.Proofs.Database.BestHits
import ChunkStore.Proofs.Disk.Directories
import ChunkStore.Proofs.Disk.FailedDirectories
import ChunkStore.Proofs.Disk.IndexFiles
import ChunkStore.Proofs.Engine.Alike
import ChunkStore.Proofs.Engine.Calls
import ChunkStore.Proofs.Engine.Changing
import ChunkStore.Proofs.Engine.Committed
import ChunkStore.Proofs.Engine.Copies
import ChunkStore.Proofs.Engine.Deleting
import ChunkStore.Proofs.Engine.Descriptions
import ChunkStore.Proofs.Engine.DocumentIndependence
import ChunkStore.Proofs.Engine.FailedOpening
import ChunkStore.Proofs.Engine.FailedSaving
import ChunkStore.Proofs.Engine.Findable
import ChunkStore.Proofs.Engine.History
import ChunkStore.Proofs.Engine.Independence
import ChunkStore.Proofs.Engine.Inserting
import ChunkStore.Proofs.Engine.Journal
import ChunkStore.Proofs.Engine.LastIds
import ChunkStore.Proofs.Engine.Laws
import ChunkStore.Proofs.Engine.Leftovers
import ChunkStore.Proofs.Engine.LocalCalls
import ChunkStore.Proofs.Engine.Opening
import ChunkStore.Proofs.Engine.Reachable
import ChunkStore.Proofs.Engine.Reopening
import ChunkStore.Proofs.Engine.Saving
import ChunkStore.Proofs.Engine.Scanning
import ChunkStore.Proofs.Engine.Searching
import ChunkStore.Proofs.Engine.Sharing
import ChunkStore.Proofs.Engine.Stored
import ChunkStore.Proofs.Engine.Waiting
import ChunkStore.Proofs.Index.Agreement
import ChunkStore.Proofs.Index.Changes
import ChunkStore.Proofs.Index.Deletions
import ChunkStore.Proofs.Index.Documents
import ChunkStore.Proofs.Index.Insertions
import ChunkStore.Proofs.Index.Listing
import ChunkStore.Proofs.Index.ManifestText
import ChunkStore.Proofs.Index.Records
import ChunkStore.Proofs.Index.Schemas
import ChunkStore.Proofs.Index.StoredChunk
import ChunkStore.Proofs.Index.Versions
import ChunkStore.Proofs.Json.Decoding
import ChunkStore.Proofs.Json.Floats
import ChunkStore.Proofs.Json.Reading
import ChunkStore.Proofs.Json.Scaling
import ChunkStore.Proofs.Metadata.Comparison
import ChunkStore.Proofs.Number.Arithmetic
import ChunkStore.Proofs.Number.DoubleOrder
import ChunkStore.Proofs.Number.Rounding
import ChunkStore.Proofs.Number.ScoreOrder
import ChunkStore.Proofs.Number.ShortestDecimal
import ChunkStore.Proofs.Query.Words
import ChunkStore.Proofs.Text.ByteOrder
import ChunkStore.Proofs.Text.Runs
import ChunkStore.Proofs.Text.StopWords
import ChunkStore.Proofs.Workspace.FailedCalls
import ChunkStore.Proofs.Workspace.FailedSaving
import ChunkStore.Proofs.Workspace.Occupancy
import ChunkStore.Proofs.Workspace.Reading
import ChunkStore.Proofs.Workspace.Runs
import ChunkStore.Proofs.Workspace.Surfaces
import ChunkStore.Query.Expression
import ChunkStore.Query.Parser
import ChunkStore.Query.Plan
import ChunkStore.Query.Ranking
import ChunkStore.Settings
import ChunkStore.Text.Alphanumeric
import ChunkStore.Text.Blank
import ChunkStore.Text.Hidden
import ChunkStore.Text.Lowercase
import ChunkStore.Text.Scan
import ChunkStore.Text.Shown
import ChunkStore.Text.Split
import ChunkStore.Text.Token
import ChunkStore.Workspace
import ChunkStore.Workspace.Reading
