import RustUma.Found.Run
import RustUma.Found.Ring
import RustUma.Found.Records
import RustUma.Found.Channel
import RustUma.Found.Reach
import RustUma.Found.Files
import RustUma.Found.Reader
import RustUma.Found.Hex
import RustUma.Found.Text
import RustUma.Found.Abi
import RustUma.Found.Transfer
import RustUma.Found.History
import RustUma.Found.Calendar
import RustUma.Found.Census
import RustUma.Found.Csv
import RustUma.Found.Drain
import RustUma.Found.Fallible
import RustUma.Found.Json
import RustUma.Found.Paging
import RustUma.Found.StableSort
import RustUma.Found.Table
import RustUma.Found.Tiles
import RustUma.Found.Wire
import RustUma.Model.Event
import RustUma.Model.Wire
import RustUma.Model.Protobuf
import RustUma.Model.Projection
import RustUma.Hub.FrameHub
import RustUma.Hub.EventHub
import RustUma.Pipeline.Processor
import RustUma.Pipeline.Admission
import RustUma.Pipeline.Batcher
import RustUma.Pipeline.Grouping
import RustUma.Storage.Journal
import RustUma.Storage.TornTail
import RustUma.Storage.Writer
import RustUma.Storage.CatalogFile
import RustUma.Storage.Rewrite
import RustUma.Storage.CatalogReplace
import RustUma.Api.Session
import RustUma.Api.Stream
import RustUma.Service.Machine
import RustUma.Service.ExactlyOnce
import RustUma.Service.Order
import RustUma.Service.Delivery
import RustUma.Service.Reorg
import RustUma.Service.Restart
import RustUma.Service.ReplayFloor
import RustUma.Service.Progress
import RustUma.Service.Blocking
import RustUma.Service.Recovery
import RustUma.Service.WalBound
import RustUma.Service.Compaction
import RustUma.Forfeit.Blocklist
import RustUma.Forfeit.Tasks
import RustUma.Forfeit.Agreement
import RustUma.Forfeit.Union
import RustUma.Forfeit.Expiry
import RustUma.Rpc.Walk
import RustUma.Rpc.Ingest
import RustUma.Rpc.Cursor
import RustUma.Rpc.GapFill
import RustUma.Rpc.Connected
import RustUma.Rpc.Windows
import RustUma.Rpc.FirstBlock
import RustUma.Edge.Frame
import RustUma.Edge.Resume
import RustUma.Edge.Auth
import RustUma.Edge.Hub
import RustUma.Edge.FanOut
import RustUma.Edge.Revoke
import RustUma.Edge.Server
import RustUma.Edge.Drain
import RustUma.Edge.DrainLoop
import RustUma.Edge.Handshake
import RustUma.Edge.Reading
import RustUma.Edge.Exact
import RustUma.Edge.Cursor
import RustUma.Edge.Upstream
import RustUma.Enrichment.Catalog
import RustUma.Enrichment.Counters
import RustUma.Enrichment.Gamma
import RustUma.Enrichment.Newest
import RustUma.Enrichment.LastWrite
import RustUma.Enrichment.Walk
import RustUma.Enrichment.Incremental
import RustUma.Enrichment.GammaJson
import RustUma.Enrichment.Category
import RustUma.Enrichment.Orbit
import RustUma.Enrichment.Uint256
import RustUma.Enrichment.Lookback
import RustUma.Enrichment.Persist
import RustUma.Console.Tokens
import RustUma.Console.Registry
import RustUma.Console.Mutations
import RustUma.Console.Relays
import RustUma.Console.AlertRules
import RustUma.Console.Alerts
import RustUma.Console.PublicList
import RustUma.Console.Balance
import RustUma.Console.Growth
import RustUma.Console.Messages
import RustUma.Console.Notices
import RustUma.Cluster.TokenSync
import RustUma.Cluster.Relay
import RustUma.Cluster.DrainSync
import RustUma.Uma.Events
import RustUma.Uma.Layout
import RustUma.Mempool.Calldata
import RustUma.Mempool.Gate
import RustUma.Mempool.Insertion
import RustUma.Mempool.Feed
import RustUma.Mempool.Abi
import RustUma.Mempool.Decoders
import RustUma.Mempool.Repeats
import RustUma.Mempool.Foreign
import RustUma.Mempool.Backfill
import RustUma.Mempool.Scores
import RustUma.Probe.Batches
import RustUma.Probe.Seats
import RustUma.Probe.Lost
import RustUma.Probe.Pending
import RustUma.ForfeitFeed.Codec
import RustUma.ForfeitFeed.Broadcast
import RustUma.ForfeitFeed.Tailer
import RustUma.ForfeitFeed.Store
