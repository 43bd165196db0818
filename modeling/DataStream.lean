import DataStream.Cache.BatchWrites
import DataStream.Cli.BinlogDecode
import DataStream.EndToEnd.Addressable
import DataStream.EndToEnd.DDLStatements
import DataStream.Errors.CircuitBreaker
import DataStream.Filter.Expression
import DataStream.Lifecycle.CleanCache
import DataStream.Lifecycle.DDLBarrier
import DataStream.Lifecycle.DDLOrder
import DataStream.Lifecycle.HandOver
import DataStream.Lifecycle.HashChunker
import DataStream.Lifecycle.ReplayResume
import DataStream.Lifecycle.RestartSchema
import DataStream.Lifecycle.RetryTrigger
import DataStream.Lifecycle.SchemaInStep
import DataStream.Lifecycle.TableInvariants
import DataStream.Offset.EtcdLoad
import DataStream.Offset.FileStorage
import DataStream.Pipeline.Backpressure
import DataStream.Pipeline.Cluster
import DataStream.Pipeline.EventBuffer
import DataStream.Pipeline.PersistentBuffer
import DataStream.Router.Partition
import DataStream.Schema.DDLRecord
import DataStream.Schema.HistoryOffset
import DataStream.Sink.ConcurrentWriter
import DataStream.Sink.DocumentMirror
import DataStream.Sink.MongoReplica
import DataStream.Sink.SqlRedelivery
import DataStream.Sink.SqlWrite
import DataStream.Source.DatabaseDiscovery
import DataStream.Source.GlobalMinPosition
import DataStream.Source.MySQL.SchemaCache
import DataStream.Source.MySQL.SchemaTracking
import DataStream.Source.MySQL.Wildcard
import DataStream.Source.Postgres.Connector
import DataStream.Source.SavedPosition
import DataStream.Source.ScopeLeaks
import DataStream.Source.SnapshotCoordinator
import DataStream.Source.SqlServer.TableNames
import DataStream.Source.TableManager
import DataStream.Store.TaskPosition
