import SharedDataLayer.Sync.Impl
import SharedDataLayer.Sync.Events
import SharedDataLayer.Sync.Outcome
import SharedDataLayer.Sync.Store
import SharedDataLayer.Redis.Glob
import SharedDataLayer.Redis.Contents
import SharedDataLayer.Redis.Server
import SharedDataLayer.Redis.Storage
import SharedDataLayer.Redis.Store
import SharedDataLayer.Redis.Search
import SharedDataLayer.Redis.Escape
import SharedDataLayer.Redis.RemoveAll
import SharedDataLayer.Redis.Isolation
import SharedDataLayer.Redis.Slots
import SharedDataLayer.Hiredis.Core
import SharedDataLayer.Hiredis.ConnectAck
import SharedDataLayer.Hiredis.ConnectOnce
import SharedDataLayer.Hiredis.ClusterContext
import SharedDataLayer.Hiredis.ClusterCommands
import SharedDataLayer.Async.System
import SharedDataLayer.Async.Frame
import SharedDataLayer.Async.AckOnce
import SharedDataLayer.Async.Ready
import SharedDataLayer.HostAndPort
import SharedDataLayer.Sentinel.Discovery
import SharedDataLayer.Sentinel.Isolation
import SharedDataLayer.Sentinel.Agreement
import SharedDataLayer.Sentinel.Convergence
import SharedDataLayer.Hiredis.StateMachine
import SharedDataLayer.Sentinel.Unchanged
import SharedDataLayer.Async.Moves
import SharedDataLayer.Async.Clients
import SharedDataLayer.Async.Updates
import SharedDataLayer.Async.Teardown
import SharedDataLayer.Engine.EventFD
import SharedDataLayer.Engine.Run
import SharedDataLayer.Engine.TimerFD
import SharedDataLayer.Engine.EngineImpl
import SharedDataLayer.Engine.FileDescriptor
import SharedDataLayer.Config.Reader
import SharedDataLayer.Config.Namespaces
import SharedDataLayer.Config.Lookup
import SharedDataLayer.Config.Files
import SharedDataLayer.Config.Addresses
import SharedDataLayer.AddressSyntax
import SharedDataLayer.Sentinel.Address
import SharedDataLayer.Redis.ReplySafety
import SharedDataLayer.Redis.KeyCodec
import SharedDataLayer.Spec.Align
import SharedDataLayer.Config.Discovery
import SharedDataLayer.Routing.Impl
import SharedDataLayer.Routing.Total
import SharedDataLayer.Routing.Instances
import SharedDataLayer.Routing.Fleet
import SharedDataLayer.Async.ErrorClass
import SharedDataLayer.Hiredis.EpollAdapter
import SharedDataLayer.Hiredis.ClusterEpollAdapter
