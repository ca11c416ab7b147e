import GinRpc.Breaker.Guarantees
import GinRpc.Kernel.App
import GinRpc.Orm.WhereNumbering
import GinRpc.Orm.OptimisticLock
import GinRpc.DbBreaker.HalfOpen
import GinRpc.DbBreaker.Reopening
import GinRpc.WebSocket.Admission
import GinRpc.WebSocket.Broadcast
import GinRpc.WebSocket.Eviction
import GinRpc.WebSocket.Topic
import GinRpc.Actor.Shutdown
import GinRpc.Aoi.Around
import GinRpc.Discovery.Trackers
import GinRpc.Jwt.Logout
import GinRpc.Jwt.Refresh
import GinRpc.Orm.CacheKeys
import GinRpc.Cache.Freshness
import GinRpc.Redis.DistributedLock
import GinRpc.RateLimit.FixedWindow
import GinRpc.DbPool.EnhancedPool
import GinRpc.Audit.AsyncSink
import GinRpc.ConfigCenter.Cache
import GinRpc.PoolCb.Clients
import GinRpc.PoolCb.Counting
import GinRpc.Rpc.Retry
import GinRpc.Rpc.Failover
import GinRpc.Gateway.ProxyPath
import GinRpc.Gateway.Registry
import GinRpc.WebSocket.Isolation
import GinRpc.Rpc.JsonRpc
import GinRpc.Filter.Bloom
import GinRpc.Redis.Routing
import GinRpc.LoadBalancer.LeastConnections
import GinRpc.LoadBalancer.RoundRobin
import GinRpc.Upload.SafePath
import GinRpc.Upload.Exclusive
import GinRpc.WebSocket.Backlog
import GinRpc.Messaging.Reply
import GinRpc.Orm.Transactions
import GinRpc.Kernel.Services
import GinRpc.Rpc.Tokens
import GinRpc.Actor.Bridge
import GinRpc.Cache.Cleanup
import GinRpc.Orm.Sharding
import GinRpc.Orm.CrossShard
import GinRpc.Orm.Pages
import GinRpc.Middleware.IpFilter
import GinRpc.Actor.Backoff
import GinRpc.RateLimit.Reservation
import GinRpc.Sql.Sanitize
import GinRpc.LoadBalancer.Weighted
import GinRpc.Discovery.Selector
import GinRpc.Actor.Future
