import Gofi.Iam.TicketLogin
import Gofi.Iam.Outage
import Gofi.Msq.Kafka
import Gofi.Iam.Provider.RedisListing
import Gofi.Sqln.FilterText
import Gofi.Sqln.FilterOps
import Gofi.Sqln.Narrowing
import Gofi.Iam.ExternalLogin
import Gofi.Msq.KafkaPause
import Gofi.Msq.RabbitPause
import Gofi.Msq.RabbitDeliveries
import Gofi.Msq.RabbitEnd
import Gofi.Msq.RabbitReturns
import Gofi.Msq.Leases
import Gofi.Msq.ManagerLifecycle
import Gofi.Sqln.Attempts
import Gofi.Msq.NatsStreams
import Gofi.Httpx.ClientIP
import Gofi.Msq.CloudEvents
import Gofi.Sqln.RenderedSearch
import Gofi.Sqln.CacheTimes
import Gofi.Sqln.CachedReads
import Gofi.Cronjob.Slots
import Gofi.Cronjob.HeldLease
import Gofi.Httpx.Containment
import Gofi.Lifecycle.ClosedOnce
import Gofi.Lifecycle.Rebuild
import Gofi.Grpcx.Conversion
import Gofi.Cronjob.PoolEnds
import Gofi.Logging.Deliveries
import Gofi.Readiness.Probes
import Gofi.Httpx.RetryRuns
import Gofi.Session.Agreement
import Gofi.Sqln.RetryDelay
import Gofi.Session.Cleaning
import Gofi.Httpx.CappedBody
import Gofi.Mail.Bulk
import Gofi.Cronjob.FixedRuns
import Gofi.Readiness.Registration
import Gofi.Session.Keys
import Gofi.Msq.Backoff
import Gofi.Sqln.Migrations
import Gofi.Sqln.Opening
import Gofi.Sqln.SharedResults
import Gofi.Iam.Provider.Issuers
import Gofi.Iam.Revocation
import Gofi.Iam.Password
