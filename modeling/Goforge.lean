import Goforge.Auth.Generations
import Goforge.Auth.Revocation
import Goforge.Auth.Service
import Goforge.Auth.Steps
import Goforge.Auth.Tables
import Goforge.Auth.World
import Goforge.Cli.JobName
import Goforge.Cli.MigrationVersion
import Goforge.Cli.Names
import Goforge.Cli.ReferenceCycles
import Goforge.Database.Transaction
import Goforge.Dev.LineWriter
import Goforge.Dev.LiveReload
import Goforge.Httpx.Form
import Goforge.Job.Attempts
import Goforge.Job.Cell
import Goforge.Job.Conservation
import Goforge.Job.Delivery
import Goforge.Job.Effects
import Goforge.Job.Errors
import Goforge.Job.Fencing
import Goforge.Job.Observer
import Goforge.Job.Progress
import Goforge.Job.Queue
import Goforge.Job.Schema
import Goforge.Job.Settlement
import Goforge.Job.Store
import Goforge.Job.Types
import Goforge.Job.Worker
import Goforge.Lib.Base64
import Goforge.Lib.ByteOrder
import Goforge.Lib.Fallible
import Goforge.Lib.GoIdentifier
import Goforge.Lib.GoMap
import Goforge.Lib.GoPath
import Goforge.Lib.GoString
import Goforge.Lib.GoTime
import Goforge.Lib.GoUrl
import Goforge.Lib.GoZone
import Goforge.Lib.Interleave
import Goforge.Lib.Json
import Goforge.Lib.JsonText
import Goforge.Lib.Jsonb
import Goforge.Lib.Machine
import Goforge.Lib.Mime
import Goforge.Lib.Names
import Goforge.Lib.Netip
import Goforge.Lib.QuotedPrintable
import Goforge.Lib.QuotedText
import Goforge.Lib.Regex
import Goforge.Lib.Rfc5322
import Goforge.Lib.Search
import Goforge.Lib.Sql.Expr
import Goforge.Lib.Sql.Like
import Goforge.Lib.Sql.Token
import Goforge.Lib.Sql.Truth
import Goforge.Lib.Sql.Update
import Goforge.Lib.Strconv
import Goforge.Lib.Table
import Goforge.Lib.Uuid
import Goforge.Mail.Encoding
import Goforge.Mail.Message
import Goforge.Mail.RoundTrip
import Goforge.Migrate.Agreement
import Goforge.Migrate.Calls
import Goforge.Migrate.Ledger
import Goforge.Migrate.Marker
import Goforge.Migrate.Migrator
import Goforge.Migrate.Prepare
import Goforge.Migrate.Recovery
import Goforge.Migrate.Source
import Goforge.Migrate.Steps
import Goforge.Migrate.Upgrade
import Goforge.Orm.BulkInsert
import Goforge.Orm.Classify
import Goforge.Orm.Condition
import Goforge.Orm.Definition
import Goforge.Orm.Disclosure
import Goforge.Orm.Meaning
import Goforge.Orm.Mutation
import Goforge.Orm.Optimistic
import Goforge.Orm.Predicate
import Goforge.Orm.Search
import Goforge.Orm.UpdateMeaning
import Goforge.RateLimit.Agreement
import Goforge.RateLimit.ClientAddress
import Goforge.RateLimit.Forwarded
import Goforge.RateLimit.Key
import Goforge.RateLimit.Memory
import Goforge.RateLimit.Postgres
import Goforge.RateLimit.Proxy
import Goforge.RateLimit.RetryAfter
import Goforge.RateLimit.Safety
import Goforge.Resource.Listing
import Goforge.Schedule.Atomicity
import Goforge.Schedule.Cron
import Goforge.Schedule.CronExact
import Goforge.Schedule.CronGrammar
import Goforge.Schedule.CronNormalize
import Goforge.Schedule.Define
import Goforge.Schedule.Definition
import Goforge.Schedule.Dispatch
import Goforge.Schedule.Materialize
import Goforge.Schedule.Misfire
import Goforge.Schedule.Occurrence
import Goforge.Schedule.Ordering
import Goforge.Schedule.Overlap
import Goforge.Schedule.Schedulers
import Goforge.Schedule.Statements
import Goforge.Schedule.Storable
import Goforge.Schedule.Successor
import Goforge.Security.Csrf
import Goforge.Security.Password
import Goforge.Security.Token
import Goforge.Security.WireFormat
import Goforge.Session.Flash
import Goforge.Session.Held
import Goforge.Session.Lifetime
import Goforge.Session.Manager
import Goforge.Session.Postgres
import Goforge.Session.Resurrection
import Goforge.Session.Store
import Goforge.Session.World
import Goforge.Validation.Rules
import Goforge.Validation.Tree
import Goforge.Web.Redirect
