import PolarBear.Lib.ReadModifyWrite
import PolarBear.Report.Summary
import PolarBear.Report.Record
import PolarBear.Lib.Fallible
import PolarBear.Report.Interleave
import PolarBear.Report.Mail
import PolarBear.Worker.Rpc
import PolarBear.Docker.DockerWorker
import PolarBear.Worker.Steps
import PolarBear.Worker.AtMostOnce
import PolarBear.Worker.Answered
import PolarBear.Docker.Daemon
import PolarBear.Api.Submit
import PolarBear.Api.Version
import PolarBear.Api.Routing
import PolarBear.Lib.Transition
import PolarBear.Services.Table
import PolarBear.Services.Service
import PolarBear.Services.MinimumVersion
import PolarBear.Services.Registration
import PolarBear.Docker.Printable
import PolarBear.Services.VersionCap
import PolarBear.Py.Tree
import PolarBear.Rpc.Serializer
import PolarBear.Services.Heartbeat
import PolarBear.Py.JsonText
import PolarBear.Py.JsonRoundTrip
import PolarBear.Report.Capacity
import PolarBear.Lib.Table
import PolarBear.Quota.Usage
import PolarBear.Quota.Reserve
import PolarBear.Quota.Bookkeeping
import PolarBear.Quota.ProjectTotal
import PolarBear.Quota.Admission
import PolarBear.Py.DateTime
import PolarBear.Rpc.Context
import PolarBear.Db.Query
import PolarBear.KeyPairs.KeyPair
import PolarBear.KeyPairs.Migration
import PolarBear.Db.Paginate
import PolarBear.Flavors.Flavor
import PolarBear.Flavors.Listing
import PolarBear.Flavors.Visibility
import PolarBear.Flavors.Migrate
import PolarBear.Flavors.Lossless
import PolarBear.Flavors.Save
import PolarBear.Flavors.Synchronised
import PolarBear.Aggregates.Aggregate
import PolarBear.Aggregates.Lossless
import PolarBear.Migrations.Lossless
import PolarBear.Docker.Engine
import PolarBear.Docker.References
import PolarBear.Docker.Volumes
import PolarBear.Worker.Containers
import PolarBear.Lib.Markup
import PolarBear.Report.Html
import PolarBear.Compute.ComputeNode
import PolarBear.Compute.Destroy
import PolarBear.Compute.Reads
import PolarBear.Lib.Replication
import PolarBear.Api.CaseSubmit
import PolarBear.Api.Collisions
import PolarBear.Zones.AggregateApi
import PolarBear.Zones.Store
import PolarBear.Zones.Reading
import PolarBear.Zones.Writing
import PolarBear.Zones.Agreement
import PolarBear.Zones.Rejected
import PolarBear.Lib.Extract
import PolarBear.Archive.Tables
import PolarBear.Archive.Turn
import PolarBear.Archive.Conservation
import PolarBear.Compute.ServiceDestroy
import PolarBear.Compute.Lookup
import PolarBear.Lib.Paging
import PolarBear.Compute.Paging
import PolarBear.Services.VersionCache
import PolarBear.Wsgi.Resource
import PolarBear.Wsgi.Tables
import PolarBear.Wsgi.Stack
import PolarBear.Lib.Regex
import PolarBear.Api.VersionString
import PolarBear.Lib.Best
import PolarBear.Urlmap.Accept
import PolarBear.Urlmap.Options
import PolarBear.Urlmap.Dispatch
import PolarBear.Api.Pagination
import PolarBear.Quota.Limits
import PolarBear.Quota.Settable
import PolarBear.Quota.LimitCheck
import PolarBear.Quota.RefreshRun
import PolarBear.Quota.OverQuota
import PolarBear.Quota.Staleness
import PolarBear.Quota.RefreshOrder
import PolarBear.Lib.Tiling
import PolarBear.Py.Calendar
import PolarBear.Utils.AuditPeriod
import PolarBear.Utils.Hostname
import PolarBear.Utils.TemporaryMutation
import PolarBear.Utils.ImageMetadata
import PolarBear.Utils.TagFilter
import PolarBear.Zones.Mirror
import PolarBear.Py.JsonFloat
import PolarBear.LiveMigration.LegacyDict
import PolarBear.LiveMigration.RoundTrip
import PolarBear.Report.Backport
import PolarBear.Objects.PciDevicePool
import PolarBear.Api.Fping
import PolarBear.Compute.Loading
import PolarBear.Compute.Saving
import PolarBear.Api.Slaves
import PolarBear.Docker.Failures
import PolarBear.Worker.Causes
import PolarBear.Lib.Blocks
import PolarBear.Networks.FloatingIps
import PolarBear.Lib.Dag
import PolarBear.Utils.ClassHierarchy
import PolarBear.Lib.Redaction
import PolarBear.Py.CallArgs
import PolarBear.Utils.SafeTruncate
import PolarBear.Utils.WrappedFunction
import PolarBear.Lib.Join
import PolarBear.Utils.ExceptionWrapper
import PolarBear.Wsgi.Registration
import PolarBear.Zones.Readers
import PolarBear.KeyPairs.Listing
import PolarBear.KeyPairs.Callers
import PolarBear.Lib.GuardedUpdate
import PolarBear.Networks.Allocation
import PolarBear.Networks.FixedIps
import PolarBear.Instances.Metadata
import PolarBear.KeyPairs.Limit
import PolarBear.Lib.Metering
import PolarBear.SecurityGroups.EnsureDefault
import PolarBear.Volumes.Usage
import PolarBear.Instances.ActionLog
import PolarBear.Plans.Pipeline
import PolarBear.Plans.Cell
import PolarBear.Plans.Outcome
import PolarBear.Plans.Mailed
import PolarBear.Wsgi.Respond
import PolarBear.Api.PlanEndpoint
