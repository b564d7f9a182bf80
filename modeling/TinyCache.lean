import TinyCache.Library.Act
import TinyCache.Library.OrderedDict
import TinyCache.Library.Trim
import TinyCache.Library.Machine
import TinyCache.Library.Lru
import TinyCache.Library.Lock
import TinyCache.Spec.Results
import TinyCache.Spec.Models
import TinyCache.Spec.MemoryStore
import TinyCache.Sanity.Memory
import TinyCache.Sanity.MemoryStep
import TinyCache.Proofs.MemoryLimits
import TinyCache.Spec.Cache
import TinyCache.Proofs.MemoryRefines
import TinyCache.Spec.History
import TinyCache.Proofs.History
import TinyCache.Proofs.MemoryHistory
import TinyCache.Spec.SqliteStore
import TinyCache.Sanity.Sqlite
import TinyCache.Sanity.SqliteStep
import TinyCache.Sanity.SqliteFailure
import TinyCache.Proofs.SqliteAccounting
import TinyCache.Proofs.SqliteAtomicity
import TinyCache.Proofs.SqliteRefines
import TinyCache.Proofs.ConditionalWrites
import TinyCache.Proofs.RejectedWrites
import TinyCache.Proofs.BackendsAgree
import TinyCache.Spec.Timeline
import TinyCache.Proofs.Restarts
import TinyCache.Library.Framing
import TinyCache.Spec.Service
import TinyCache.Sanity.Service
import TinyCache.Proofs.Isolation
import TinyCache.Proofs.Eviction
import TinyCache.Proofs.SqliteEviction
import TinyCache.Proofs.Noninterference
import TinyCache.Proofs.Statistics
import TinyCache.Spec.Admission
import TinyCache.Proofs.Admission
import TinyCache.Proofs.Cleaner
import TinyCache.Proofs.ExpiredIsMissing
import TinyCache.Proofs.SqliteLimits
import TinyCache.Library.Recency
import TinyCache.Spec.Recency
import TinyCache.Proofs.Recency
import TinyCache.Spec.Servicer
import TinyCache.Proofs.Batches
import TinyCache.Spec.ApiContract
import TinyCache.Proofs.ApiContract
import TinyCache.Spec.Config
import TinyCache.Spec.StatsMessage
import TinyCache.Proofs.StatsMessage
import TinyCache.Proofs.StatsAndGet
import TinyCache.Spec.Calls
import TinyCache.Proofs.NamespaceSelection
import TinyCache.Spec.RequestIds
import TinyCache.Proofs.RequestIds
import TinyCache.Spec.Lru
import TinyCache.Proofs.Lru
import TinyCache.Spec.Threads
import TinyCache.Proofs.Threads
import TinyCache.Spec.Server
import TinyCache.Proofs.Server
import TinyCache.Spec.Passes
import TinyCache.Proofs.Passes
import TinyCache.Spec.Process
import TinyCache.Proofs.Process
import TinyCache.Spec.Serve
import TinyCache.Proofs.Serve
import TinyCache.Library.Codec
import TinyCache.Spec.Cli
import TinyCache.Proofs.Cli
import TinyCache.Proofs.ExitCodes
import TinyCache.Library.Json
import TinyCache.Library.Exposition
import TinyCache.Spec.Logging
import TinyCache.Proofs.Logging
import TinyCache.Spec.Health
import TinyCache.Proofs.Health
import TinyCache.Library.TwoRuns
import TinyCache.Proofs.Continuity
import TinyCache.Spec.Lifetime
import TinyCache.Proofs.Lifetime
