import Aseos.Library.TransitionSystem
import Aseos.Library.Regex
import Aseos.Library.Sorting
import Aseos.Persistence.ClientSettlement
import Aseos.Platform.RuntimeLockSafety
import Aseos.Platform.ControlRelease
import Aseos.Js.Value
import Aseos.Contracts.CanonicalJson
import Aseos.Js.DateTime
import Aseos.Js.Ascii
import Aseos.Js.Rearrangement
import Aseos.Policy.Acceptance
import Aseos.Policy.Conditions
import Aseos.Policy.RuleOrder
import Aseos.Policy.Authorization
import Aseos.Policy.Snapshot
import Aseos.Policy.Contract
import Aseos.Js.JsonValue
import Aseos.Contracts.JsonRoundTrip
import Aseos.Contracts.CanonicalForm
import Aseos.Js.Parsed
import Aseos.Contracts.Stringify
import Aseos.Toolchain.ScopePolicy
import Aseos.Toolchain.AuthorityLock
import Aseos.Library.Utf8
import Aseos.Platform.EventStream
import Aseos.Platform.EventChunking
import Aseos.Platform.EventUniformity
import Aseos.Contracts.JsonLine
import Aseos.Js.IsoString
import Aseos.Platform.Identity
import Aseos.Platform.EventPublication
import Aseos.Platform.EventDelivery
import Aseos.Platform.EventServer
import Aseos.Platform.EventResumption
import Aseos.Persistence.OpenSequence
import Aseos.Persistence.OpenSafety
import Aseos.Contracts.Envelope
import Aseos.Kernel.Model
import Aseos.Kernel.Workflow
import Aseos.Kernel.Replay
import Aseos.Policy.Yaml
import Aseos.Library.Outline
import Aseos.Policy.YamlGrammar
import Aseos.Policy.YamlOutline
import Aseos.Policy.YamlCompleteness
import Aseos.Policy.YamlRendering
import Aseos.Policy.YamlRoundTrip
import Aseos.Library.Arguments
import Aseos.Isolation.CommandLine
import Aseos.Library.Glob
import Aseos.Js.RegExpSource
import Aseos.Toolchain.GlobScope
import Aseos.Toolchain.GovernedPath
import Aseos.Js.LeapSecond
import Aseos.Platform.Timestamps
import Aseos.Contracts.IsolationEvidence
import Aseos.Isolation.BridgeLimits
import Aseos.Isolation.EvidenceContract
import Aseos.Isolation.Ownership
import Aseos.Release.CanonicalEncoders
import Aseos.Persistence.Quarantine
import Aseos.Persistence.TransactionFlags
import Aseos.Release.ManifestSoundness
import Aseos.Toolchain.LockTransition
import Aseos.Policy.RequirementOrder
import Aseos.Policy.ConditionLaws
import Aseos.Policy.PolicySchema
import Aseos.Policy.YamlLimits
import Aseos.Policy.YamlLayout
import Aseos.Contracts.PersistenceRecords
import Aseos.Library.LastWriter
import Aseos.Persistence.Transactions
import Aseos.Persistence.Authority
import Aseos.Persistence.StoredText
import Aseos.Persistence.Inbox
import Aseos.Persistence.Checkpoints
import Aseos.Isolation.BoundedCapture
import Aseos.Toolchain.RequiredScripts
import Aseos.Release.ZipSafety
import Aseos.Contracts.CommandEnvelope
import Aseos.Kernel.Prepare
import Aseos.Kernel.CommandIdentity
import Aseos.Library.RecentLog
import Aseos.Platform.IdempotencyRegistry
import Aseos.Library.DepthFirst
import Aseos.Toolchain.PackageCycles
import Aseos.Library.StreamLog
import Aseos.Persistence.CommitIdempotency
import Aseos.Persistence.StreamReading
import Aseos.Contracts.ReadBack
import Aseos.Kernel.PreparedBatch
import Aseos.Persistence.ClientBatch
import Aseos.Persistence.CommittedStream
import Aseos.Persistence.BatchAcceptance
import Aseos.Persistence.PreparedCommit
import Aseos.Persistence.CommitReceipt
