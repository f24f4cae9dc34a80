import MetaframerKernel.Async.Program
import MetaframerKernel.Js.CodeUnits
import MetaframerKernel.Js.Numbers
import MetaframerKernel.Js.JsonText
import MetaframerKernel.Js.Values
import MetaframerKernel.Domain.Identity
import MetaframerKernel.Application.CanonicalValue
import MetaframerKernel.Application.DescendingKeyOrder
import MetaframerKernel.Application.AuthorizationEvaluator
import MetaframerKernel.Application.PolicyCandidateResolver
import MetaframerKernel.Adapters.DecisionLogIntegrity
import MetaframerKernel.Application.Collaborators
import MetaframerKernel.Async.Loops
import MetaframerKernel.Application.DecisionLoggingPolicyDecisionPoint
import MetaframerKernel.Stores.LinkedLog
import MetaframerKernel.Async.System
import MetaframerKernel.Stores.Transactions
import MetaframerKernel.Adapters.PostgresDecisionLog
import MetaframerKernel.Stores.HashChain
import MetaframerKernel.Adapters.TamperEvidence
import MetaframerKernel.Stores.Sessions
import MetaframerKernel.Application.CommitReceipt
import MetaframerKernel.Application.CreateCustomerPipeline
import MetaframerKernel.Application.UnitOfWork
import MetaframerKernel.Adapters.PostgresWriteEnvelopeWrite
import MetaframerKernel.Delivery.CreateCustomerRequestHandler
import MetaframerKernel.Delivery.AuditBeforeAct
import MetaframerKernel.Delivery.CustomerTransactions
import MetaframerKernel.Db.Outbox
import MetaframerKernel.Db.TenantContext
import MetaframerKernel.Db.RowSecurity
import MetaframerKernel.Db.RowIsolation
import MetaframerKernel.Js.Coercions
import MetaframerKernel.Tools.ExternalConsumerRunRecord
import MetaframerKernel.Application.CanonicalText
import MetaframerKernel.Application.EntryHash
import MetaframerKernel.Fixpoint.Rounds
import MetaframerKernel.Tools.ClosureSemantics
import MetaframerKernel.Tools.ClosureSimulation
import MetaframerKernel.Tools.ClosureAgreement
import MetaframerKernel.Js.Utf8
import MetaframerKernel.Node.Files
import MetaframerKernel.Application.ActionContract
import MetaframerKernel.Tools.ActionSdk
import MetaframerKernel.Application.Clock
import MetaframerKernel.Domain.IdentityObjects
import MetaframerKernel.Application.ActionObjects
import MetaframerKernel.Js.Digits
import MetaframerKernel.Js.KeyOrder
import MetaframerKernel.Application.KeyOrder
import MetaframerKernel.Adapters.ChangeSetAdmission
import MetaframerKernel.Application.LoggedDecision
import MetaframerKernel.Adapters.ClientLifecycle
import MetaframerKernel.Async.Mixed
import MetaframerKernel.Stores.Leaks
import MetaframerKernel.Consumers.CustomerDataCutover
import MetaframerKernel.Adapters.PooledClients
import MetaframerKernel.Delivery.GuardRefusals
import MetaframerKernel.Tools.ActionSdkDistribution
import MetaframerKernel.Tools.ConsumerDiagnostics
import MetaframerKernel.Async.Simulation
import MetaframerKernel.Delivery.AuditTransparency
import MetaframerKernel.Async.Answers
import MetaframerKernel.Delivery.PolicyDecisionLogComposition
import MetaframerKernel.Delivery.AsgiApplication
import MetaframerKernel.Delivery.DocumentedAnswers
import MetaframerKernel.Delivery.AsgiAnswers
import MetaframerKernel.Codec.Base64
import MetaframerKernel.Host.ScopeEnvelope
import MetaframerKernel.Host.StdioJsAsgiBridge
import MetaframerKernel.Consumers.CustomerRecordsSchema
import MetaframerKernel.Js.Doubles
import MetaframerKernel.Orders.Lexicographic
import MetaframerKernel.Tools.SemVer
import MetaframerKernel.Tools.VersioningTrain
import MetaframerKernel.Consumers.CustomerSurface
import MetaframerKernel.Consumers.CutoverRollback
import MetaframerKernel.Consumers.CustomerPersistenceAdapter
import MetaframerKernel.Consumers.AtomicInsert
import MetaframerKernel.Consumers.CustomerModuleApi
import MetaframerKernel.Consumers.RecordingSessions
import MetaframerKernel.Delivery.AsgiCoreProfileAdapter
import MetaframerKernel.Db.OutboxRelay
import MetaframerKernel.Db.RelayTokens
import MetaframerKernel.Db.RelayInvariant
import MetaframerKernel.Db.RelayPartition
import MetaframerKernel.Codec.Positional
import MetaframerKernel.Host.MintUlid
import MetaframerKernel.Js.Operators
import MetaframerKernel.Tools.TokenGuard
import MetaframerKernel.Tools.TokenGuardSight
import MetaframerKernel.Tools.TokenGuardGates
import MetaframerKernel.Tools.ActionSdkMeaning
import MetaframerKernel.Js.JsonSchema
import MetaframerKernel.Tools.ClosureSchema
import MetaframerKernel.Tools.ClosureSchemaSoundness
import MetaframerKernel.Js.RegExp
import MetaframerKernel.Tools.TextPatterns
import MetaframerKernel.Markdown.CommonMark
import MetaframerKernel.Tools.VersioningChangelog
import MetaframerKernel.Tools.ChangelogGuard
import MetaframerKernel.Tools.RepositoryBoundary
import MetaframerKernel.Tools.ReadmeFence
import MetaframerKernel.Js.RegExpLanguage
import MetaframerKernel.Tools.ArchitectureFitness
import MetaframerKernel.Tools.ModuleText
import MetaframerKernel.Node.PosixPaths
import MetaframerKernel.Tools.ImportDirection
import MetaframerKernel.Tools.ImportExtraction
import MetaframerKernel.Tools.OnionLayers
import MetaframerKernel.Host.CustomerAsgiRunner
import MetaframerKernel.Host.RunnerBoundary
import MetaframerKernel.Host.ResponseEvents
import MetaframerKernel.Node.FileTree
import MetaframerKernel.Tools.MaterializePayload
