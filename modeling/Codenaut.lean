import Codenaut.ActiveIndex.BuildPolicies
import Codenaut.ActiveIndex.BuildTable
import Codenaut.ActiveIndex.Discipline
import Codenaut.ActiveIndex.Invariant
import Codenaut.ActiveIndex.Operations
import Codenaut.ActiveIndex.Properties
import Codenaut.ActiveIndex.Refinement
import Codenaut.ActiveIndex.Searchable
import Codenaut.ActiveIndex.SearchableImports
import Codenaut.ActiveIndex.SelectedRepositories
import Codenaut.Agent.ActiveIndex
import Codenaut.Agent.ActiveIndexProperties
import Codenaut.Agent.Bounds
import Codenaut.Agent.Checks
import Codenaut.Agent.Disclosure
import Codenaut.Agent.HistoryTexts
import Codenaut.Agent.InlineCitations
import Codenaut.Agent.Models
import Codenaut.Agent.Prompt
import Codenaut.Agent.Requests
import Codenaut.Agent.Service
import Codenaut.Agent.Tools
import Codenaut.Agent.ToolsProperties
import Codenaut.Core.Settings
import Codenaut.Counters.Expiring
import Codenaut.Db.Auth
import Codenaut.Db.Chat
import Codenaut.Db.Enums
import Codenaut.Db.Models
import Codenaut.Db.ModelsProperties
import Codenaut.Embeddings.PreparedSizes
import Codenaut.Embeddings.Preprocessing
import Codenaut.Embeddings.RequestSizes
import Codenaut.Embeddings.Requests
import Codenaut.Embeddings.Responses
import Codenaut.Frontend.EvidenceLinks
import Codenaut.Frontend.Highlight
import Codenaut.Frontend.Links
import Codenaut.Frontend.TrustedLinks
import Codenaut.Frontend.Urls
import Codenaut.GitHub.History
import Codenaut.GitHub.Listing
import Codenaut.GitHub.PublicUrls
import Codenaut.GitHub.PublicUrlsProperties
import Codenaut.GitHub.Schemas
import Codenaut.Http.Transport
import Codenaut.Indexing.AnalyzedSources
import Codenaut.Indexing.Analyzer
import Codenaut.Indexing.BareNames
import Codenaut.Indexing.CallGraph
import Codenaut.Indexing.CallGraphBuilder
import Codenaut.Indexing.CallOwners
import Codenaut.Indexing.CallSites
import Codenaut.Indexing.CallerFiles
import Codenaut.Indexing.ChunkCitations
import Codenaut.Indexing.Chunking
import Codenaut.Indexing.CitedRows
import Codenaut.Indexing.DefinitionCompleteness
import Codenaut.Indexing.DefinitionScopes
import Codenaut.Indexing.DefinitionTrees
import Codenaut.Indexing.DocumentationCoverage
import Codenaut.Indexing.DocumentationSections
import Codenaut.Indexing.EdgeIdentity
import Codenaut.Indexing.FencedCode
import Codenaut.Indexing.FileDiscovery
import Codenaut.Indexing.FileDiscoveryExactness
import Codenaut.Indexing.FileDiscoveryProperties
import Codenaut.Indexing.Freshness
import Codenaut.Indexing.GraphCoherence
import Codenaut.Indexing.GraphEdges
import Codenaut.Indexing.GraphOrder
import Codenaut.Indexing.GraphValidation
import Codenaut.Indexing.HeadingPaths
import Codenaut.Indexing.IdentifierText
import Codenaut.Indexing.ImportAmbiguity
import Codenaut.Indexing.IncrementalRefresh
import Codenaut.Indexing.Models
import Codenaut.Indexing.NameLookup
import Codenaut.Indexing.ParsedModels
import Codenaut.Indexing.ParserSettings
import Codenaut.Indexing.PreparedPolicy
import Codenaut.Indexing.PythonParser
import Codenaut.Indexing.ReceiverCalls
import Codenaut.Indexing.RefreshPlanning
import Codenaut.Indexing.RelativeImports
import Codenaut.Indexing.RunContract
import Codenaut.Indexing.SameFileCalls
import Codenaut.Indexing.SymbolSplits
import Codenaut.Indexing.SyntaxTrees
import Codenaut.Indexing.TreeDefinitions
import Codenaut.Indexing.Worker
import Codenaut.Indexing.WorkerProperties
import Codenaut.Interaction.Answers
import Codenaut.Interaction.Histories
import Codenaut.Interaction.Program
import Codenaut.Interaction.Requests
import Codenaut.Interaction.Turns
import Codenaut.Rag.Disclosure
import Codenaut.Rag.Evidence
import Codenaut.Rag.EvidenceSelection
import Codenaut.Rag.Models
import Codenaut.Rag.Query
import Codenaut.Rag.QuestionService
import Codenaut.Relational.Collected
import Codenaut.Relational.Evolution
import Codenaut.Relational.Labels
import Codenaut.Relational.Pages
import Codenaut.Relational.Sorting
import Codenaut.Relational.StableSort
import Codenaut.Relational.Table
import Codenaut.Relational.Upsert
import Codenaut.Retries.Loop
import Codenaut.Services.AcceptedPushes
import Codenaut.Services.AccessSessions
import Codenaut.Services.AccessSessionsProperties
import Codenaut.Services.Auth
import Codenaut.Services.ChatHistory
import Codenaut.Services.ChatOrder
import Codenaut.Services.Consistency
import Codenaut.Services.DefaultBranch
import Codenaut.Services.Deliveries
import Codenaut.Services.DeliveryIdentity
import Codenaut.Services.DeliverySettlement
import Codenaut.Services.Effects
import Codenaut.Services.Generations
import Codenaut.Services.Identities
import Codenaut.Services.IdentitiesProperties
import Codenaut.Services.IndexingJobs.AnalysisRows
import Codenaut.Services.IndexingJobs.Builds
import Codenaut.Services.IndexingJobs.BuildsProperties
import Codenaut.Services.IndexingJobs.Claims
import Codenaut.Services.IndexingJobs.ClaimsProperties
import Codenaut.Services.IndexingJobs.Endings
import Codenaut.Services.IndexingJobs.Statements
import Codenaut.Services.IndexingStatus
import Codenaut.Services.Installations
import Codenaut.Services.JobStates
import Codenaut.Services.LoadableStatus
import Codenaut.Services.OAuthStates
import Codenaut.Services.OAuthStatesProperties
import Codenaut.Services.Operation
import Codenaut.Services.OperationProperties
import Codenaut.Services.PublicImportLimits
import Codenaut.Services.PublicImports
import Codenaut.Services.PublicRepositories
import Codenaut.Services.QuiescentRuns
import Codenaut.Services.RateLimit
import Codenaut.Services.RateLimitProperties
import Codenaut.Services.RefreshTokens
import Codenaut.Services.Repositories
import Codenaut.Services.RepositoriesProperties
import Codenaut.Services.Runs
import Codenaut.Services.SignIns
import Codenaut.Services.Synchronization
import Codenaut.Services.TokenChains
import Codenaut.Services.TokenFamilies
import Codenaut.Services.UnheldCalls
import Codenaut.Services.WebhookIngress
import Codenaut.Services.WebhookIngressProperties
import Codenaut.Services.WebhookRequests
import Codenaut.Services.Webhooks
import Codenaut.Services.WebhooksProperties
import Codenaut.Spans.Greedy
import Codenaut.Spans.Outline
import Codenaut.Spans.Packing
import Codenaut.System.ActivePreservation
import Codenaut.System.ActiveVectors
import Codenaut.System.AuthorizedActivations
import Codenaut.System.DeliverySettlement
import Codenaut.System.DisplacedWorkers
import Codenaut.System.Holders
import Codenaut.System.JobStates
import Codenaut.System.Pushes
import Codenaut.System.QuiescentRuns
import Codenaut.System.RunProperties
import Codenaut.System.Runs
import Codenaut.System.SearchableFlag
import Codenaut.System.World
import Codenaut.System.WorldProperties
import Codenaut.Text.Ascii
import Codenaut.Text.Offsets
import Codenaut.Text.Partition
import Codenaut.Text.Patterns
import Codenaut.Text.Python
import Codenaut.Text.Rows
import Codenaut.Text.Separated
import Codenaut.Text.Urls
import Codenaut.Text.Utf8
import Codenaut.Transaction.Insertion
import Codenaut.Transaction.ReadCommitted
import Codenaut.Transaction.Rules
import Codenaut.Vector.Batches
import Codenaut.Vector.Exactness
import Codenaut.Vector.Isolation
import Codenaut.Vector.Qdrant
import Codenaut.Vector.QdrantProperties
import Codenaut.Vector.Retrieval
import Codenaut.Versioning.Slots
import Codenaut.Worklist.Loop
