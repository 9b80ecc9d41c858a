import ContentReplica.Proofs.Store.Contents
import ContentReplica.Proofs.Store.Frame
import ContentReplica.Proofs.Store.Objects
import ContentReplica.Proofs.Schema.Tables
import ContentReplica.Proofs.Store.Table
import ContentReplica.Catalog
import ContentReplica.Config.File
import ContentReplica.Migration
import ContentReplica.Plan.Outline
import ContentReplica.Query.Resolution
import ContentReplica.Query.Wire
import ContentReplica.Replication.Engine
import ContentReplica.Replication.Wire
import ContentReplica.Schema.Dependents
import ContentReplica.Sql.Csv
import ContentReplica.Sql.Script
import ContentReplica.Store.Like
import ContentReplica.Views.Manager
import ContentReplica.Proofs.Replication.Records
import ContentReplica.Proofs.Space
import ContentReplica.Proofs.Replication.Statements
import ContentReplica.Proofs.Schema.Setup
import ContentReplica.Proofs.Replication.Held
import ContentReplica.Proofs.Replication.Feed
import ContentReplica.Proofs.Store.Batch
import ContentReplica.Proofs.Replication.LastWriter
import ContentReplica.Proofs.Replication.CopyState
import ContentReplica.Proofs.Replication.CopyBatch
import ContentReplica.Proofs.Replication.CopyFeed
import ContentReplica.Proofs.Store.Transaction
import ContentReplica.Proofs.Replication.Exchange
import ContentReplica.Proofs.Replication.BulkLoad
import ContentReplica.Proofs.Replication.BulkAgrees
import ContentReplica.Proofs.Replication.News
import ContentReplica.Proofs.Replication.Cycle
import ContentReplica.Proofs.Migration.Stages
import ContentReplica.Proofs.Migration.Promotion
import ContentReplica.Proofs.Replication.Edges
import ContentReplica.Proofs.Store.Insertion
import ContentReplica.Proofs.Replication.Coherence
import ContentReplica.Proofs.Replication.Consistency
import ContentReplica.Proofs.Replication.Cycles
import ContentReplica.Proofs.Schema.Fields
import ContentReplica.Proofs.Query.Locales
import ContentReplica.Proofs.Schema.Functions
import ContentReplica.Proofs.Plan.Nodes
import ContentReplica.Proofs.Schema.Sift
import ContentReplica.Proofs.Schema.Search
import ContentReplica.Proofs.Schema.Names
import ContentReplica.Proofs.Schema.Installation
import ContentReplica.Proofs.Plan.Expansion
import ContentReplica.Proofs.Query.Relations
import ContentReplica.Proofs.Query.Answers
import ContentReplica.Proofs.Query.Values
import ContentReplica.Proofs.Query.Documents
import ContentReplica.Proofs.Replication.Synced
import ContentReplica.Proofs.Query.Resolution
import ContentReplica.Proofs.Query.Links
import ContentReplica.Proofs.Query.Payloads
import ContentReplica.Proofs.Query.References
import ContentReplica.Proofs.Views.Dependents
import ContentReplica.Proofs.Views.Refresh
import ContentReplica.Proofs.Views.Pool
import ContentReplica.Proofs.Views.Answers
import ContentReplica.Proofs.Replication.Identity
import ContentReplica.Proofs.Migration.Names
import ContentReplica.Proofs.Store.Interleaving
import ContentReplica.Proofs.Query.Columns
import ContentReplica.Proofs.Query.Execution
import ContentReplica.Proofs.Replication.About
import ContentReplica.Proofs.Replication.CopyAbout
import ContentReplica.Proofs.Replication.Tombstones
import ContentReplica.Proofs.Space.Fallback
import ContentReplica.Proofs.Sql.Binding
import ContentReplica.Proofs.Replication.Cancellation
import ContentReplica.Proofs.Query.Order
import ContentReplica.Proofs.Query.Pages
import ContentReplica.Proofs.Query.Wildcards
import ContentReplica.Proofs.Sql.Csv
import ContentReplica.Proofs.Sql.ArrayLiteral
import ContentReplica.Proofs.Replication.Alignment
import ContentReplica.Proofs.Space.Chain
import ContentReplica.Proofs.Replication.Integers
import ContentReplica.Proofs.Schema.Isolation
import ContentReplica.Proofs.Plan.Generation
import ContentReplica.Proofs.Query.Complements
import ContentReplica.Proofs.Query.Encoding
import ContentReplica.Proofs.Views.Accounting
import ContentReplica.Proofs.Query.Integers
import ContentReplica.Proofs.Sql.Sanitize
import ContentReplica.Proofs.Replication.Visits
import ContentReplica.Proofs.Schema.Chains
import ContentReplica.Proofs.Query.Numbers
