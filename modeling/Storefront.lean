import Storefront.Catalog.Collection
import Storefront.Catalog.Directory
import Storefront.Catalog.Files
import Storefront.Catalog.Intake
import Storefront.Catalog.Limit
import Storefront.Catalog.Matching
import Storefront.Catalog.Membership
import Storefront.Catalog.Moment
import Storefront.Catalog.MomentForm
import Storefront.Catalog.Predicate
import Storefront.Catalog.Product
import Storefront.Catalog.Query
import Storefront.Catalog.RawColumn
import Storefront.Catalog.RawTable
import Storefront.Catalog.Row
import Storefront.Catalog.Rule.Entry
import Storefront.Catalog.Rule.Node
import Storefront.Catalog.Snapshot
import Storefront.Catalog.Store
import Storefront.Catalog.Sync
import Storefront.Catalog.Table
import Storefront.Catalog.Tag
import Storefront.CommandLine.Arguments
import Storefront.CommandLine.Command
import Storefront.CommandLine.Session
import Storefront.Engine
import Storefront.Failure
import Storefront.FirstOccurrences
import Storefront.Json.Comparison
import Storefront.Json.Display
import Storefront.Json.Printer
import Storefront.Json.Reader
import Storefront.Json.Value
import Storefront.Main
import Storefront.Number.Binary64
import Storefront.Number.Decimal
import Storefront.Number.Reading
import Storefront.Number.Word
import Storefront.Number.Written
import Storefront.Outcome
import Storefront.Proofs.Answers
import Storefront.Proofs.BestRecalls
import Storefront.Proofs.Combinations
import Storefront.Proofs.CommandRuns
import Storefront.Proofs.Conditions
import Storefront.Proofs.Degrading
import Storefront.Proofs.Evaluation
import Storefront.Proofs.ExactValues
import Storefront.Proofs.FullRecalls
import Storefront.Proofs.Independence
import Storefront.Proofs.LoadingFiles
import Storefront.Proofs.LogLines
import Storefront.Proofs.MemberCounts
import Storefront.Proofs.Mixing
import Storefront.Proofs.MovingToFront
import Storefront.Proofs.Narrowing
import Storefront.Proofs.NormalForms
import Storefront.Proofs.NormalTables
import Storefront.Proofs.Ordering
import Storefront.Proofs.Paging
import Storefront.Proofs.PredicateWidth
import Storefront.Proofs.PriceWindow
import Storefront.Proofs.ProductFolds
import Storefront.Proofs.ReadingBack
import Storefront.Proofs.Rearranging
import Storefront.Proofs.Related
import Storefront.Proofs.Relevance
import Storefront.Proofs.Reloading
import Storefront.Proofs.Restoring
import Storefront.Proofs.Rounding
import Storefront.Proofs.RowOrder
import Storefront.Proofs.RowReading
import Storefront.Proofs.RuleMeaning
import Storefront.Proofs.RuleOptions
import Storefront.Proofs.RuleWarnings
import Storefront.Proofs.Runs
import Storefront.Proofs.Scoring
import Storefront.Proofs.Shares
import Storefront.Proofs.SheetColumns
import Storefront.Proofs.SheetFailures
import Storefront.Proofs.SheetPositions
import Storefront.Proofs.ShortestDecimals
import Storefront.Proofs.ShownProducts
import Storefront.Proofs.StoredProducts
import Storefront.Proofs.StrayConditions
import Storefront.Proofs.SyncFailures
import Storefront.Proofs.SyncMetrics
import Storefront.Proofs.Syncing
import Storefront.Proofs.SyncingAll
import Storefront.Proofs.TagSearch
import Storefront.Proofs.TagTexts
import Storefront.Proofs.Tallies
import Storefront.Proofs.ValueOrder
import Storefront.Proofs.WrittenNumbers
import Storefront.Proofs.WrittenValues
import Storefront.Recommend.Recall
import Storefront.Recommend.Score
import Storefront.Recommend.Signal
import Storefront.Recommend.Suggestion
import Storefront.Service.Log
import Storefront.Service.Metrics
import Storefront.Service.Path
import Storefront.Service.Settings
import Storefront.Service.Template
import Storefront.Sheet.Basic
import Storefront.Sheet.Columns
import Storefront.Sheet.Records
import Storefront.StableSort
import Storefront.Text.Blank
import Storefront.Text.Digit
import Storefront.Text.Quoted
import Storefront.Text.Split
import Storefront.Text.UpperCase
import Storefront.Web.Endpoint
import Storefront.Web.Request
import Storefront.Web.Response
import Storefront.Web.Server
import Storefront.Web.UrlText
