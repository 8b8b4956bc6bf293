import Imageboard.Text.Blank
import Imageboard.Text.CaseTable
import Imageboard.Text.Digit
import Imageboard.Text.LowerCase
import Imageboard.Text.Pattern
import Imageboard.Text.PrintableTable
import Imageboard.Text.Quoted
import Imageboard.Text.Separated
import Imageboard.Number.Binary64
import Imageboard.Number.Read
import Imageboard.Number.Shortest
import Imageboard.Calendar.Day
import Imageboard.Calendar.Moment
import Imageboard.Calendar.Timestamp
import Imageboard.Failure
import Imageboard.Value
import Imageboard.Json.Basic
import Imageboard.Json.Printer
import Imageboard.Json.Reader
import Imageboard.TagName
import Imageboard.Category
import Imageboard.Config
import Imageboard.ConfigFile
import Imageboard.Viewer
import Imageboard.Query.Token
import Imageboard.Query.Term
import Imageboard.Query.Range
import Imageboard.Query.Quantity
import Imageboard.Query.Plan
import Imageboard.Query.Metatag
import Imageboard.Query.Compile
import Imageboard.Query.Statement
import Imageboard.Query.Explain
import Imageboard.Store.Table
import Imageboard.Store.Row
import Imageboard.Store.Contents
import Imageboard.Store.Basic
import Imageboard.Store.Tagging
import Imageboard.Store.Relationships
import Imageboard.Store.Pages
import Imageboard.Store.Collections
import Imageboard.Store.Edit
import Imageboard.Store.Listing
import Imageboard.Store.Archive
import Imageboard.Store.Maintenance
import Imageboard.Search.Truth
import Imageboard.Search.Condition
import Imageboard.Search.Selection
import Imageboard.Search.Searcher
import Imageboard.Search.CountCache
import Imageboard.Relationship.Graph
import Imageboard.Relationship.Rules
import Imageboard.Relationship.Approval
import Imageboard.Bulk.Command
import Imageboard.Bulk.Script
import Imageboard.Bulk.MassUpdate
import Imageboard.Bulk.Update
import Imageboard.Bulk.Preview
import Imageboard.Health
import Imageboard.Fixture.Cell
import Imageboard.Fixture.Row
import Imageboard.Fixture.Reader
import Imageboard.Fixture.Import
import Imageboard.Session
import Imageboard.CommandLine.Arguments
import Imageboard.CommandLine.Command
import Imageboard.CommandLine.Files
import Imageboard.CommandLine.Run
import Imageboard.Main
import Imageboard.Proofs.Store.Running
import Imageboard.Proofs.Store.Keeping
import Imageboard.Proofs.Store.Leading
import Imageboard.Proofs.Tagging.Keeping
import Imageboard.Proofs.Tagging.Counts
import Imageboard.Proofs.Tagging.Counting
import Imageboard.Proofs.Relationship.Keeping
import Imageboard.Proofs.Relationship.Lawful
import Imageboard.Proofs.Store.Transactions
import Imageboard.Proofs.Bulk.Applying
import Imageboard.Proofs.Bulk.Processing
import Imageboard.Proofs.Search.Reading
import Imageboard.Proofs.Operations
import Imageboard.Proofs.Relationship.Editing
import Imageboard.Proofs.Relationship.Changing
import Imageboard.Proofs.Relationship.Moving
import Imageboard.Proofs.Relationship.Carrying
import Imageboard.Proofs.Relationship.Checking
import Imageboard.Proofs.Relationship.WellRelated
import Imageboard.Proofs.Search.Resolving
import Imageboard.Proofs.Bulk.Relating
import Imageboard.Proofs.Relationship.Reaching
import Imageboard.Proofs.Relationship.Merging
import Imageboard.Proofs.Bulk.Redrawing
import Imageboard.Proofs.Bulk.Cycles
import Imageboard.Proofs.Store.Attaining
import Imageboard.Proofs.Lookup
import Imageboard.Proofs.Tagging.Naming
import Imageboard.Proofs.Tagging.Retagging
import Imageboard.Proofs.Tagging.Replacing
import Imageboard.Proofs.Tagging.HandingOn
import Imageboard.Proofs.Relationship.Settling
import Imageboard.Proofs.Relationship.Retargeting
import Imageboard.Proofs.Relationship.Renaming
import Imageboard.Proofs.Text.Wildcards
import Imageboard.Proofs.Query.Distinct
import Imageboard.Proofs.Query.Drafting
import Imageboard.Proofs.Query.Stating
import Imageboard.Proofs.Query.Binding
import Imageboard.Proofs.Search.Compiling
import Imageboard.Proofs.Search.Selecting
import Imageboard.Proofs.Text.Casing
import Imageboard.Proofs.Text.Lowering
import Imageboard.Proofs.Text.Endings
import Imageboard.Proofs.Query.Tokenizing
import Imageboard.Proofs.Query.Joining
import Imageboard.Proofs.Query.Classifying
import Imageboard.Proofs.Query.Viewing
import Imageboard.Proofs.Search.FilterTerms
import Imageboard.Proofs.Search.Filtering
import Imageboard.Proofs.Search.Counting
import Imageboard.Proofs.Search.FastCounting
import Imageboard.Proofs.Search.CacheKeys
import Imageboard.Proofs.Store.Generations
import Imageboard.Proofs.Tagging.Generations
import Imageboard.Proofs.Relationship.Generations
import Imageboard.Proofs.Query.Ordering
import Imageboard.Proofs.Search.Answering
import Imageboard.Proofs.Search.Running
import Imageboard.Proofs.Search.WordOrder
import Imageboard.Proofs.Search.Remembering
import Imageboard.Proofs.Search.Distinguishing
import Imageboard.Proofs.Search.Measuring
import Imageboard.Proofs.Search.Sorting
import Imageboard.Proofs.Search.Rearranging
import Imageboard.Proofs.Search.Paging
import Imageboard.Proofs.Search.Deciding
import Imageboard.Proofs.Query.Negating
import Imageboard.Proofs.Search.Complement
import Imageboard.Proofs.Query.Placeholders
import Imageboard.Proofs.Query.Wording
import Imageboard.Proofs.Text.Tidying
import Imageboard.Proofs.Text.Trimming
import Imageboard.Proofs.Bulk.Describing
import Imageboard.Proofs.Query.Ranging
import Imageboard.Proofs.Query.Refusing
import Imageboard.Proofs.Text.Folding
import Imageboard.Proofs.Query.Voting
import Imageboard.Proofs.Search.Privacy
import Imageboard.Proofs.Search.Namesakes
import Imageboard.Proofs.Store.Handles
import Imageboard.Proofs.Tagging.Spreading
import Imageboard.Proofs.Relationship.Extending
import Imageboard.Proofs.Search.Deadlines
import Imageboard.Proofs.Search.Expiring
import Imageboard.Proofs.Search.Faltering
import Imageboard.Proofs.Search.SingleTags
import Imageboard.Proofs.Search.Accounting
import Imageboard.Proofs.Store.Mirroring
import Imageboard.Proofs.Store.Undating
import Imageboard.Proofs.Tagging.Mirroring
import Imageboard.Proofs.Relationship.Mirroring
import Imageboard.Proofs.Bulk.Splitting
import Imageboard.Proofs.Bulk.Estimating
import Imageboard.Proofs.Bulk.Performing
import Imageboard.Proofs.Bulk.Retagging
import Imageboard.Proofs.Query.Limiting
import Imageboard.Proofs.Tagging.SinglePosts
import Imageboard.Proofs.Store.Sparing
import Imageboard.Proofs.Tagging.Substituting
import Imageboard.Proofs.Tagging.Sparing
import Imageboard.Proofs.Calendar.Padding
import Imageboard.Proofs.Calendar.Ordinals
import Imageboard.Proofs.Calendar.Stamps
import Imageboard.Proofs.Query.Durations
import Imageboard.Proofs.Search.Ages
import Imageboard.Proofs.Tagging.Filing
import Imageboard.Proofs.Fixture.Denoting
import Imageboard.Proofs.Fixture.Importing
import Imageboard.Proofs.Relationship.Circling
import Imageboard.Proofs.Relationship.Retitling
import Imageboard.Proofs.Search.SinglePredicates
import Imageboard.Proofs.Search.OwnPosts
import Imageboard.Proofs.Query.IdLists
import Imageboard.Proofs.Search.ListOrder
import Imageboard.Proofs.Number.Numerals
import Imageboard.Proofs.Query.IntegerRanges
import Imageboard.Proofs.Store.Collecting
import Imageboard.Proofs.Actions
import Imageboard.Proofs.Tagging.NormalNames
import Imageboard.Proofs.Store.Tallying
import Imageboard.Proofs.Text.Stars
import Imageboard.Proofs.Search.Sources
import Imageboard.Proofs.Relationship.Queueing
import Imageboard.Proofs.Relationship.Admitting
import Imageboard.Proofs.Text.Escaping
import Imageboard.Proofs.Category.Accepting
import Imageboard.Proofs.Category.Addressing
