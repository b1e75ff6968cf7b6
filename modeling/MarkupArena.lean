import MarkupArena.Build.Attributes
import MarkupArena.Build.CallSite
import MarkupArena.Build.Children
import MarkupArena.Build.Element
import MarkupArena.Build.Lines
import MarkupArena.Build.Validation
import MarkupArena.Cache
import MarkupArena.Json.Basic
import MarkupArena.Json.Printer
import MarkupArena.Json.Reader
import MarkupArena.Lease
import MarkupArena.Number.Basic
import MarkupArena.Number.Shortest
import MarkupArena.Number.Text
import MarkupArena.Reading.Body
import MarkupArena.Reading.Builder
import MarkupArena.Reading.Characters
import MarkupArena.Reading.Draft
import MarkupArena.Reading.Fault
import MarkupArena.Reading.Foreign
import MarkupArena.Reading.Formatting
import MarkupArena.Reading.Head
import MarkupArena.Reading.Modes
import MarkupArena.Reading.OpenElements
import MarkupArena.Reading.Reference
import MarkupArena.Reading.ReferenceTable
import MarkupArena.Reading.Stack
import MarkupArena.Reading.Summary
import MarkupArena.Reading.Table
import MarkupArena.Reading.Tag
import MarkupArena.Reading.Token
import MarkupArena.Record
import MarkupArena.Render.Cached
import MarkupArena.Render.Markup
import MarkupArena.Render.Outline
import MarkupArena.Render.Preserialized
import MarkupArena.Revision
import MarkupArena.Schema.Basic
import MarkupArena.Schema.Check
import MarkupArena.Schema.Document
import MarkupArena.Schema.Entry
import MarkupArena.Schema.Html
import MarkupArena.Schema.Html.Document
import MarkupArena.Schema.Html.Embedded
import MarkupArena.Schema.Html.Forms
import MarkupArena.Schema.Html.Grouping
import MarkupArena.Schema.Html.Phrasing
import MarkupArena.Schema.Html.Sections
import MarkupArena.Schema.Html.Tables
import MarkupArena.Schema.Html.Values
import MarkupArena.Schema.Tag
import MarkupArena.Text.AttributeName
import MarkupArena.Text.Blank
import MarkupArena.Text.Escape
import MarkupArena.Text.Units
import MarkupArena.Walk.Content
import MarkupArena.Walk.Cursor
import MarkupArena.World.Basic
import MarkupArena.World.Failure
import MarkupArena.World.Handle
import MarkupArena.World.Node
import MarkupArena.World.Ownership
import MarkupArena.World.Store
import MarkupArena.World.Trace
import MarkupArena.Proofs.Links
import MarkupArena.Proofs.Steps
import MarkupArena.Proofs.Client
import MarkupArena.Proofs.Making
import MarkupArena.Proofs.Runs
import MarkupArena.Proofs.HandleSafety
import MarkupArena.Proofs.Issued
import MarkupArena.Proofs.Members
import MarkupArena.Proofs.SoundMarkup
import MarkupArena.Proofs.Trees
import MarkupArena.Proofs.Rewriting
import MarkupArena.Proofs.Depth
import MarkupArena.Proofs.Traversal
import MarkupArena.Proofs.Caching
import MarkupArena.Proofs.Views
import MarkupArena.Proofs.Persistence
import MarkupArena.Proofs.StorageOrder
import MarkupArena.Proofs.Ending
import MarkupArena.Proofs.Acyclic
import MarkupArena.Proofs.Tokens
import MarkupArena.Proofs.Decoding
import MarkupArena.Proofs.Custody
import MarkupArena.Proofs.Agreement
import MarkupArena.Proofs.Twins
import MarkupArena.Proofs.Mirroring
import MarkupArena.Proofs.Pooling
import MarkupArena.Proofs.Crossing
import MarkupArena.Proofs.Lifetime
import MarkupArena.Proofs.Reuse
import MarkupArena.Proofs.Lending
import MarkupArena.Proofs.Holding
import MarkupArena.Proofs.Recency
import MarkupArena.Proofs.Remembering
import MarkupArena.Proofs.Rebuilding
import MarkupArena.Proofs.Drafts
import MarkupArena.Proofs.Scanning
import MarkupArena.Proofs.Nesting
import MarkupArena.Proofs.Adopting
import MarkupArena.Proofs.ContentModel
import MarkupArena.Proofs.Likeness
import MarkupArena.Proofs.Unchecked
import MarkupArena.Proofs.Programs
import MarkupArena.Proofs.Tracing
import MarkupArena.Proofs.CallSites
import MarkupArena.Proofs.Gains
import MarkupArena.Proofs.Sharing
import MarkupArena.Proofs.Composing
import MarkupArena.Proofs.Appending
import MarkupArena.Proofs.Obstacles
import MarkupArena.Proofs.Refusals
import MarkupArena.Proofs.Transparency
import MarkupArena.Proofs.Sights
import MarkupArena.Proofs.Dangling
import MarkupArena.Proofs.Pruning
import MarkupArena.Proofs.Filtering
import MarkupArena.Proofs.RawText
import MarkupArena.Proofs.TextLoss
import MarkupArena.Proofs.Owned
import MarkupArena.Proofs.Grafting
import MarkupArena.Proofs.Documents
import MarkupArena.Proofs.TextRule
import MarkupArena.Proofs.Budgets
import MarkupArena.Proofs.Borrowing
import MarkupArena.Proofs.Chronicles
import MarkupArena.Proofs.Tidings
import MarkupArena.Proofs.Bookkeeping
import MarkupArena.Proofs.Accounts
import MarkupArena.Proofs.Splitting
import MarkupArena.Proofs.Layout
import MarkupArena.Proofs.Recovering
import MarkupArena.Proofs.Escaping
import MarkupArena.Proofs.Searching
import MarkupArena.Proofs.Enumerating
import MarkupArena.Proofs.Normalizing
