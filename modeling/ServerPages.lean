import ServerPages.Application
import ServerPages.Assets
import ServerPages.Binding.Bind
import ServerPages.Binding.Carrier
import ServerPages.Binding.Inject
import ServerPages.Binding.Scope
import ServerPages.Binding.Script
import ServerPages.Cache
import ServerPages.Click.Call
import ServerPages.Controller.Class
import ServerPages.Controller.Handler
import ServerPages.Controller.Parameters
import ServerPages.Controller.Registry
import ServerPages.Decimal.Binary64
import ServerPages.Decimal.Shortest
import ServerPages.Demo
import ServerPages.Dictionary
import ServerPages.Document.Basic
import ServerPages.Document.Edit
import ServerPages.Document.Match
import ServerPages.Document.Printer
import ServerPages.Document.Procedure
import ServerPages.Event.Descriptor
import ServerPages.Event.Reply
import ServerPages.Failure
import ServerPages.Forest
import ServerPages.Http.Message
import ServerPages.Http.Request
import ServerPages.Http.Response
import ServerPages.Json.Basic
import ServerPages.Json.Decode
import ServerPages.Json.Reader
import ServerPages.Json.Writer
import ServerPages.Lifecycle.Deliver
import ServerPages.Lifecycle.Instance
import ServerPages.Lifecycle.Open
import ServerPages.Loader.Load
import ServerPages.Loader.Preload
import ServerPages.Loader.Source
import ServerPages.Main
import ServerPages.Markup.Construction.Accept
import ServerPages.Markup.Construction.Body
import ServerPages.Markup.Construction.Formatting
import ServerPages.Markup.Construction.Head
import ServerPages.Markup.Construction.Select
import ServerPages.Markup.Construction.State
import ServerPages.Markup.Construction.Table
import ServerPages.Markup.ElementName
import ServerPages.Markup.Escape
import ServerPages.Markup.Foreign
import ServerPages.Markup.LegacyDoctype
import ServerPages.Markup.Parser
import ServerPages.Markup.Reference
import ServerPages.Markup.Token.Basic
import ServerPages.Markup.Token.Declaration
import ServerPages.Markup.Token.RawText
import ServerPages.Markup.Token.Scan
import ServerPages.Markup.Token.Tag
import ServerPages.Markup.Tree
import ServerPages.Page.Basic
import ServerPages.Page.Control
import ServerPages.Page.Populate
import ServerPages.Path
import ServerPages.Procedure
import ServerPages.Proofs.Binding.Carriers
import ServerPages.Proofs.Binding.Delimited
import ServerPages.Proofs.Binding.Effects
import ServerPages.Proofs.Binding.Frame
import ServerPages.Proofs.Binding.Histories
import ServerPages.Proofs.Binding.Identifiers
import ServerPages.Proofs.Binding.Independence
import ServerPages.Proofs.Binding.Literal
import ServerPages.Proofs.Binding.Marks
import ServerPages.Proofs.Binding.Ownership
import ServerPages.Proofs.Binding.Progress
import ServerPages.Proofs.Binding.Replay
import ServerPages.Proofs.Binding.Resolution
import ServerPages.Proofs.Binding.Scopes
import ServerPages.Proofs.Binding.Steps
import ServerPages.Proofs.Binding.Submission
import ServerPages.Proofs.Binding.Tables
import ServerPages.Proofs.Binding.Upkeep
import ServerPages.Proofs.Cache.Calls
import ServerPages.Proofs.Cache.Entries
import ServerPages.Proofs.Caching.Anew
import ServerPages.Proofs.Caching.Concurrent
import ServerPages.Proofs.Caching.Preloading
import ServerPages.Proofs.Caching.Remembered
import ServerPages.Proofs.Caching.Steady
import ServerPages.Proofs.Caching.Transparent
import ServerPages.Proofs.Click.Cuts
import ServerPages.Proofs.Click.Rewriting
import ServerPages.Proofs.Controller.Precedence
import ServerPages.Proofs.Demo.Counting
import ServerPages.Proofs.Demo.Panel
import ServerPages.Proofs.Dictionary
import ServerPages.Proofs.Document.Alike
import ServerPages.Proofs.Document.Altered
import ServerPages.Proofs.Document.Anchored
import ServerPages.Proofs.Document.Attributes
import ServerPages.Proofs.Document.Conforming
import ServerPages.Proofs.Document.Decoding
import ServerPages.Proofs.Document.Edits
import ServerPages.Proofs.Document.Foreign
import ServerPages.Proofs.Document.Imports
import ServerPages.Proofs.Document.Injection
import ServerPages.Proofs.Document.Moves
import ServerPages.Proofs.Document.Operations
import ServerPages.Proofs.Document.Reachable
import ServerPages.Proofs.Document.Refusals
import ServerPages.Proofs.Document.Reparsing
import ServerPages.Proofs.Document.Rooted
import ServerPages.Proofs.Document.Searches
import ServerPages.Proofs.Document.ServerMarks
import ServerPages.Proofs.Document.Sweeps
import ServerPages.Proofs.Document.Template
import ServerPages.Proofs.Document.Upkeep
import ServerPages.Proofs.Document.Writing
import ServerPages.Proofs.Event.Agreement
import ServerPages.Proofs.Event.Changes
import ServerPages.Proofs.Event.Wire
import ServerPages.Proofs.Forest.Alike
import ServerPages.Proofs.Forest.Growth
import ServerPages.Proofs.Forest.Links
import ServerPages.Proofs.Forest.Walks
import ServerPages.Proofs.Forest.WellFormed
import ServerPages.Proofs.Json.Changes
import ServerPages.Proofs.Json.Numbers
import ServerPages.Proofs.Json.Reading
import ServerPages.Proofs.Lifecycle.Concealing
import ServerPages.Proofs.Lifecycle.Courses
import ServerPages.Proofs.Lifecycle.Dispatch
import ServerPages.Proofs.Lifecycle.Documents
import ServerPages.Proofs.Lifecycle.Handling
import ServerPages.Proofs.Lifecycle.Heeding
import ServerPages.Proofs.Lifecycle.Notes
import ServerPages.Proofs.Lifecycle.Order
import ServerPages.Proofs.Lifecycle.Recording
import ServerPages.Proofs.Lifecycle.Reliable
import ServerPages.Proofs.Lifecycle.Upholding
import ServerPages.Proofs.Markup.Attributes
import ServerPages.Proofs.Markup.ScriptText
import ServerPages.Proofs.Markup.Tidy
import ServerPages.Proofs.Markup.TidyRules
import ServerPages.Proofs.Markup.Trees
import ServerPages.Proofs.Markup.Unescape
import ServerPages.Proofs.Page.Fields
import ServerPages.Proofs.Page.Populate
import ServerPages.Proofs.Procedure
import ServerPages.Proofs.Routing
import ServerPages.Proofs.Server.Shapes
import ServerPages.Proofs.Text
import ServerPages.Proofs.Url.Queries
import ServerPages.Proofs.Views.Confined
import ServerPages.Request
import ServerPages.Routing
import ServerPages.Scripted.Action
import ServerPages.Scripted.Controller
import ServerPages.Server.Respond
import ServerPages.Settings.Basic
import ServerPages.Settings.CommandLine
import ServerPages.Settings.Environment
import ServerPages.Store
import ServerPages.Text.Ascii
import ServerPages.Text.Blank
import ServerPages.Text.Integer
import ServerPages.Text.Printable
import ServerPages.Text.Quoted
import ServerPages.Text.Split
import ServerPages.Text.Utf8
import ServerPages.Url.Form
import ServerPages.Url.Percent
import ServerPages.Views.Basic
import ServerPages.Views.FileName
