import Templating.Bindings
import Templating.Cache.Basic
import Templating.Cache.Index
import Templating.Cache.Keys
import Templating.Cache.Plan
import Templating.Cache.Session
import Templating.Cache.Sweeper
import Templating.Cache.Timings
import Templating.CommandLine.Form
import Templating.CommandLine.Help
import Templating.CommandLine.Option
import Templating.CommandLine.Read
import Templating.CommandLine.Request
import Templating.CommandLine.Stop
import Templating.Composition
import Templating.Decimal.Shortest
import Templating.Decimal.Style
import Templating.Digest.Sha256
import Templating.Engine.Basic
import Templating.Engine.Entry
import Templating.Engine.Groups
import Templating.Engine.Lookup
import Templating.Engine.Partials
import Templating.Engine.Poller
import Templating.Engine.Resolve
import Templating.Error
import Templating.Failure
import Templating.Folders
import Templating.Group
import Templating.Host
import Templating.Journal
import Templating.Json.Basic
import Templating.Json.Number
import Templating.Json.Reader
import Templating.Json.Token
import Templating.Json.Writer
import Templating.Main
import Templating.Program
import Templating.Proofs.Bindings
import Templating.Proofs.ByteOrder
import Templating.Proofs.Cache.Accounts
import Templating.Proofs.Cache.Asking
import Templating.Proofs.Cache.Checking
import Templating.Proofs.Cache.Commons
import Templating.Proofs.Cache.Eviction
import Templating.Proofs.Cache.Expiry
import Templating.Proofs.Cache.Index
import Templating.Proofs.Cache.Insertion
import Templating.Proofs.Cache.Lasting
import Templating.Proofs.Cache.Latest
import Templating.Proofs.Cache.Leavers
import Templating.Proofs.Cache.Linked
import Templating.Proofs.Cache.Lull
import Templating.Proofs.Cache.Outlook
import Templating.Proofs.Cache.Reads
import Templating.Proofs.Cache.Settle
import Templating.Proofs.Cache.Standing
import Templating.Proofs.Cache.Steady
import Templating.Proofs.Cache.Steps
import Templating.Proofs.Cache.Sturdy
import Templating.Proofs.Cache.Sweeping
import Templating.Proofs.Cache.Tidy
import Templating.Proofs.Cache.Upheld
import Templating.Proofs.Cache.Upkeep
import Templating.Proofs.Cache.Usage
import Templating.Proofs.Cache.Watchful
import Templating.Proofs.Casing
import Templating.Proofs.Composition
import Templating.Proofs.Conversion
import Templating.Proofs.Cutting
import Templating.Proofs.Engine.Answers
import Templating.Proofs.Engine.Apart
import Templating.Proofs.Engine.Bystanders
import Templating.Proofs.Engine.Chains
import Templating.Proofs.Engine.Change
import Templating.Proofs.Engine.Clearing
import Templating.Proofs.Engine.Cold
import Templating.Proofs.Engine.Collisions
import Templating.Proofs.Engine.Comparing
import Templating.Proofs.Engine.Consulting
import Templating.Proofs.Engine.Counting
import Templating.Proofs.Engine.Coverage
import Templating.Proofs.Engine.Fates
import Templating.Proofs.Engine.Filing
import Templating.Proofs.Engine.Fingerprint
import Templating.Proofs.Engine.Fitted
import Templating.Proofs.Engine.Fresh
import Templating.Proofs.Engine.Groups
import Templating.Proofs.Engine.Guarding
import Templating.Proofs.Engine.Guild
import Templating.Proofs.Engine.Hanging
import Templating.Proofs.Engine.House
import Templating.Proofs.Engine.Keys
import Templating.Proofs.Engine.Ledger
import Templating.Proofs.Engine.Likewise
import Templating.Proofs.Engine.Listening
import Templating.Proofs.Engine.Mirror
import Templating.Proofs.Engine.Moored
import Templating.Proofs.Engine.Naming
import Templating.Proofs.Engine.Plain
import Templating.Proofs.Engine.Poised
import Templating.Proofs.Engine.Polled
import Templating.Proofs.Engine.Precedence
import Templating.Proofs.Engine.Proper
import Templating.Proofs.Engine.Readings
import Templating.Proofs.Engine.Rearming
import Templating.Proofs.Engine.Repeats
import Templating.Proofs.Engine.Reporting
import Templating.Proofs.Engine.Resolve
import Templating.Proofs.Engine.Rooming
import Templating.Proofs.Engine.Service
import Templating.Proofs.Engine.Snapshot
import Templating.Proofs.Engine.Sound
import Templating.Proofs.Engine.Stacks
import Templating.Proofs.Engine.Stocked
import Templating.Proofs.Engine.Tended
import Templating.Proofs.Engine.Thrift
import Templating.Proofs.Engine.Tidings
import Templating.Proofs.Engine.Twins
import Templating.Proofs.Engine.Walks
import Templating.Proofs.Engine.Work
import Templating.Proofs.Engine.Workshop
import Templating.Proofs.Sections
import Templating.Proofs.Settings
import Templating.Proofs.Signal
import Templating.Proofs.Sorted
import Templating.Proofs.Source.Canonical
import Templating.Proofs.Source.Change
import Templating.Proofs.Source.Confined
import Templating.Proofs.Source.Entries
import Templating.Proofs.Source.Following
import Templating.Proofs.Source.Formed
import Templating.Proofs.Source.Handouts
import Templating.Proofs.Source.Hearing
import Templating.Proofs.Source.Inventory
import Templating.Proofs.Source.Issuing
import Templating.Proofs.Source.Listing
import Templating.Proofs.Source.Observing
import Templating.Proofs.Source.Sheltered
import Templating.Proofs.Source.Truthful
import Templating.Proofs.Table
import Templating.Proofs.Template.Declaration
import Templating.Proofs.Template.Lines
import Templating.Proofs.Template.Marker
import Templating.Proofs.Template.Outcome
import Templating.Scene
import Templating.Sections
import Templating.Settings.Basic
import Templating.Settings.Draft
import Templating.Settings.Load
import Templating.Settings.LogLevel
import Templating.Settings.Overlay
import Templating.Settings.Reading
import Templating.Signal
import Templating.Sorted
import Templating.Source.Basic
import Templating.Source.Directory
import Templating.Source.Error
import Templating.Source.Memory
import Templating.Source.Observed
import Templating.Source.Path
import Templating.Source.Store
import Templating.Source.Tree
import Templating.Table
import Templating.Template.Compiled
import Templating.Template.Declaration
import Templating.Template.Eval
import Templating.Template.Expr
import Templating.Template.Lexeme
import Templating.Template.Library
import Templating.Template.Literal
import Templating.Template.Node
import Templating.Template.Parts
import Templating.Template.Problem
import Templating.Template.Render
import Templating.Template.Segment
import Templating.Template.Trail
import Templating.Template.Value
import Templating.Text.Blank
import Templating.Text.Case
import Templating.Text.Count
import Templating.Text.Cut
import Templating.Text.Escape
import Templating.Text.Hex
import Templating.Text.Hidden
import Templating.Text.Utf8
