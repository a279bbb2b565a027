import ViewMarkup.Binding
import ViewMarkup.Build.Document
import ViewMarkup.Build.Element
import ViewMarkup.Build.Open
import ViewMarkup.Build.Progress
import ViewMarkup.Color.Basic
import ViewMarkup.Color.Literal
import ViewMarkup.Color.Name
import ViewMarkup.Component.Capabilities
import ViewMarkup.Component.Class
import ViewMarkup.Component.Definition
import ViewMarkup.Component.Linearization
import ViewMarkup.Component.Operation
import ViewMarkup.Component.Property
import ViewMarkup.Component.Registry
import ViewMarkup.Construction
import ViewMarkup.Decimal.Binary64
import ViewMarkup.Decimal.Literal
import ViewMarkup.Decimal.Notation
import ViewMarkup.Decimal.Shortest
import ViewMarkup.Decoder
import ViewMarkup.Demo.Profile
import ViewMarkup.Document
import ViewMarkup.Enumeration
import ViewMarkup.Failure
import ViewMarkup.Fetch
import ViewMarkup.Files
import ViewMarkup.Font
import ViewMarkup.Json
import ViewMarkup.Literal
import ViewMarkup.Object.Assign
import ViewMarkup.Object.Attribute
import ViewMarkup.Object.Blueprint
import ViewMarkup.Object.Collection
import ViewMarkup.Object.Reach
import ViewMarkup.Object.Scene
import ViewMarkup.Object.Snapshot
import ViewMarkup.Object.Store
import ViewMarkup.Object.Tree
import ViewMarkup.Path
import ViewMarkup.Position
import ViewMarkup.Proofs.Binding.Acceptance
import ViewMarkup.Proofs.Binding.History
import ViewMarkup.Proofs.Binding.Ledger
import ViewMarkup.Proofs.Binding.Notification
import ViewMarkup.Proofs.Binding.Propagation
import ViewMarkup.Proofs.Binding.Simulation
import ViewMarkup.Proofs.Build.Addressed
import ViewMarkup.Proofs.Build.Altered
import ViewMarkup.Proofs.Build.AppendSites
import ViewMarkup.Proofs.Build.Appending
import ViewMarkup.Proofs.Build.Assigned
import ViewMarkup.Proofs.Build.Attributes
import ViewMarkup.Proofs.Build.Calls
import ViewMarkup.Proofs.Build.Commit
import ViewMarkup.Proofs.Build.DocumentsAtHand
import ViewMarkup.Proofs.Build.ExpandedBuild
import ViewMarkup.Proofs.Build.Expansion
import ViewMarkup.Proofs.Build.FailedBuild
import ViewMarkup.Proofs.Build.Framed
import ViewMarkup.Proofs.Build.Granted
import ViewMarkup.Proofs.Build.HandOver
import ViewMarkup.Proofs.Build.Hooked
import ViewMarkup.Proofs.Build.Idle
import ViewMarkup.Proofs.Build.IncludeStack
import ViewMarkup.Proofs.Build.Journal
import ViewMarkup.Proofs.Build.Lasting
import ViewMarkup.Proofs.Build.Lockstep
import ViewMarkup.Proofs.Build.LookedUp
import ViewMarkup.Proofs.Build.Moves
import ViewMarkup.Proofs.Build.Named
import ViewMarkup.Proofs.Build.Nesting
import ViewMarkup.Proofs.Build.NewInstances
import ViewMarkup.Proofs.Build.Outlined
import ViewMarkup.Proofs.Build.Paired
import ViewMarkup.Proofs.Build.Places
import ViewMarkup.Proofs.Build.Plain
import ViewMarkup.Proofs.Build.Reordered
import ViewMarkup.Proofs.Build.Renumbered
import ViewMarkup.Proofs.Build.Requests
import ViewMarkup.Proofs.Build.Sample
import ViewMarkup.Proofs.Build.Stages
import ViewMarkup.Proofs.Build.Tally
import ViewMarkup.Proofs.Build.Termination
import ViewMarkup.Proofs.Build.Thinned
import ViewMarkup.Proofs.Build.Tour
import ViewMarkup.Proofs.Build.TwinCommit
import ViewMarkup.Proofs.Build.Walk
import ViewMarkup.Proofs.Build.WithoutOutlets
import ViewMarkup.Proofs.Color.Aliases
import ViewMarkup.Proofs.Color.Checked
import ViewMarkup.Proofs.Color.Literal
import ViewMarkup.Proofs.Color.RoundTrip
import ViewMarkup.Proofs.Component.Ahead
import ViewMarkup.Proofs.Component.Extension
import ViewMarkup.Proofs.Component.Isolation
import ViewMarkup.Proofs.Component.Listing
import ViewMarkup.Proofs.Component.Loading
import ViewMarkup.Proofs.Component.Properties
import ViewMarkup.Proofs.Component.Resolution
import ViewMarkup.Proofs.Component.Supported
import ViewMarkup.Proofs.Decimal.Double
import ViewMarkup.Proofs.Decimal.Literal
import ViewMarkup.Proofs.Decimal.Overflow
import ViewMarkup.Proofs.Decimal.Rounding
import ViewMarkup.Proofs.Document.Names
import ViewMarkup.Proofs.Fetch
import ViewMarkup.Proofs.Finite
import ViewMarkup.Proofs.Font
import ViewMarkup.Proofs.Member
import ViewMarkup.Proofs.Object.Access
import ViewMarkup.Proofs.Object.Cell
import ViewMarkup.Proofs.Object.Declared
import ViewMarkup.Proofs.Object.Footprint
import ViewMarkup.Proofs.Object.Fresh
import ViewMarkup.Proofs.Object.PathEnd
import ViewMarkup.Proofs.Object.Reachability
import ViewMarkup.Proofs.Object.Twin
import ViewMarkup.Proofs.Object.Ways
import ViewMarkup.Proofs.Plain
import ViewMarkup.Proofs.Resource.History
import ViewMarkup.Proofs.Table
import ViewMarkup.Proofs.Text.Case
import ViewMarkup.Proofs.Text.Trim
import ViewMarkup.Proofs.Text.Words
import ViewMarkup.Proofs.Treads
import ViewMarkup.Proofs.View.Containers
import ViewMarkup.Proofs.View.LineFeeds
import ViewMarkup.Proofs.View.Lines
import ViewMarkup.Proofs.View.Outline
import ViewMarkup.Proofs.View.Pickers
import ViewMarkup.Proofs.View.Plain
import ViewMarkup.Proofs.View.Platforms
import ViewMarkup.Proofs.View.Puts
import ViewMarkup.Proofs.View.Reading
import ViewMarkup.Proofs.View.Receive
import ViewMarkup.Proofs.View.Sections
import ViewMarkup.Proofs.View.Twins
import ViewMarkup.Proofs.Workspace
import ViewMarkup.PropertyPath
import ViewMarkup.Resource
import ViewMarkup.Settings
import ViewMarkup.Table
import ViewMarkup.Text.Blank
import ViewMarkup.Text.Case
import ViewMarkup.Text.Case.Table
import ViewMarkup.Text.DecimalDigit
import ViewMarkup.Text.Identifier
import ViewMarkup.Text.Identifier.Table
import ViewMarkup.Text.Printable
import ViewMarkup.Text.Quoted
import ViewMarkup.Text.RangeTable
import ViewMarkup.Text.Split
import ViewMarkup.Text.Utf8
import ViewMarkup.Toml.Reader
import ViewMarkup.Toml.Tree
import ViewMarkup.Toml.Value
import ViewMarkup.Value
import ViewMarkup.View.Catalog
import ViewMarkup.View.Choice
import ViewMarkup.View.Display
import ViewMarkup.View.Ending
import ViewMarkup.View.Outline
import ViewMarkup.View.Picker
import ViewMarkup.View.Query
import ViewMarkup.View.Receive
import ViewMarkup.View.Sections
import ViewMarkup.Workspace
import ViewMarkup.Written
import ViewMarkup.Xml.Alphabet
import ViewMarkup.Xml.Amplification
import ViewMarkup.Xml.Character
import ViewMarkup.Xml.Content
import ViewMarkup.Xml.Declaration
import ViewMarkup.Xml.Doctype
import ViewMarkup.Xml.Element
import ViewMarkup.Xml.Event
import ViewMarkup.Xml.Problem
import ViewMarkup.Xml.Reader
import ViewMarkup.Xml.Scan
import ViewMarkup.Xml.Source
import ViewMarkup.Xml.Token
import ViewMarkup.Xml.Value
