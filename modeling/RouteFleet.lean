import RouteFleet.Command.Error
import RouteFleet.Command.Request
import RouteFleet.Command.Run
import RouteFleet.Command.Words
import RouteFleet.Compile
import RouteFleet.Credential.Bcrypt
import RouteFleet.Credential.Blowfish
import RouteFleet.Credential.Hasher
import RouteFleet.Credential.PiDigits
import RouteFleet.Decimal.Binary64
import RouteFleet.Dict
import RouteFleet.Fields
import RouteFleet.File.Error
import RouteFleet.File.Path
import RouteFleet.File.System
import RouteFleet.Fleet.Basic
import RouteFleet.Fleet.Bootstrap
import RouteFleet.Fleet.Bulk
import RouteFleet.Fleet.Error
import RouteFleet.Glob.Discover
import RouteFleet.Glob.Pattern
import RouteFleet.Graph.Basic
import RouteFleet.Graph.Document
import RouteFleet.Graph.Edit
import RouteFleet.Graph.Text
import RouteFleet.Hcl.Body
import RouteFleet.Hcl.Expression
import RouteFleet.Hcl.Object
import RouteFleet.Hcl.Reader
import RouteFleet.Hcl.Reading
import RouteFleet.Hcl.Template
import RouteFleet.Hcl.Word
import RouteFleet.Json.Printer
import RouteFleet.Json.Reader
import RouteFleet.Json.Token
import RouteFleet.Json.Value
import RouteFleet.Machine.Disk
import RouteFleet.Machine.Network
import RouteFleet.Main
import RouteFleet.Projection
import RouteFleet.Proofs.Compile
import RouteFleet.Proofs.Credentials
import RouteFleet.Proofs.Decimal.Binary64
import RouteFleet.Proofs.Decimal.Ratio
import RouteFleet.Proofs.Decimal.Shortest
import RouteFleet.Proofs.Decimal.Text
import RouteFleet.Proofs.Dict
import RouteFleet.Proofs.Fields
import RouteFleet.Proofs.File.Path
import RouteFleet.Proofs.File.System
import RouteFleet.Proofs.Fleet.Access
import RouteFleet.Proofs.Fleet.Atomic
import RouteFleet.Proofs.Fleet.Bootstrap
import RouteFleet.Proofs.Fleet.Commute
import RouteFleet.Proofs.Fleet.Descent
import RouteFleet.Proofs.Fleet.Edit
import RouteFleet.Proofs.Fleet.Everywhere
import RouteFleet.Proofs.Fleet.ForwardAuth
import RouteFleet.Proofs.Fleet.Maintain
import RouteFleet.Proofs.Fleet.Migrate
import RouteFleet.Proofs.Fleet.MovedGuards
import RouteFleet.Proofs.Fleet.Names
import RouteFleet.Proofs.Fleet.Order
import RouteFleet.Proofs.Fleet.Outcome
import RouteFleet.Proofs.Fleet.Preserve
import RouteFleet.Proofs.Fleet.Resubmit
import RouteFleet.Proofs.Fleet.Run
import RouteFleet.Proofs.Fleet.Shared
import RouteFleet.Proofs.Fleet.Visible
import RouteFleet.Proofs.Glob.Discover
import RouteFleet.Proofs.Glob.Pattern
import RouteFleet.Proofs.Glob.Walk
import RouteFleet.Proofs.Graph.Agree
import RouteFleet.Proofs.Graph.Belongs
import RouteFleet.Proofs.Graph.Commute
import RouteFleet.Proofs.Graph.Dangling
import RouteFleet.Proofs.Graph.Edit
import RouteFleet.Proofs.Graph.Managed
import RouteFleet.Proofs.Graph.Moved
import RouteFleet.Proofs.Graph.Named
import RouteFleet.Proofs.Graph.Reader
import RouteFleet.Proofs.Graph.Record
import RouteFleet.Proofs.Graph.Rename
import RouteFleet.Proofs.Graph.RoundTrip
import RouteFleet.Proofs.Graph.Shown
import RouteFleet.Proofs.Graph.Sound
import RouteFleet.Proofs.Graph.Spelling
import RouteFleet.Proofs.Graph.Text
import RouteFleet.Proofs.Hcl.Body
import RouteFleet.Proofs.Hcl.Line
import RouteFleet.Proofs.Hcl.Quoted
import RouteFleet.Proofs.Hcl.Reader
import RouteFleet.Proofs.Hcl.Reading
import RouteFleet.Proofs.Json.Literal
import RouteFleet.Proofs.Json.Reader
import RouteFleet.Proofs.List
import RouteFleet.Proofs.Passage
import RouteFleet.Proofs.Projection
import RouteFleet.Proofs.Recompile
import RouteFleet.Proofs.Route.Document
import RouteFleet.Proofs.Route.Shown
import RouteFleet.Proofs.Route.Valid
import RouteFleet.Proofs.Settings.Document
import RouteFleet.Proofs.Settings.Starter
import RouteFleet.Proofs.Store.Change
import RouteFleet.Proofs.Store.Discovery
import RouteFleet.Proofs.Store.Listing
import RouteFleet.Proofs.Store.Names
import RouteFleet.Proofs.Store.Order
import RouteFleet.Proofs.Store.Path
import RouteFleet.Proofs.Store.Reserved
import RouteFleet.Proofs.Text.Bytes
import RouteFleet.Proofs.Text.Digits
import RouteFleet.Proofs.Text.Replace
import RouteFleet.Proofs.Text.Split
import RouteFleet.Proofs.Validation.Report
import RouteFleet.Proofs.Validation.Shape
import RouteFleet.Proofs.Yaml.Block
import RouteFleet.Proofs.Yaml.Content
import RouteFleet.Proofs.Yaml.Cursor
import RouteFleet.Proofs.Yaml.Document
import RouteFleet.Proofs.Yaml.Gap
import RouteFleet.Proofs.Yaml.Key
import RouteFleet.Proofs.Yaml.Leaf
import RouteFleet.Proofs.Yaml.Literal
import RouteFleet.Proofs.Yaml.Meaning
import RouteFleet.Proofs.Yaml.Number
import RouteFleet.Proofs.Yaml.Parser
import RouteFleet.Proofs.Yaml.Plain
import RouteFleet.Proofs.Yaml.Printable
import RouteFleet.Proofs.Yaml.Quoted
import RouteFleet.Proofs.Yaml.Round
import RouteFleet.Proofs.Yaml.Scalar
import RouteFleet.Proofs.Yaml.Size
import RouteFleet.Proofs.Yaml.Sound
import RouteFleet.Proofs.Yaml.Style
import RouteFleet.Proofs.Yaml.Tag
import RouteFleet.Proofs.Yaml.Tokens
import RouteFleet.Reach
import RouteFleet.Route.Basic
import RouteFleet.Route.Document
import RouteFleet.Route.Summary
import RouteFleet.RouteId
import RouteFleet.Settings.Basic
import RouteFleet.Settings.Document
import RouteFleet.Settings.Error
import RouteFleet.Settings.Load
import RouteFleet.Settings.Starter
import RouteFleet.SharedMiddlewares
import RouteFleet.Store.Basic
import RouteFleet.Store.Error
import RouteFleet.Text.CharClass
import RouteFleet.Text.Composition
import RouteFleet.Text.Direction
import RouteFleet.Text.Identifier
import RouteFleet.Text.Joining
import RouteFleet.Text.Mark
import RouteFleet.Text.Split
import RouteFleet.Text.Style
import RouteFleet.Url.Basic
import RouteFleet.Url.Domain
import RouteFleet.Url.Error
import RouteFleet.Url.Folding
import RouteFleet.Url.Host
import RouteFleet.Url.Label
import RouteFleet.Url.Spelling
import RouteFleet.Validation.Check
import RouteFleet.Validation.Field
import RouteFleet.Validation.Report
import RouteFleet.Validation.Rule
import RouteFleet.Yaml.Alias
import RouteFleet.Yaml.Cursor
import RouteFleet.Yaml.Node
import RouteFleet.Yaml.Printer
import RouteFleet.Yaml.Scalar
import RouteFleet.Yaml.Style
import RouteFleet.Yaml.Token.Basic
import RouteFleet.Yaml.Token.Property
import RouteFleet.Yaml.Token.Scalar
import RouteFleet.Yaml.Token.Scan
import RouteFleet.Yaml.Tree
import RouteFleet.Yaml.Value
