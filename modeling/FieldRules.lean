import FieldRules.Bag
import FieldRules.Bag.Step
import FieldRules.Builtin
import FieldRules.Calendar
import FieldRules.Catalog
import FieldRules.Checks.Address
import FieldRules.Checks.Characters
import FieldRules.Checks.Convert
import FieldRules.Checks.Dimensions
import FieldRules.Checks.Form
import FieldRules.Checks.Length
import FieldRules.Checks.Network
import FieldRules.Checks.Numeric
import FieldRules.Checks.Uploads
import FieldRules.Command.Arguments
import FieldRules.Command.Run
import FieldRules.Config
import FieldRules.Definition
import FieldRules.Definition.Offer
import FieldRules.Dictionary
import FieldRules.Dispatch
import FieldRules.Engine
import FieldRules.Engine.Job
import FieldRules.Fault
import FieldRules.Folder
import FieldRules.Host
import FieldRules.Host.Step
import FieldRules.Image.Size
import FieldRules.Json
import FieldRules.LocaleFile
import FieldRules.Main
import FieldRules.Message
import FieldRules.Number.Binary64
import FieldRules.Number.Reading
import FieldRules.Number.Shortest
import FieldRules.Owners
import FieldRules.Path
import FieldRules.Pattern.Basic
import FieldRules.Pattern.CharSet
import FieldRules.Pattern.Escape
import FieldRules.Pattern.Reader
import FieldRules.Pattern.Search
import FieldRules.Proofs.Text.Trim
import FieldRules.Rule
import FieldRules.Scoped
import FieldRules.Table
import FieldRules.Template
import FieldRules.Text.Base64
import FieldRules.Text.Blank
import FieldRules.Text.Case
import FieldRules.Text.Digit
import FieldRules.Text.Identifier
import FieldRules.Text.Letter
import FieldRules.Text.Numeric
import FieldRules.Text.Printable
import FieldRules.Text.Quoted
import FieldRules.Text.Ranges
import FieldRules.Text.Surrogates
import FieldRules.Text.Utf8
import FieldRules.Validator
import FieldRules.Value
import FieldRules.Value.Key
import FieldRules.YamlReader
import FieldRules.Yaml.Content
import FieldRules.Yaml.Layout
import FieldRules.Yaml.Node
import FieldRules.Yaml.Property
import FieldRules.Yaml.Reader
import FieldRules.Yaml.Scalar
import FieldRules.Yaml.Source
import FieldRules.Yaml.Tag
import FieldRules.Yaml.Token
import FieldRules.Proofs.Rule.RoundTrip
import FieldRules.Proofs.Rule.Spacing
import FieldRules.Proofs.Bag.Blocks
import FieldRules.Proofs.Bag.Order
import FieldRules.Proofs.Table
import FieldRules.Proofs.Engine.Validation
import FieldRules.Proofs.Engine.Course
import FieldRules.Proofs.Engine.Move
import FieldRules.Proofs.Engine.Steps
import FieldRules.Proofs.Engine.Latest
import FieldRules.Proofs.Engine.Shape
import FieldRules.Proofs.Engine.Settling
import FieldRules.Proofs.Engine.Exchange
import FieldRules.Proofs.Engine.AtOnce
import FieldRules.Proofs.Engine.Canonical
import FieldRules.Proofs.Engine.Mirror
import FieldRules.Proofs.Engine.Contained
import FieldRules.Proofs.Host.Frame
import FieldRules.Proofs.Host.Log
import FieldRules.Proofs.Host.Without
import FieldRules.Proofs.Host.Owners
import FieldRules.Proofs.Host.AtRest
import FieldRules.Proofs.Host.StepWithout
import FieldRules.Proofs.Host.Handles
import FieldRules.Proofs.Host.Apart
import FieldRules.Proofs.Host.Registrations
import FieldRules.Proofs.Host.Follows
import FieldRules.Proofs.Host.Settle
import FieldRules.Proofs.Host.Courses
import FieldRules.Proofs.Dictionary
import FieldRules.Proofs.Catalog.Register
import FieldRules.Proofs.Catalog.Moved
import FieldRules.Proofs.Engine.Own
import FieldRules.Proofs.Host.Own
import FieldRules.Proofs.Command.Failing
import FieldRules.Proofs.Command.Settled
import FieldRules.Proofs.Command.Check
import FieldRules.Proofs.Command.Keys
import FieldRules.Proofs.LocaleFile
import FieldRules.Proofs.Host.Messages
import FieldRules.Proofs.Host.Locales
import FieldRules.Proofs.Host.Tenures
import FieldRules.Proofs.Engine.Invocations
import FieldRules.Proofs.Engine.Places
import FieldRules.Proofs.Engine.FieldTable
import FieldRules.Proofs.Bag.Listed
import FieldRules.Proofs.Bag.Runs
import FieldRules.Proofs.Text.Case
import FieldRules.Proofs.Number.Written
import FieldRules.Proofs.Checks.Passing
import FieldRules.Proofs.Checks.Form
import FieldRules.Proofs.Checks.Digits
import FieldRules.Proofs.Checks.WebAddress
import FieldRules.Proofs.Checks.MailAddress
import FieldRules.Proofs.Checks.Uploads
import FieldRules.Proofs.Checks.Dimensions
import FieldRules.Proofs.Template
import FieldRules.Proofs.Resolution
import FieldRules.Proofs.Pattern.Words
import FieldRules.Proofs.Pattern.Escape
import FieldRules.Proofs.Pattern.Alternatives
import FieldRules.Proofs.Engine.Tasks
import FieldRules.Proofs.Fault
import FieldRules.Proofs.Text.Sorted
import FieldRules.Proofs.Dictionary.Locales
import FieldRules.Proofs.Dictionary.Merge
import FieldRules.Proofs.Definition.Offer
import FieldRules.Proofs.Yaml.Content
import FieldRules.Proofs.Yaml.Keys
import FieldRules.Proofs.LocaleFile.Shapes
import FieldRules.Proofs.Folder
import FieldRules.Proofs.LocaleFile.Directory
import FieldRules.Proofs.LocaleFile.Escaping
import FieldRules.Proofs.Command.Locales
import FieldRules.Proofs.Bag.Views
import FieldRules.Proofs.Checks.Length
import FieldRules.Proofs.Engine.Generations
