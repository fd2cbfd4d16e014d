import ActivityScript.Text.Lines
import ActivityScript.Text.Utf8
import ActivityScript.Text.Ranges
import ActivityScript.Text.Printable
import ActivityScript.Text.Digit
import ActivityScript.Text.Blank
import ActivityScript.Text.Quoted
import ActivityScript.Text.Base64
import ActivityScript.Script.Location
import ActivityScript.Script.Token
import ActivityScript.Script.Diagnostic
import ActivityScript.Script.Source
import ActivityScript.Script.Lexer
import ActivityScript.Script.Reading
import ActivityScript.Script.Interleaving
import ActivityScript.Text.Number
import ActivityScript.Script.Registry
import ActivityScript.Script.Node
import ActivityScript.Script.Outline
import ActivityScript.Script.Parser
import ActivityScript.Script.Scope
import ActivityScript.Script.Evaluation
import ActivityScript.Script.Excerpt
import ActivityScript.Host.Errno
import ActivityScript.Host.Path
import ActivityScript.Host.FileSystem
import ActivityScript.Host.Walk
import ActivityScript.Host.Files
import ActivityScript.Address.Endpoint
import ActivityScript.Address.Ip
import ActivityScript.Host.Refusal
import ActivityScript.Host.Network
import ActivityScript.Host.Launcher
import ActivityScript.Host.World
import ActivityScript.Activity.Json
import ActivityScript.Activity.Record
import ActivityScript.Activity.Log
import ActivityScript.Activity.Natives
import ActivityScript.Script.FileExcerpt
import ActivityScript.Decimal.Double
import ActivityScript.Decimal.Shortest
import ActivityScript.Decimal.Reading
import ActivityScript.Settings.Calendar
import ActivityScript.Settings.Value
import ActivityScript.Settings.KeyOrder
import ActivityScript.Yaml.Fault
import ActivityScript.Yaml.Character
import ActivityScript.Yaml.Token
import ActivityScript.Yaml.Kind
import ActivityScript.Yaml.Graph
import ActivityScript.Yaml.Scalar
import ActivityScript.Yaml.Property
import ActivityScript.Yaml.TokenStream
import ActivityScript.Yaml.Document
import ActivityScript.Yaml.Merging
import ActivityScript.Yaml.ScalarValue
import ActivityScript.Yaml.Evaluation
import ActivityScript.Yaml.Reading
import ActivityScript.Settings.Basic
import ActivityScript.Settings.Loading
import ActivityScript.CommandLine.Flag
import ActivityScript.CommandLine.Request
import ActivityScript.CommandLine.Help
import ActivityScript.CommandLine.Inline
import ActivityScript.CommandLine.Run
import ActivityScript.Main
import ActivityScript.Proofs.Text.Lines
import ActivityScript.Proofs.Script.Grammar
import ActivityScript.Proofs.Script.Layout
import ActivityScript.Proofs.Script.Sources
import ActivityScript.Proofs.Script.Faults
import ActivityScript.Proofs.Script.Invocations
import ActivityScript.Proofs.Script.LineByLine
import ActivityScript.Proofs.Script.Concatenation
import ActivityScript.Proofs.Script.Excerpts
import ActivityScript.Proofs.Host.Walks
import ActivityScript.Proofs.Host.Frames
import ActivityScript.Proofs.Activity.Effects
import ActivityScript.Proofs.Activity.History
import ActivityScript.Proofs.Address.Ports
import ActivityScript.Proofs.Script.Crashes
import ActivityScript.Proofs.Activity.Refusals
import ActivityScript.Proofs.Activity.Transmissions
import ActivityScript.Proofs.Host.NewFiles
import ActivityScript.Proofs.Script.Phases
import ActivityScript.Proofs.CommandLine.Checking
import ActivityScript.Proofs.Script.Lexemes
import ActivityScript.Proofs.Script.Readings
import ActivityScript.Proofs.Script.TextTokens
import ActivityScript.Proofs.Script.FirstFault
import ActivityScript.Proofs.Script.Meaning
import ActivityScript.Proofs.Script.Definedness
import ActivityScript.Proofs.Script.EvaluationOrder
import ActivityScript.Proofs.CommandLine.Words
import ActivityScript.Proofs.Script.Interleavings
import ActivityScript.Proofs.Script.SharedLines
import ActivityScript.Proofs.Script.Registrations
import ActivityScript.Proofs.Text.Decimals
import ActivityScript.Proofs.Address.NormalForm
import ActivityScript.Proofs.Address.NumericForm
import ActivityScript.Proofs.Host.Writing
import ActivityScript.Proofs.Activity.FileChanges
import ActivityScript.Proofs.Activity.Deletions
import ActivityScript.Proofs.Activity.Protocols
import ActivityScript.Proofs.Activity.Destinations
import ActivityScript.Proofs.Activity.Lifetimes
import ActivityScript.Proofs.Text.Quoting
import ActivityScript.Proofs.Activity.JsonReading
import ActivityScript.Proofs.Script.Outlines
import ActivityScript.Proofs.Settings.Verdicts
import ActivityScript.Proofs.CommandLine.Startup
import ActivityScript.Association
import ActivityScript.Proofs.Basic
import ActivityScript.Proofs.Text.Digits
import ActivityScript.Proofs.Host.Conversations
import ActivityScript.Proofs.Activity.RecordLines
import ActivityScript.Proofs.Activity.Sinks
