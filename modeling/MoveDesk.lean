import MoveDesk.Catalog
import MoveDesk.Command
import MoveDesk.CommandLine
import MoveDesk.Context
import MoveDesk.Data
import MoveDesk.Decimal.Binary64
import MoveDesk.Decimal.Numeral
import MoveDesk.Declarator
import MoveDesk.Declarator.Cursor
import MoveDesk.Desk
import MoveDesk.Files
import MoveDesk.Finding
import MoveDesk.Glossary
import MoveDesk.Http.Body
import MoveDesk.Http.MediaType
import MoveDesk.Http.Message
import MoveDesk.Http.Page
import MoveDesk.Http.Server
import MoveDesk.Http.Target
import MoveDesk.Intent
import MoveDesk.Json.Basic
import MoveDesk.Json.Codec
import MoveDesk.Json.Printer
import MoveDesk.Json.Reader
import MoveDesk.Main
import MoveDesk.Parameters
import MoveDesk.Program
import MoveDesk.Proofs.Analysis
import MoveDesk.Proofs.Clients
import MoveDesk.Proofs.Declarations
import MoveDesk.Proofs.Find
import MoveDesk.Proofs.FirstSeen
import MoveDesk.Proofs.Placeholders
import MoveDesk.Report
import MoveDesk.Review
import MoveDesk.Session
import MoveDesk.Settings.Basic
import MoveDesk.Settings.Environment
import MoveDesk.Settings.Layer
import MoveDesk.Settings.Load
import MoveDesk.SocketAddress
import MoveDesk.Template.Archetypes
import MoveDesk.Template.Basic
import MoveDesk.Template.Placeholder
import MoveDesk.Text.Blank
import MoveDesk.Text.Digit
import MoveDesk.Text.Find
import MoveDesk.Text.Lowercase
import MoveDesk.Text.Lowercase.Table
import MoveDesk.Text.Ranges
import MoveDesk.Text.Slice
import MoveDesk.Text.Split
import MoveDesk.Text.Style
import MoveDesk.Text.Utf8
import MoveDesk.Text.Word
import MoveDesk.Text.Word.Table
import MoveDesk.Toml.Reader
import MoveDesk.Toml.Scalar
import MoveDesk.Toml.Tree
import MoveDesk.Transcript
import MoveDesk.Version
import MoveDesk.Yaml.Printer
import MoveDesk.Yaml.Scalar
import MoveDesk.Proofs.Separation
import MoveDesk.Proofs.Archetypes.Layout
import MoveDesk.Proofs.Archetypes.Declarations
import MoveDesk.Proofs.Archetypes.Review
import MoveDesk.Proofs.Lines
import MoveDesk.Proofs.Displays
import MoveDesk.Proofs.Script
import MoveDesk.Proofs.Rounds
import MoveDesk.Proofs.Registrations
import MoveDesk.Proofs.Service
import MoveDesk.Proofs.Noninterference
import MoveDesk.Proofs.Composition
import MoveDesk.Proofs.Writes
import MoveDesk.Proofs.Archetypes.Placement
import MoveDesk.Proofs.Json.Numbers
import MoveDesk.Proofs.Json.Quotes
import MoveDesk.Proofs.Json.Values
import MoveDesk.Proofs.Json.Roundtrip
import MoveDesk.Proofs.Bodies
import MoveDesk.Proofs.Surfaces
import MoveDesk.Proofs.Pieces
import MoveDesk.Proofs.Recovery
import MoveDesk.Proofs.Paste
import MoveDesk.Proofs.Keywords
import MoveDesk.Proofs.Findings
import MoveDesk.Proofs.Surroundings
import MoveDesk.Proofs.FileAnalysis
import MoveDesk.Proofs.Reviews
import MoveDesk.Proofs.Codecs
import MoveDesk.Proofs.Repeats
import MoveDesk.Proofs.Layers
import MoveDesk.Proofs.Leaves
import MoveDesk.Proofs.Loading
import MoveDesk.Proofs.ParameterRuns
import MoveDesk.Proofs.DataForms
import MoveDesk.Proofs.Slices
import MoveDesk.Proofs.Cursor
