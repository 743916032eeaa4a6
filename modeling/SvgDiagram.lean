import SvgDiagram.Access.Pattern
import SvgDiagram.Access.Settings
import SvgDiagram.Access.Wildcard
import SvgDiagram.Drawing.Draw
import SvgDiagram.Drawing.Listing
import SvgDiagram.Drawing.Node
import SvgDiagram.Element.Animation
import SvgDiagram.Element.Basic
import SvgDiagram.Element.Field
import SvgDiagram.Element.Source
import SvgDiagram.Element.Style
import SvgDiagram.Fault
import SvgDiagram.Files.Path
import SvgDiagram.Files.Tree
import SvgDiagram.Main
import SvgDiagram.Number.Binary
import SvgDiagram.Number.Numeral
import SvgDiagram.Number.Shortest
import SvgDiagram.Number.Written
import SvgDiagram.Outline.Centre
import SvgDiagram.Outline.Command
import SvgDiagram.Outline.Data
import SvgDiagram.Outline.Segment
import SvgDiagram.Position.Centre
import SvgDiagram.Position.Expression
import SvgDiagram.Position.Resolve
import SvgDiagram.Proofs.Access.Cover
import SvgDiagram.Proofs.Access.Directory
import SvgDiagram.Proofs.Access.Relative
import SvgDiagram.Proofs.Access.Search
import SvgDiagram.Proofs.Access.Subdirectory
import SvgDiagram.Proofs.Drawing.Attachment
import SvgDiagram.Proofs.Drawing.Connection
import SvgDiagram.Proofs.Drawing.Flaw
import SvgDiagram.Proofs.Drawing.Mirror
import SvgDiagram.Proofs.Drawing.Respelling
import SvgDiagram.Proofs.Element.Markup
import SvgDiagram.Proofs.Element.Typing
import SvgDiagram.Proofs.Files.Lexical
import SvgDiagram.Proofs.Files.Lookup
import SvgDiagram.Proofs.Files.Making
import SvgDiagram.Proofs.Number.Bits
import SvgDiagram.Proofs.Number.Positional
import SvgDiagram.Proofs.Number.Reading
import SvgDiagram.Proofs.Number.Rounding
import SvgDiagram.Proofs.Number.Shortest
import SvgDiagram.Proofs.Number.Whole
import SvgDiagram.Proofs.Number.Written
import SvgDiagram.Proofs.Outcome
import SvgDiagram.Proofs.Outline.Decoding
import SvgDiagram.Proofs.Outline.Encoding
import SvgDiagram.Proofs.Outline.Grouping
import SvgDiagram.Proofs.Outline.Mean
import SvgDiagram.Proofs.Outline.Path
import SvgDiagram.Proofs.Outline.Reader
import SvgDiagram.Proofs.Outline.Relative
import SvgDiagram.Proofs.Outline.Source
import SvgDiagram.Proofs.Position.Environment
import SvgDiagram.Proofs.Position.Grammar
import SvgDiagram.Proofs.Position.Idempotence
import SvgDiagram.Proofs.Position.Numeral
import SvgDiagram.Proofs.Position.Order
import SvgDiagram.Proofs.Position.Pass
import SvgDiagram.Proofs.Position.Renaming
import SvgDiagram.Proofs.Position.Resolution
import SvgDiagram.Proofs.Render.Extent
import SvgDiagram.Proofs.Render.Root
import SvgDiagram.Proofs.Scene.Expansion
import SvgDiagram.Proofs.Scene.Merge
import SvgDiagram.Proofs.Session.Confinement
import SvgDiagram.Proofs.Session.Snapshot
import SvgDiagram.Proofs.Tool.Rejection
import SvgDiagram.Proofs.Tool.Reply
import SvgDiagram.Proofs.Tool.Stages
import SvgDiagram.Proofs.Value.Key
import SvgDiagram.Proofs.Workspace.Action
import SvgDiagram.Proofs.Workspace.Calls
import SvgDiagram.Proofs.Workspace.Confinement
import SvgDiagram.Proofs.Workspace.Definitions
import SvgDiagram.Proofs.Workspace.Permission
import SvgDiagram.Proofs.Workspace.Refusal
import SvgDiagram.Proofs.Workspace.Saving
import SvgDiagram.Proofs.Workspace.Written
import SvgDiagram.Proofs.Yaml.Keys
import SvgDiagram.Render.Page
import SvgDiagram.Scene.Definition
import SvgDiagram.Server
import SvgDiagram.Session
import SvgDiagram.Text.Blank
import SvgDiagram.Text.Digit
import SvgDiagram.Text.Printable
import SvgDiagram.Text.Quoted
import SvgDiagram.Text.Substring
import SvgDiagram.Text.Word
import SvgDiagram.Tool.Call
import SvgDiagram.Tool.Catalogue
import SvgDiagram.Value.Basic
import SvgDiagram.Value.Shape
import SvgDiagram.Value.Written
import SvgDiagram.Workspace.Basic
import SvgDiagram.Workspace.Capture
import SvgDiagram.Workspace.Export
import SvgDiagram.Workspace.Permission
import SvgDiagram.Workspace.Scene
import SvgDiagram.Yaml.Block
import SvgDiagram.Yaml.Cursor
import SvgDiagram.Yaml.Document
import SvgDiagram.Yaml.Kind
import SvgDiagram.Yaml.Node
import SvgDiagram.Yaml.Plain
import SvgDiagram.Yaml.Property
import SvgDiagram.Yaml.Quoted
import SvgDiagram.Yaml.Scan
import SvgDiagram.Yaml.Token
