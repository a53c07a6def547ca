import ApiDocs.Collect.ClassBody
import ApiDocs.Collect.Contribution
import ApiDocs.Collect.Entry
import ApiDocs.Collect.Skeleton
import ApiDocs.Command.Arguments
import ApiDocs.Command.Disk
import ApiDocs.Command.LogFormat
import ApiDocs.Command.Run
import ApiDocs.Extract
import ApiDocs.Json.Fields
import ApiDocs.Json.Literal
import ApiDocs.Json.Printer
import ApiDocs.Json.Reader
import ApiDocs.Json.Relaxed
import ApiDocs.Json.Value
import ApiDocs.Main
import ApiDocs.Model.Declaration
import ApiDocs.Model.Encode
import ApiDocs.Model.Type
import ApiDocs.Path.Basic
import ApiDocs.Path.Normal
import ApiDocs.Program.Basic
import ApiDocs.Program.Decode
import ApiDocs.Program.Encode
import ApiDocs.Program.Symbol
import ApiDocs.Reference.Chain
import ApiDocs.Reference.Index
import ApiDocs.Resolve.Names
import ApiDocs.Resolve.Parts
import ApiDocs.Resolve.Scope
import ApiDocs.Resolve.Types
import ApiDocs.Settings.Basic
import ApiDocs.Settings.ProjectFile
import ApiDocs.Syntax.Arena
import ApiDocs.Syntax.Builder
import ApiDocs.Syntax.Comment
import ApiDocs.Syntax.Kind
import ApiDocs.Syntax.Node
import ApiDocs.Syntax.SourceFile
import ApiDocs.Table
import ApiDocs.Text.Blank
import ApiDocs.Text.Bytes
import ApiDocs.Text.Excerpt
import ApiDocs.Text.Letter
import ApiDocs.Text.Numeral
import ApiDocs.Text.Position
import ApiDocs.Tree.Basic
import ApiDocs.Tree.Module
import ApiDocs.Tree.View
import ApiDocs.WordMap
import ApiDocs.Proofs.Extract.Passes
import ApiDocs.Proofs.Extract.Completeness
import ApiDocs.Proofs.Reference.Memory
import ApiDocs.Proofs.Extract.Content
import ApiDocs.Proofs.Extract.Declarations
import ApiDocs.Proofs.Extract.Merging
import ApiDocs.Proofs.Extract.Replacement
import ApiDocs.Proofs.Extract.Overloads
import ApiDocs.Proofs.Model.Mention
import ApiDocs.Proofs.Reference.Chain
import ApiDocs.Proofs.Collect.Walk
import ApiDocs.Proofs.Reference.Location
import ApiDocs.Proofs.Resolve.Made
import ApiDocs.Proofs.Resolve.Soundness
import ApiDocs.Proofs.Extract.DeclaredTypes
import ApiDocs.Proofs.Extract.Soundness
import ApiDocs.Proofs.Resolve.Settling
import ApiDocs.Proofs.Reference.Settling
import ApiDocs.Proofs.Extract.Settling
import ApiDocs.Proofs.Settling
import ApiDocs.Proofs.Json.Literal
import ApiDocs.Proofs.Json.RoundTrip
import ApiDocs.Proofs.Json.Fields
import ApiDocs.Proofs.Program.RoundTrip
import ApiDocs.Proofs.Program.Syntax
import ApiDocs.Proofs.Tree.Shape
import ApiDocs.Proofs.Tree.History
import ApiDocs.Proofs.Extract.Views
import ApiDocs.Proofs.Json.Order
import ApiDocs.Proofs.Model.Recovery
import ApiDocs.Proofs.Extract.FileOrder
import ApiDocs.Proofs.Resolve.Sessions
import ApiDocs.Proofs.Extract.Frame
import ApiDocs.Proofs.Json.Grammar
import ApiDocs.Proofs.Model.Documents
import ApiDocs.Proofs.Resolve.Placeholders
import ApiDocs.Proofs.Extract.Members
import ApiDocs.Proofs.Extract.Accessors
import ApiDocs.Proofs.Extract.Missing
import ApiDocs.Proofs.Path.Join
import ApiDocs.Proofs.Path.Spelling
import ApiDocs.Proofs.Text.Lines
import ApiDocs.Proofs.Reference.Hints
import ApiDocs.Proofs.Resolve.Fallback
import ApiDocs.Proofs.Extract.Repositories
import ApiDocs.Proofs.Extract.Sites
import ApiDocs.Proofs.Extract.Locators
import ApiDocs.Proofs.Path.Segments
import ApiDocs.Proofs.Text.Numerals
import ApiDocs.Proofs.Resolve.SignedNumbers
import ApiDocs.Proofs.Resolve.ParameterComments
import ApiDocs.Proofs.Syntax.Parents
import ApiDocs.Proofs.Extract.Lookup
import ApiDocs.Proofs.Extract.Excerpts
import ApiDocs.Proofs.Syntax.Located
import ApiDocs.Proofs.Program.Answers
