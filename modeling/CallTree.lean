import CallTree.CodeModel
import CallTree.CodeModel.Disturbed
import CallTree.CodeModel.Tabular
import CallTree.Command
import CallTree.Config
import CallTree.Config.Load
import CallTree.Data.Checked
import CallTree.Data.Scalar
import CallTree.Data.Table
import CallTree.Data.Value
import CallTree.Entry
import CallTree.Files.Path
import CallTree.Files.Tree
import CallTree.Log
import CallTree.Main
import CallTree.Noise
import CallTree.Noise.StandardLibrary
import CallTree.Proofs.BadFiles
import CallTree.Proofs.Bookkeeping
import CallTree.Proofs.CallingOff
import CallTree.Proofs.ClassSites
import CallTree.Proofs.Constructors
import CallTree.Proofs.Containment
import CallTree.Proofs.CutShort
import CallTree.Proofs.DeadEnds
import CallTree.Proofs.Dependencies
import CallTree.Proofs.DepthCap
import CallTree.Proofs.DepthFirst
import CallTree.Proofs.Discovery
import CallTree.Proofs.DottedNames
import CallTree.Proofs.EntryPoints
import CallTree.Proofs.EventGrammar
import CallTree.Proofs.FieldCalls
import CallTree.Proofs.Filing
import CallTree.Proofs.FirstFields
import CallTree.Proofs.FolderFiles
import CallTree.Proofs.Gives
import CallTree.Proofs.Growth
import CallTree.Proofs.Guard
import CallTree.Proofs.GuardLaw
import CallTree.Proofs.IdleCalls
import CallTree.Proofs.ImportSpellings
import CallTree.Proofs.Indexing
import CallTree.Proofs.Inheritance
import CallTree.Proofs.KeptScopes
import CallTree.Proofs.LastImport
import CallTree.Proofs.Lists
import CallTree.Proofs.Loads
import CallTree.Proofs.LocalTypes
import CallTree.Proofs.MethodKeys
import CallTree.Proofs.ModuleNames
import CallTree.Proofs.NodePlaces
import CallTree.Proofs.NoiseExclusion
import CallTree.Proofs.Occurrences
import CallTree.Proofs.Parameters
import CallTree.Proofs.PathOrder
import CallTree.Proofs.PhrasePlaces
import CallTree.Proofs.Placement
import CallTree.Proofs.PrintedTree
import CallTree.Proofs.Questions
import CallTree.Proofs.Reachability
import CallTree.Proofs.ReadBack
import CallTree.Proofs.ReadableText
import CallTree.Proofs.Reexports
import CallTree.Proofs.RelativeImports
import CallTree.Proofs.Resolution
import CallTree.Proofs.RulePlaces
import CallTree.Proofs.ScopeCache
import CallTree.Proofs.Settings
import CallTree.Proofs.Soundness
import CallTree.Proofs.SourceOrder
import CallTree.Proofs.SpelledNames
import CallTree.Proofs.Spellings
import CallTree.Proofs.Suites
import CallTree.Proofs.SuperLookup
import CallTree.Proofs.Targets
import CallTree.Proofs.TextCuts
import CallTree.Proofs.TokenPlaces
import CallTree.Proofs.Transcripts
import CallTree.Proofs.TreePlaces
import CallTree.Proofs.Truncation
import CallTree.Proofs.TwoLoaders
import CallTree.Proofs.WrittenOut
import CallTree.Report
import CallTree.Report.Console
import CallTree.Symbol
import CallTree.Symbol.Record
import CallTree.Syntax.Definition
import CallTree.Syntax.Grammar.Expression
import CallTree.Syntax.Grammar.Layout
import CallTree.Syntax.Grammar.Pattern
import CallTree.Syntax.Grammar.Rule
import CallTree.Syntax.Grammar.Star
import CallTree.Syntax.Grammar.Statement
import CallTree.Syntax.Grammar.Target
import CallTree.Syntax.Grammar.TypeHint
import CallTree.Syntax.Import
import CallTree.Syntax.Node
import CallTree.Syntax.Source
import CallTree.Syntax.Token
import CallTree.Syntax.Token.Lexer
import CallTree.Syntax.Token.Number
import CallTree.Syntax.Token.Quote
import CallTree.Syntax.Tree
import CallTree.Syntax.TypeName
import CallTree.Text.Blank
import CallTree.Text.Case
import CallTree.Text.CaseTable
import CallTree.Text.CellWidth
import CallTree.Text.Digit
import CallTree.Text.Dotted
import CallTree.Text.Emoji
import CallTree.Text.EmojiTable
import CallTree.Text.Identifier
import CallTree.Text.Printable
import CallTree.Text.Quoted
import CallTree.Text.Range
import CallTree.Text.Utf8
import CallTree.Walk.Dependency
import CallTree.Walk.Event
import CallTree.Walk.Options
import CallTree.Walk.Outcome
import CallTree.Walk.Script
import CallTree.Walk.Tree
import CallTree.Workspace.Builtin
import CallTree.Workspace.Declaration
import CallTree.Workspace.Expr
import CallTree.Workspace.Index
import CallTree.Workspace.Loading
import CallTree.Workspace.Lookup
import CallTree.Workspace.Model
import CallTree.Workspace.Outline
import CallTree.Workspace.Reader
import CallTree.Workspace.Scope
import CallTree.Workspace.Session
import CallTree.Yaml.Base64
import CallTree.Yaml.Cursor
import CallTree.Yaml.Document
import CallTree.Yaml.Node
import CallTree.Yaml.Reader
import CallTree.Yaml.Scalar
import CallTree.Yaml.Text
import CallTree.Yaml.Token
import CallTree.Yaml.Token.Layout
import CallTree.Yaml.Token.Name
