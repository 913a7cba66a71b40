import VhdlOutline.Block.Basic
import VhdlOutline.Block.Kind
import VhdlOutline.Block.Sheet
import VhdlOutline.Chain
import VhdlOutline.Diagnostic
import VhdlOutline.Document
import VhdlOutline.Engine.Basic
import VhdlOutline.Engine.Declaration
import VhdlOutline.Engine.Desk
import VhdlOutline.Engine.Nested
import VhdlOutline.Engine.Routine
import VhdlOutline.Engine.Run
import VhdlOutline.Engine.Statement
import VhdlOutline.Engine.Unit
import VhdlOutline.Group.Basic
import VhdlOutline.Group.Reduce
import VhdlOutline.Group.Reducer
import VhdlOutline.Lexeme.Buffered
import VhdlOutline.Lexeme.Category
import VhdlOutline.Lexeme.Lexer
import VhdlOutline.Lexeme.Scan
import VhdlOutline.Lexeme.Stamper
import VhdlOutline.Lexeme.Tokens
import VhdlOutline.Outline.Construct
import VhdlOutline.Outline.Declaration
import VhdlOutline.Outline.Dispatch
import VhdlOutline.Outline.Error
import VhdlOutline.Outline.Machine
import VhdlOutline.Outline.Naming
import VhdlOutline.Outline.Nested
import VhdlOutline.Outline.Parser
import VhdlOutline.Outline.Reaction
import VhdlOutline.Outline.State
import VhdlOutline.Outline.Statement
import VhdlOutline.Outline.Unit
import VhdlOutline.Pipeline
import VhdlOutline.Source.Cursor
import VhdlOutline.Source.Mark
import VhdlOutline.Source.Position
import VhdlOutline.Text.Alphabetic
import VhdlOutline.Text.Blank
import VhdlOutline.Text.Cased
import VhdlOutline.Text.CharSet
import VhdlOutline.Text.Escaped
import VhdlOutline.Text.Extending
import VhdlOutline.Text.Lines
import VhdlOutline.Text.Lookahead
import VhdlOutline.Text.Lower
import VhdlOutline.Text.Printable
import VhdlOutline.Token.Basic
import VhdlOutline.Token.Keyword
import VhdlOutline.Token.Kind
import VhdlOutline.Token.Symbol
import VhdlOutline.Word
import VhdlOutline.Proofs.Outline.Discipline
import VhdlOutline.Proofs.Chain
import VhdlOutline.Proofs.Block.Sheet
import VhdlOutline.Proofs.Outline.Completion
import VhdlOutline.Proofs.Outline.Turn
import VhdlOutline.Proofs.Outline.Run
import VhdlOutline.Proofs.Outline.Parts
import VhdlOutline.Proofs.Group.Reduce
import VhdlOutline.Proofs.Lexeme.Tokens
import VhdlOutline.Proofs.Lossless
import VhdlOutline.Proofs.Group.Logical
import VhdlOutline.Proofs.Outline.Grammar
import VhdlOutline.Proofs.Outline.Gist
import VhdlOutline.Proofs.Outline.Trivia
import VhdlOutline.Proofs.Outline.Nesting
import VhdlOutline.Proofs.Outline.Lookups
import VhdlOutline.Proofs.Outline.BreakOff
import VhdlOutline.Proofs.Outline.Openings
import VhdlOutline.Proofs.Outline.Delivery
import VhdlOutline.Proofs.Group.Unfinished
import VhdlOutline.Proofs.Outline.Consistency
import VhdlOutline.Proofs.Engine.Desk
import VhdlOutline.Proofs.Engine.Action
import VhdlOutline.Proofs.Engine.Control
import VhdlOutline.Proofs.Engine.Answer
import VhdlOutline.Proofs.Engine.Unit
import VhdlOutline.Proofs.Engine.Declaration
import VhdlOutline.Proofs.Engine.Statement
import VhdlOutline.Proofs.Engine.Nested
import VhdlOutline.Proofs.Engine.Visit
import VhdlOutline.Proofs.Engine.Run
import VhdlOutline.Proofs.Outline.Strictness
import VhdlOutline.Proofs.Outline.Shift
import VhdlOutline.Proofs.Outline.Independence
import VhdlOutline.Proofs.Outline.Pairing
import VhdlOutline.Proofs.Outline.Headings
import VhdlOutline.Proofs.Outline.EndNames
import VhdlOutline.Proofs.Source.Position
import VhdlOutline.Proofs.Lexeme.Partition
import VhdlOutline.Proofs.Lexeme.Persistence
import VhdlOutline.Proofs.Lexeme.Truncation
import VhdlOutline.Proofs.Text.Lookahead
import VhdlOutline.Proofs.Source.Mark
import VhdlOutline.Proofs.Lexeme.Stamper
import VhdlOutline.Proofs.Lexeme.Scanner
import VhdlOutline.Proofs.Lexeme.Buffered
import VhdlOutline.Proofs.Spans
import VhdlOutline.Proofs.Outline.Settlement
import VhdlOutline.Proofs.Outline.Parentheses
import VhdlOutline.Proofs.Outline.Inputs
import VhdlOutline.Proofs.Outline.Readings
import VhdlOutline.Proofs.Outline.Reclassification
import VhdlOutline.Proofs.Outline.Abreast
import VhdlOutline.Proofs.Outline.Rereading
import VhdlOutline.Proofs.Outline.SecondReading
import VhdlOutline.Proofs.Lexeme.LetterCase
import VhdlOutline.Proofs.Outline.Renaming
import VhdlOutline.Proofs.LetterCase
import VhdlOutline.Proofs.Outline.Points
import VhdlOutline.Proofs.Outline.Shapes
import VhdlOutline.Proofs.Outline.Regions
import VhdlOutline.Proofs.Outline.Progress
import VhdlOutline.Proofs.Outline.Expressions
import VhdlOutline.Proofs.Outline.Returns
import VhdlOutline.Proofs.Outline.InterfaceSyntax
import VhdlOutline.Proofs.Outline.InterfaceLists
import VhdlOutline.Proofs.Outline.EmptyLines
import VhdlOutline.Proofs.Outline.Labels
import VhdlOutline.Proofs.Outline.NamedStatements
import VhdlOutline.Proofs.Lexeme.Grammar
import VhdlOutline.Proofs.Lexeme.Faults
import VhdlOutline.Proofs.Lexeme.Lexemes
import VhdlOutline.Proofs.Lexeme.Neighbours
import VhdlOutline.Proofs.Trail
import VhdlOutline.Proofs.Group.Reducer
import VhdlOutline.Proofs.Group.Outcome
import VhdlOutline.Proofs.Group.Cover
import VhdlOutline.Proofs.Text.Lines
import VhdlOutline.Proofs.Source.Line
import VhdlOutline.Proofs.Reports
import VhdlOutline.Proofs.Rendering
