/-
Programs of blocks and the sketches they become.
-/
import BlockSketch.Block.Basic
import BlockSketch.Block.Draft
import BlockSketch.Block.Linked
import BlockSketch.Block.Program
import BlockSketch.Board.Basic
import BlockSketch.Board.Builtin
import BlockSketch.Board.Settings
import BlockSketch.Command.Arguments
import BlockSketch.Command.Console
import BlockSketch.Command.Golden
import BlockSketch.Command.Run
import BlockSketch.Command.Suite
import BlockSketch.Decimal.Binary64
import BlockSketch.Decimal.Numeral
import BlockSketch.Decimal.Shortest
import BlockSketch.Diagnostic
import BlockSketch.Files.Disk
import BlockSketch.Files.Tree
import BlockSketch.Library.Builtin
import BlockSketch.Library.Clock
import BlockSketch.Library.Control
import BlockSketch.Library.Field
import BlockSketch.Library.Logic
import BlockSketch.Library.Math
import BlockSketch.Library.PinAccess
import BlockSketch.Library.Robot
import BlockSketch.Library.Serial
import BlockSketch.Library.Servo
import BlockSketch.Library.TextLiteral
import BlockSketch.Main
import BlockSketch.Proofs.Actions
import BlockSketch.Proofs.Agreement
import BlockSketch.Proofs.Blame
import BlockSketch.Proofs.BlockTree
import BlockSketch.Proofs.Boilerplate
import BlockSketch.Proofs.Categories
import BlockSketch.Proofs.CodeLayout
import BlockSketch.Proofs.Conditional
import BlockSketch.Proofs.Confinement
import BlockSketch.Proofs.Deduplication
import BlockSketch.Proofs.DepthLimit
import BlockSketch.Proofs.DraftOrder
import BlockSketch.Proofs.Entering
import BlockSketch.Proofs.Equipment
import BlockSketch.Proofs.Fences
import BlockSketch.Proofs.FileShorthand
import BlockSketch.Proofs.GeneratedIds
import BlockSketch.Proofs.Grammar
import BlockSketch.Proofs.Growth
import BlockSketch.Proofs.Indentation
import BlockSketch.Proofs.Kinds
import BlockSketch.Proofs.Linking
import BlockSketch.Proofs.LoopCounters
import BlockSketch.Proofs.LoopLines
import BlockSketch.Proofs.LoopOrder
import BlockSketch.Proofs.Mirror
import BlockSketch.Proofs.Muting
import BlockSketch.Proofs.NameSupply
import BlockSketch.Proofs.Nesting
import BlockSketch.Proofs.NumberField
import BlockSketch.Proofs.NumberLiterals
import BlockSketch.Proofs.Numerals
import BlockSketch.Proofs.Outline
import BlockSketch.Proofs.PinHistory
import BlockSketch.Proofs.Problems
import BlockSketch.Proofs.ReadBack
import BlockSketch.Proofs.Reading
import BlockSketch.Proofs.RegistryHistory
import BlockSketch.Proofs.Repetition
import BlockSketch.Proofs.Rounding
import BlockSketch.Proofs.Scanner
import BlockSketch.Proofs.Selection
import BlockSketch.Proofs.SetupOrder
import BlockSketch.Proofs.Shadowing
import BlockSketch.Proofs.SketchLayout
import BlockSketch.Proofs.Strength
import BlockSketch.Proofs.StringLiterals
import BlockSketch.Proofs.Success
import BlockSketch.Proofs.TakingApart
import BlockSketch.Proofs.Visits
import BlockSketch.Proofs.Walk
import BlockSketch.Sketch.Fault
import BlockSketch.Sketch.Fragment
import BlockSketch.Sketch.Generator
import BlockSketch.Sketch.Journal
import BlockSketch.Sketch.Layout
import BlockSketch.Sketch.Order
import BlockSketch.Sketch.Pass
import BlockSketch.Sketch.Pin
import BlockSketch.Text.Ascii
import BlockSketch.Text.Blank
import BlockSketch.Text.Lines
import BlockSketch.Text.Pieces
import BlockSketch.Text.Quoted
import BlockSketch.Text.Sorted
import BlockSketch.Text.Span
import BlockSketch.Text.Unprintable
import BlockSketch.Toml.Document
import BlockSketch.Toml.Literal
import BlockSketch.Toml.Scalar
import BlockSketch.Toml.Scan
import BlockSketch.Toml.Shape
import BlockSketch.Toml.Table
import BlockSketch.Toml.Value
