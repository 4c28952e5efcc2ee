import Tabletop.Assoc
import Tabletop.Binary64.Basic
import Tabletop.Binary64.Reading
import Tabletop.Binary64.Shortest
import Tabletop.Builtin.Basic
import Tabletop.Builtin.Catalog
import Tabletop.Builtin.Chat
import Tabletop.Builtin.Control
import Tabletop.Builtin.Dice
import Tabletop.Builtin.Functions
import Tabletop.Builtin.Links
import Tabletop.Builtin.PropertyLists
import Tabletop.Builtin.StringLists
import Tabletop.Builtin.Tokens
import Tabletop.Builtin.Trees
import Tabletop.Builtin.TurnOrder
import Tabletop.Campaign.Basic
import Tabletop.Campaign.Initiative
import Tabletop.Campaign.Saved
import Tabletop.Campaign.Token
import Tabletop.Campaign.TokenId
import Tabletop.Campaign.Written
import Tabletop.Config
import Tabletop.Console.Answer
import Tabletop.Console.Command
import Tabletop.Console.EnvFile
import Tabletop.Console.Files
import Tabletop.Console.Folder
import Tabletop.Console.Options
import Tabletop.Decimal.Arithmetic
import Tabletop.Decimal.Basic
import Tabletop.Decimal.Binary
import Tabletop.Decimal.Text
import Tabletop.Dice.Basic
import Tabletop.Dice.Generator
import Tabletop.Dice.Notation
import Tabletop.Dice.Roll
import Tabletop.Expr.Basic
import Tabletop.Expr.Lexeme
import Tabletop.Expr.Parse
import Tabletop.Function.Arity
import Tabletop.Function.Defined
import Tabletop.Function.Registry
import Tabletop.Json.Basic
import Tabletop.Json.Printer
import Tabletop.Json.Reader
import Tabletop.Json.Record
import Tabletop.Macro.Action
import Tabletop.Macro.Body
import Tabletop.Macro.Engine
import Tabletop.Macro.Evaluate
import Tabletop.Macro.Fault
import Tabletop.Macro.Follow
import Tabletop.Macro.Locate
import Tabletop.Macro.Operators
import Tabletop.Macro.Run
import Tabletop.Macro.ScopeTree
import Tabletop.Macro.Variables
import Tabletop.MacroLink.Basic
import Tabletop.MacroLink.Wire
import Tabletop.Main
import Tabletop.Power
import Tabletop.Proofs.Authority.Builtins
import Tabletop.Proofs.Authority.Confinement
import Tabletop.Proofs.Authority.Course
import Tabletop.Proofs.Authority.Evaluation
import Tabletop.Proofs.Authority.Lawful
import Tabletop.Proofs.Authority.Run
import Tabletop.Proofs.Json.RoundTrip
import Tabletop.Proofs.Json.Tokens
import Tabletop.Proofs.MacroLink.Arguments
import Tabletop.Proofs.MacroLink.RoundTrip
import Tabletop.Proofs.PropertyList.Pairs
import Tabletop.Proofs.StringList.Editing
import Tabletop.Proofs.Text.FormCoding
import Tabletop.Proofs.Text.Pieces
import Tabletop.PropertyList.Basic
import Tabletop.PropertyList.Text
import Tabletop.SortedMap
import Tabletop.StringList
import Tabletop.Table.Basic
import Tabletop.Table.Interpreter
import Tabletop.Table.Session
import Tabletop.Table.Trial
import Tabletop.Text.Alphanumeric
import Tabletop.Text.Blank
import Tabletop.Text.Case
import Tabletop.Text.FormCoding
import Tabletop.Text.Literal
import Tabletop.Text.Ranges
import Tabletop.Text.Replace
import Tabletop.Text.Split
import Tabletop.Text.Uppercase
import Tabletop.Text.Utf8
import Tabletop.Text.WordChar
import Tabletop.Value
import Tabletop.Proofs.Bodies.Sequence
import Tabletop.Proofs.Bodies.Silence
import Tabletop.Proofs.Bodies.SilentBuiltins
import Tabletop.Proofs.Calls.Isolation
import Tabletop.Proofs.Bodies.Interrupts
import Tabletop.Proofs.Calls.Equations
import Tabletop.Proofs.Scopes.Nesting
import Tabletop.Proofs.Scopes.Evaluator
import Tabletop.Proofs.Scopes.Run
import Tabletop.Proofs.PropertyList.Editing
import Tabletop.Proofs.Links.Recipients
import Tabletop.Proofs.Links.Queue
import Tabletop.Proofs.Json.Records
import Tabletop.Proofs.Campaign.TokenId
import Tabletop.Proofs.Campaign.Written
import Tabletop.Proofs.Campaign.Saved
import Tabletop.Proofs.Chat.Replies
import Tabletop.Proofs.Links.Approval
import Tabletop.Proofs.MacroLink.Scan
import Tabletop.Proofs.Expr.Printer
import Tabletop.Proofs.Expr.Lexemes
import Tabletop.Proofs.Expr.Grammar
import Tabletop.Proofs.Function.Names
import Tabletop.Proofs.Function.Alike
import Tabletop.Proofs.PropertyList.OrderedMap
import Tabletop.Proofs.Scopes.Sharing
import Tabletop.Proofs.Function.Redefinition
import Tabletop.Proofs.TurnOrder.Leaving
import Tabletop.Proofs.Dice.Limits
import Tabletop.Proofs.Dice.Notation
import Tabletop.Proofs.Dice.Rolling
import Tabletop.Proofs.Calls.Depth
import Tabletop.Proofs.Bodies.Inlining
import Tabletop.Proofs.Decimal.Canonical
import Tabletop.Proofs.Decimal.Stored
import Tabletop.Proofs.Calls.Arguments
import Tabletop.Proofs.Trees.Updates
import Tabletop.Proofs.Campaign.Attributes
import Tabletop.Proofs.Trees.Membership
import Tabletop.Proofs.Operators.Comparison
import Tabletop.Proofs.PropertyList.Variables
import Tabletop.Proofs.PropertyList.Objects
import Tabletop.Proofs.Campaign.Locations
import Tabletop.Proofs.Bodies.Lossless
import Tabletop.Proofs.Values.Run
