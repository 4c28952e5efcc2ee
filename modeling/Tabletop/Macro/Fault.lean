import Tabletop.Dice.Basic
import Tabletop.Expr.Lexeme
import Tabletop.Function.Arity

/-
  What can stop a macro.

  1. **Errors** — each has its cause as data; `MacroError.message` has the wording.  An error stops
     every macro up to the one who started the first.

  2. **Aborts** — a macro can stop itself without an error.  An abort goes up to the next macro or
     user-defined function, which keeps the text that it has produced so far.

  3. **Exhaustion** — calls may nest without bound; a run that was given too few levels ends as
     `exhausted`, which is neither.
-/
namespace Tabletop

/-! ## Arguments -/

/-- What a name is for. -/
inductive NameKind where
  | variable
  | function
  | token
  | property
  | state
deriving DecidableEq, Repr, Inhabited

/-- What is named, in words. -/
def NameKind.word : NameKind → String
  | .variable => "variable"
  | .function => "function"
  | .token => "token"
  | .property => "property"
  | .state => "state"

/-- What can be wrong with an argument.  A `shown` text is the argument as it is displayed. -/
inductive ArgumentFault where
  | notNumber (shown : String)
  | outOfRange (n : Decimal)
  | negativeIndex (n : Int)
  | negativePosition
  | notTree (shown : String)
  | scalar
  | outOfBounds (index : Int) (length : Nat)
  | notArray
  | notObject
  | unpairedKeys
  | unpairedNames
  | emptyName (kind : NameKind)
  | notStyle (shown : String)
  | notSuffixStyle (shown : String)
  | noSuchArgument (index count : Nat)
  | notDieCount (n : Int)
  | dice (e : Dice.DiceError)
deriving DecidableEq, Repr, Inhabited

/-- The wording of a fault. -/
def ArgumentFault.message : ArgumentFault → String
  | .notNumber shown => "'" ++ shown ++ "' is not a number"
  | .outOfRange n => "'" ++ n.render ++ "' is out of range"
  | .negativeIndex n => "index " ++ Decimal.displayInt n ++ " is negative"
  | .negativePosition => "insert position is negative"
  | .notTree shown => "'" ++ shown ++ "' is not a JSON array or object"
  | .scalar => "not a JSON array or object"
  | .outOfBounds index length =>
    "index " ++ Decimal.displayInt index ++ " is out of bounds for length " ++
      Decimal.displayInt length
  | .notArray => "only arrays can be appended to"
  | .notObject => "only objects convert to property lists"
  | .unpairedKeys => "keys and values must come in pairs"
  | .unpairedNames => "names and values must come in pairs"
  | .emptyName kind => kind.word ++ " name is empty"
  | .notStyle shown => "'" ++ shown ++ "' is not NONE, SUFFIXED or UNSUFFIXED"
  | .notSuffixStyle shown => "'" ++ shown ++ "' is not SUFFIXED or UNSUFFIXED"
  | .noSuchArgument index count =>
    "index " ++ Decimal.displayInt index ++ " is out of range, " ++ Decimal.displayInt count ++
      " arguments were passed"
  | .notDieCount n => Decimal.displayInt n ++ " is not a valid die count"
  | .dice e => e.message

/-! ## Macros that are looked for -/

/-- Why a macro was not found. -/
inductive LookupFault where
  | noLocation
  | thisOutsideMacro
  | noSubject
  | subjectGone
  | noLibrary (name : String)
  | severalLibraries (name : String)
  | unsupportedLocation
  | noButton
  | notLink
deriving DecidableEq, Repr, Inhabited

/-- The wording of a fault. -/
def LookupFault.message : LookupFault → String
  | .noLocation => "a location must be given as name@location"
  | .thisOutsideMacro => "@this used outside a token macro"
  | .noSubject => "no current token"
  | .subjectGone => "current token no longer exists"
  | .noLibrary name => "no library token named " ++ name
  | .severalLibraries name => "more than one library token named " ++ name
  | .unsupportedLocation => "unsupported macro location"
  | .noButton => "no such macro button"
  | .notLink => "not a macro link"

/-! ## Evaluation -/

/-- What can go wrong with an expression. -/
inductive EvaluationFault where
  | syntaxFault (f : SyntaxFault)
  | unclosed (bracket : Char)
  | dice (e : Dice.DiceError)
  | notNegatable (shown : String)
  | undefinedVariable (name : String)
  | notArithmetic (left right : String)
  | divisionByZero
  | overflow
  | outsideFunction
deriving DecidableEq, Repr, Inhabited

/-- The wording of a fault. -/
def EvaluationFault.message : EvaluationFault → String
  | .syntaxFault f => f.message
  | .unclosed bracket => "Unclosed '" ++ String.singleton bracket ++ "' in macro body"
  | .dice e => e.message
  | .notNegatable shown => "Cannot negate '" ++ shown ++ "'"
  | .undefinedVariable name => "Undefined variable '" ++ name ++ "'"
  | .notArithmetic left right => "Cannot apply arithmetic to '" ++ left ++ "' and '" ++ right ++ "'"
  | .divisionByZero => "Division by zero"
  | .overflow => "Numeric overflow"
  | .outsideFunction => "oldFunction can only be called inside a user function"

/-! ## Errors and interrupts -/

/-- An error of a macro. -/
inductive MacroError where
  | unknownFunction (name : String)
  | arity (function : String) (accepted : Arity) (got : Nat)
  | permission (function : String)
  | noSubject (function : String)
  /-- The position counts from one. -/
  | malformedArgument (function : String) (position : Nat) (fault : ArgumentFault)
  | assertionFailed (message : String)
  | unknownToken (function token : String)
  | unknownMacro (name : String) (fault : LookupFault)
  | evaluation (fault : EvaluationFault)
deriving DecidableEq, Repr, Inhabited

/-- The wording of an error. -/
def MacroError.message : MacroError → String
  | .unknownFunction name => "Unknown function: " ++ name
  | .arity function accepted got =>
    "Function '" ++ function ++ "' requires " ++ accepted.describe ++ " arguments, " ++
      Decimal.displayInt got ++ " given"
  | .permission function => "You do not have permission to use the '" ++ function ++ "' function"
  | .noSubject function => "Function '" ++ function ++ "' needs a current token and none is set"
  | .malformedArgument function position fault =>
    "Argument " ++ Decimal.displayInt position ++ " of '" ++ function ++ "' is invalid: " ++
      fault.message
  | .assertionFailed message => message
  | .unknownToken function token => "Function '" ++ function ++ "' could not find token '" ++ token ++ "'"
  | .unknownMacro name fault => "Could not find macro '" ++ name ++ "': " ++ fault.message
  | .evaluation fault => "Evaluation error: " ++ fault.message

/-- What stops a macro. -/
inductive Interrupt where
  | error (e : MacroError)
  | abort (message : Option String)
  | exhausted
deriving DecidableEq, Repr, Inhabited

/-- An abort in words. -/
def abortText : Option String → String
  | some message => "aborted: " ++ message
  | none => "aborted"

end Tabletop
