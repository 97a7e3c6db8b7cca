import ScriptBridge.Decimal.Notation
import ScriptBridge.Syntax.Token

/-!
# Syntax errors

Why a source text is not a program, and where. Nesting beyond the limits of the grammar is
reported through the same type but is no mistake in the text, so it is told apart by `isSyntax`.
-/

namespace ScriptBridge.Syntax

/-- What the grammar asks for next. -/
inductive Expectation where
  | closingBracket | endOfString | escapeSequence
  | importWord | importedName | newName | moduleName
  | parameterName | colon | attributeName | expression
  | commaOrParen | rightParen | rightBracket
  | endOfStatement | endOfExpression
deriving DecidableEq, Repr

def Expectation.text : Expectation → String
  | closingBracket => "closing bracket"
  | endOfString => "end of string literal"
  | escapeSequence => "escape sequence"
  | importWord => "'import'"
  | importedName => "imported name"
  | newName => "alias"
  | moduleName => "module name"
  | parameterName => "parameter name"
  | colon => "':'"
  | attributeName => "attribute name"
  | expression => "expression"
  | commaOrParen => "',' or ')'"
  | rightParen => "')'"
  | rightBracket => "']'"
  | endOfStatement => "end of statement"
  | endOfExpression => "end of expression"

/-- Why a source text was refused. -/
inductive Reason where
  | unexpected (expected : Expectation) (found : Kind)
  | unexpectedEnd (expected : Expectation)
  | strayCharacter (c : Char)
  | badFloat (literal : String)
  | integerRange (literal : String)
  | badTarget
  | tooDeep
deriving DecidableEq

/-- A refused source text. -/
structure SyntaxError where
  reason : Reason
  position : Position
deriving DecidableEq

/-- How messages show a token. -/
def Kind.shown : Kind → String
  | integer value => toString value.toInt
  | long value => toString value.toInt ++ "L"
  | float value => Decimal.floatText value
  | text value => "\"" ++ value ++ "\""
  | name word => word
  | keyword word => word.label
  | symbol sign => sign.label
  | newline => "newline"
  | endOfInput => "end of input"

/-- The message without the place. -/
def Reason.text : Reason → String
  | unexpected expected found => s!"Expected {expected.text} but found {found.shown}"
  | unexpectedEnd expected => s!"Unexpected end of input, expected {expected.text}"
  | strayCharacter c => s!"Invalid syntax: unexpected character '{c}'"
  | badFloat literal => s!"Invalid syntax: invalid float literal '{literal}'"
  | integerRange literal => s!"Invalid syntax: integer literal '{literal}' out of range"
  | badTarget => "Invalid syntax: can't assign to this expression"
  | tooDeep => "too many nested expressions"

/-- A short label of the way a text was refused. -/
def Reason.category : Reason → String
  | unexpected _ _ => "UnexpectedToken"
  | unexpectedEnd _ => "UnexpectedEndOfInput"
  | tooDeep => "TooDeep"
  | strayCharacter _ | badFloat _ | integerRange _ | badTarget => "InvalidSyntax"

namespace SyntaxError

def message (e : SyntaxError) : String :=
  s!"{e.reason.text} at line {e.position.line}, column {e.position.column}"

/-- The text is at fault, and not only its depth. -/
def isSyntax (e : SyntaxError) : Bool :=
  match e.reason with
  | .tooDeep => false
  | _ => true

end SyntaxError
end ScriptBridge.Syntax
