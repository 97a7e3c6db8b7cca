/-!
# Tokens

The words of the script language, each with the position at which it starts. Lines and columns
count from one; a column counts characters.
-/

namespace ScriptBridge.Syntax

/-- A place in a source text. -/
structure Position where
  line : Nat
  column : Nat
deriving DecidableEq, Repr

namespace Position

/-- The first character of a text. -/
def start : Position := ⟨1, 1⟩

/-- The place after a character. -/
def after (p : Position) (c : Char) : Position :=
  if c == '\n' then ⟨p.line + 1, 1⟩ else ⟨p.line, p.column + 1⟩

/-- The place after a run of characters. -/
def afterAll (p : Position) (cs : List Char) : Position := cs.foldl after p

@[simp] theorem afterAll_nil (p : Position) : p.afterAll [] = p := rfl

@[simp] theorem afterAll_cons (p : Position) (c : Char) (cs : List Char) :
    p.afterAll (c :: cs) = (p.after c).afterAll cs := rfl

theorem afterAll_append (p : Position) (cs ds : List Char) :
    p.afterAll (cs ++ ds) = (p.afterAll cs).afterAll ds := List.foldl_append

end Position

/-- Reserved words. -/
inductive Keyword where
  | imports | froms | asName | lambda | and | or | not | within
  | none | true | false | raise | pass
deriving DecidableEq, Repr

namespace Keyword

def all : List Keyword :=
  [imports, froms, asName, lambda, and, or, not, within, none, true, false, raise, pass]

/-- How the word is written in a source. -/
def spelling : Keyword → String
  | imports => "import" | froms => "from" | asName => "as" | lambda => "lambda"
  | and => "and" | or => "or" | not => "not" | within => "in"
  | none => "None" | true => "True" | false => "False" | raise => "raise" | pass => "pass"

/-- How messages call the word. -/
def label : Keyword → String
  | imports => "Import" | froms => "From" | asName => "As" | lambda => "Lambda"
  | and => "And" | or => "Or" | not => "Not" | within => "In"
  | none => "None" | true => "True" | false => "False" | raise => "Raise" | pass => "Pass"

/-- The reserved word with this spelling. -/
def ofSpelling? (word : String) : Option Keyword := all.find? (·.spelling == word)

end Keyword

/-- Operators and punctuation. -/
inductive Symbol where
  | plus | minus | star | slash | percent
  | equal | equalEqual | notEqual | less | greater | lessEqual | greaterEqual
  | leftParen | rightParen | leftBracket | rightBracket
  | comma | colon | dot | semicolon
deriving DecidableEq, Repr

namespace Symbol

/-- How the symbol is written in a source. -/
def spelling : Symbol → String
  | plus => "+" | minus => "-" | star => "*" | slash => "/" | percent => "%"
  | equal => "=" | equalEqual => "==" | notEqual => "!=" | less => "<" | greater => ">"
  | lessEqual => "<=" | greaterEqual => ">="
  | leftParen => "(" | rightParen => ")" | leftBracket => "[" | rightBracket => "]"
  | comma => "," | colon => ":" | dot => "." | semicolon => ";"

/-- How messages call the symbol. -/
def label : Symbol → String
  | plus => "Plus" | minus => "Minus" | star => "Star" | slash => "Slash" | percent => "Percent"
  | equal => "Equal" | equalEqual => "EqualEqual" | notEqual => "NotEqual" | less => "Less"
  | greater => "Greater" | lessEqual => "LessEqual" | greaterEqual => "GreaterEqual"
  | leftParen => "LeftParen" | rightParen => "RightParen" | leftBracket => "LeftBracket"
  | rightBracket => "RightBracket" | comma => "Comma" | colon => "Colon" | dot => "Dot"
  | semicolon => "Semicolon"

/-- The bracket depth after the symbol. A closing bracket too many is left to the grammar. -/
def depthAfter (depth : Nat) : Symbol → Nat
  | leftParen | leftBracket => depth + 1
  | rightParen | rightBracket => depth - 1
  | _ => depth

end Symbol

/-- What a token is. -/
inductive Kind where
  | integer (value : Int64)
  | long (value : Int64)
  | float (value : Float)
  | text (value : String)
  | name (word : String)
  | keyword (word : Keyword)
  | symbol (sign : Symbol)
  | newline
  | endOfInput
deriving DecidableEq

/-- A word of the language and where it starts. -/
structure Token where
  kind : Kind
  position : Position
deriving DecidableEq

/-- The bracket depth after a token of this kind. -/
def Kind.depthAfter (depth : Nat) : Kind → Nat
  | .symbol sign => sign.depthAfter depth
  | _ => depth

end ScriptBridge.Syntax
