import ScriptBridge.Decimal.Reader
import ScriptBridge.Syntax.SyntaxError
import ScriptBridge.Text.Letter

/-!
# Lexemes

The shortest pieces of a source text: what begins at a character and how many of the characters
after it belong to it. White space, comments and a line that is continued by a backslash are
blank; the end of a line is a piece of its own, since it only counts outside brackets.
-/

namespace ScriptBridge.Syntax

/-- What a piece of the source stands for. -/
inductive Piece where
  | blank
  | lineEnd
  | token (kind : Kind)
deriving DecidableEq

/-- What an escaped character stands for; an unknown escape stands for itself. -/
def unescape : Char → List Char
  | 'n' => ['\n']
  | 't' => ['\t']
  | '\\' => ['\\']
  | '\'' => ['\'']
  | '"' => ['"']
  | '0' => ['\x00']
  | c => ['\\', c]

/-- The rest of a string literal after its opening quote: its text and its length in the source
with the closing quote. `done` is the text so far, last character first. -/
def quoted (quote : Char) (done : List Char) (taken : Nat) :
    List Char → Except Reason (String × Nat)
  | [] => .error (.unexpectedEnd .endOfString)
  | c :: rest =>
    if c == '\n' then .error (.unexpectedEnd .endOfString)
    else if c == quote then .ok (String.ofList done.reverse, taken + 1)
    else if c == '\\' then
      match rest with
      | [] => .error (.unexpectedEnd .escapeSequence)
      | e :: more => quoted quote ((unescape e).reverse ++ done) (taken + 2) more
    else quoted quote (c :: done) (taken + 1) rest

/-- A number literal while it is read. -/
structure Numeral where
  /-- Its digits, points and exponent marks, last one first, without underscores. -/
  literal : List Char := []
  isFloat : Bool := false
  hasExponent : Bool := false
  /-- The exponent mark has just been read, so that a sign may follow. -/
  atExponent : Bool := false
  /-- Its length in the source. -/
  length : Nat := 0
deriving DecidableEq

namespace Numeral

def push (n : Numeral) (c : Char) : Numeral :=
  { n with literal := c :: n.literal, atExponent := false, length := n.length + 1 }

/-- Reads an underscore. -/
def skip (n : Numeral) : Numeral := { n with atExponent := false, length := n.length + 1 }

def text (n : Numeral) : String := String.ofList n.literal.reverse

end Numeral

/-- A point belongs to a number unless a name follows it. -/
def pointContinues : List Char → Bool
  | [] => true
  | c :: _ => c.isDigit || !Text.isLetter c

/-- Extends a number literal as far as it goes. -/
def numeral (n : Numeral) : List Char → Numeral
  | [] => n
  | c :: rest =>
    if c.isDigit || (n.atExponent && (c == '+' || c == '-')) then numeral (n.push c) rest
    else if c == '_' then numeral n.skip rest
    else if c == '.' && !n.isFloat && pointContinues rest then
      numeral { n.push c with isFloat := true } rest
    else if (c == 'e' || c == 'E') && !n.hasExponent then
      numeral { n.push 'e' with isFloat := true, hasExponent := true, atExponent := true } rest
    else n

/-- A number: its kind and its length in the source. -/
def number (cs : List Char) : Except Reason (Kind × Nat) :=
  let n := numeral {} cs
  let digits := n.literal.reverse
  if n.isFloat then
    match Decimal.readFloat? digits with
    | some value => .ok (.float value, n.length)
    | none => .error (.badFloat n.text)
  else
    match Decimal.readInt64? digits with
    | none => .error (.integerRange n.text)
    | some value =>
      match cs.drop n.length with
      | 'L' :: _ | 'l' :: _ => .ok (.long value, n.length + 1)
      | _ => .ok (.integer value, n.length)

/-- A character that may begin a name. -/
def startsName (c : Char) : Bool := Text.isLetter c || c == '_'

/-- A character that may continue a name. -/
def continuesName (c : Char) : Bool := Text.isAlphanumeric c || c == '_'

/-- A reserved word or a name. -/
def word (spelling : String) : Kind :=
  match Keyword.ofSpelling? spelling with
  | some reserved => .keyword reserved
  | none => .name spelling

/-- An operator or a punctuation mark and how many further characters it takes. -/
def symbol? (c : Char) (rest : List Char) : Option (Symbol × Nat) :=
  let beforeEqual (yes no : Symbol) : Symbol × Nat :=
    match rest with
    | '=' :: _ => (yes, 1)
    | _ => (no, 0)
  match c with
  | '+' => some (.plus, 0)
  | '-' => some (.minus, 0)
  | '*' => some (.star, 0)
  | '/' => some (.slash, 0)
  | '%' => some (.percent, 0)
  | '=' => some (beforeEqual .equalEqual .equal)
  | '<' => some (beforeEqual .lessEqual .less)
  | '>' => some (beforeEqual .greaterEqual .greater)
  | '!' =>
    match rest with
    | '=' :: _ => some (.notEqual, 1)
    | _ => none
  | '(' => some (.leftParen, 0)
  | ')' => some (.rightParen, 0)
  | '[' => some (.leftBracket, 0)
  | ']' => some (.rightBracket, 0)
  | ',' => some (.comma, 0)
  | ':' => some (.colon, 0)
  | '.' => some (.dot, 0)
  | ';' => some (.semicolon, 0)
  | _ => none

/-- A number begins here. -/
def startsNumber (c : Char) (rest : List Char) : Bool :=
  c.isDigit ||
    (c == '.' && match rest with
      | d :: _ => d.isDigit
      | [] => false)

/-- The piece that begins with `c`, and how many characters of `rest` belong to it. -/
def piece (c : Char) (rest : List Char) : Except Reason (Piece × Nat) :=
  if c == ' ' || c == '\t' || c == '\r' then .ok (.blank, 0)
  else if c == '\\' && rest.head? == some '\n' then .ok (.blank, 1)
  else if c == '#' then .ok (.blank, (rest.takeWhile (· != '\n')).length)
  else if c == '\n' then .ok (.lineEnd, 0)
  else if c == '"' || c == '\'' then
    (quoted c [] 0 rest).map fun (value, taken) => (.token (.text value), taken)
  else if startsNumber c rest then
    (number (c :: rest)).map fun (kind, length) => (.token kind, length - 1)
  else if startsName c then
    let more := rest.takeWhile continuesName
    .ok (.token (word (String.ofList (c :: more))), more.length)
  else
    match symbol? c rest with
    | some (sign, taken) => .ok (.token (.symbol sign), taken)
    | none => .error (.strayCharacter c)

end ScriptBridge.Syntax
