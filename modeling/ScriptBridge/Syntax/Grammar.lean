import ScriptBridge.Syntax.Expr
import ScriptBridge.Syntax.SyntaxError

/-!
# Grammar

Recursive descent over a token list. From loosest to tightest an expression is a lambda, `or`,
`and`, `not`, a comparison, a sum, a product, a negation, and a primary with its suffixes.

Two limits keep trees shallow. Brackets, prefix operators and lambda bodies open a level of
nesting, of which `maxDepth` are allowed; operator and suffix chains are read by a loop, whose
tree may not grow higher than `maxHeight`. A level only knows the parsers of the level inside it,
so the descent is a recursion on the levels that are left.
-/

namespace ScriptBridge.Syntax

/-- Levels of nesting in one expression. -/
def maxDepth : Nat := 50

/-- Height of a tree that a chain builds. -/
def maxHeight : Nat := 200

/-- A parser takes tokens from the front. -/
abbrev Parser (α : Type) := List Token → Except SyntaxError (α × List Token)

/-- Where the next token starts. -/
def nextPosition : List Token → Position
  | [] => .start
  | t :: _ => t.position

/-- The complaint that something else stands where `expected` should. -/
def unexpected (expected : Expectation) : List Token → SyntaxError
  | [] => ⟨.unexpectedEnd expected, .start⟩
  | t :: _ =>
    match t.kind with
    | .endOfInput => ⟨.unexpectedEnd expected, t.position⟩
    | kind => ⟨.unexpected expected kind, t.position⟩

/-- The tokens after a symbol, if it comes next. -/
def dropSymbol? (sign : Symbol) : List Token → Option (List Token)
  | ⟨.symbol found, _⟩ :: rest => if found = sign then some rest else none
  | _ => none

/-- The tokens after a reserved word, if it comes next. -/
def dropKeyword? (word : Keyword) : List Token → Option (List Token)
  | ⟨.keyword found, _⟩ :: rest => if found = word then some rest else none
  | _ => none

/-- The tokens after a symbol that has to come next. -/
def dropSymbol (sign : Symbol) (expected : Expectation) (ts : List Token) :
    Except SyntaxError (List Token) :=
  match dropSymbol? sign ts with
  | some rest => .ok rest
  | none => .error (unexpected expected ts)

/-- A name. -/
def identifier (expected : Expectation) : Parser String
  | ⟨.name word, _⟩ :: rest => .ok (word, rest)
  | ts => .error (unexpected expected ts)

/-- The height of a node over trees of two heights, unless it exceeds the limit. -/
def grown (left right : Nat) (ts : List Token) : Except SyntaxError Nat :=
  if maxHeight < max left right + 1 then .error ⟨.tooDeep, nextPosition ts⟩
  else .ok (max left right + 1)

/-- The parsers of the next level of nesting. -/
structure Inner where
  expression : Parser Expr
  /-- The operand of `not`. -/
  negated : Parser Expr
  /-- The operand of a minus sign. -/
  negative : Parser Expr

/-- No level is left. -/
def tooDeep : Parser Expr := fun ts => .error ⟨.tooDeep, nextPosition ts⟩

/-! ### Brackets and primaries -/

/-- Expressions separated by commas up to a closing parenthesis; `fuel` bounds their number. -/
def arguments (expression : Parser Expr) : (fuel : Nat) → Parser (List Expr)
  | 0, ts => .error (unexpected .rightParen ts)
  | fuel + 1, ts =>
    match dropSymbol? .rightParen ts with
    | some rest => .ok ([], rest)
    | none => do
      let (item, rest) ← expression ts
      match dropSymbol? .comma rest with
      | some rest =>
        let (items, rest) ← arguments expression fuel rest
        .ok (item :: items, rest)
      | none =>
        let rest ← dropSymbol .rightParen .rightParen rest
        .ok ([item], rest)

/-- The rest of a parenthesised expression or of a tuple. -/
def parenthesized (inner : Inner) : Parser Expr := fun ts =>
  match dropSymbol? .rightParen ts with
  | some rest => .ok (.tuple [], rest)
  | none => do
    let (first, rest) ← inner.expression ts
    match dropSymbol? .rightParen rest with
    | some rest => .ok (first, rest)
    | none =>
      let rest ← dropSymbol .comma .commaOrParen rest
      let (items, rest) ← arguments inner.expression (rest.length + 1) rest
      .ok (.tuple (first :: items), rest)

/-- String literals in a row are one text. -/
def adjacentTexts : List Token → String × List Token
  | ⟨.text value, _⟩ :: rest =>
    let (more, rest) := adjacentTexts rest
    (value ++ more, rest)
  | ts => ("", ts)

def primary (inner : Inner) : Parser Expr
  | [] => .error (unexpected .expression [])
  | t :: rest =>
    match t.kind with
    | .integer value => .ok (.literal (.int value), rest)
    | .long value => .ok (.literal (.long value), rest)
    | .float value => .ok (.literal (.float value), rest)
    | .text value =>
      let (more, rest) := adjacentTexts rest
      .ok (.literal (.text (value ++ more)), rest)
    | .keyword .none => .ok (.literal .none, rest)
    | .keyword .true => .ok (.literal (.bool true), rest)
    | .keyword .false => .ok (.literal (.bool false), rest)
    | .name word => .ok (.name word, rest)
    | .symbol .leftParen => parenthesized inner rest
    | _ => .error (unexpected .expression (t :: rest))

/-! ### Chains -/

/-- Extends `left` by one suffix, if one comes next. -/
def suffix? (inner : Inner) (left : Expr) (height : Nat) (ts : List Token) :
    Except SyntaxError (Option (Expr × Nat × List Token)) :=
  match dropSymbol? .dot ts with
  | some rest => do
    let (name, rest) ← identifier .attributeName rest
    let height ← grown height 0 rest
    .ok (some (.attr left name, height, rest))
  | none =>
    match dropSymbol? .leftParen ts with
    | some rest => do
      let (args, rest) ← arguments inner.expression (rest.length + 1) rest
      let height ← grown height (Expr.heights args) rest
      .ok (some (.call left args, height, rest))
    | none =>
      match dropSymbol? .leftBracket ts with
      | some rest => do
        let (index, rest) ← inner.expression rest
        let rest ← dropSymbol .rightBracket .rightBracket rest
        let height ← grown height index.height rest
        .ok (some (.index left index, height, rest))
      | none => .ok none

/-- Reads suffixes as long as there are any. Each one makes the tree higher, so `room` is never
used up before the height is. -/
def suffixes (inner : Inner) : (room : Nat) → Expr → (height : Nat) → Parser Expr
  | room, left, height, ts => do
    match ← suffix? inner left height ts with
    | none => .ok (left, ts)
    | some (left, height, rest) =>
      match room with
      | 0 => .error ⟨.tooDeep, nextPosition rest⟩
      | room + 1 => suffixes inner room left height rest

/-- How an operator joins its operands, and the tokens after it. -/
abbrev Joining := (Expr → Expr → Expr) × List Token

/-- Reads operators and operands as long as there are any, joining to the left. -/
def chain (operator? : List Token → Option Joining) (operand : Parser Expr) :
    (room : Nat) → Expr → (height : Nat) → Parser Expr
  | room, left, height, ts =>
    match operator? ts with
    | none => .ok (left, ts)
    | some (join, rest) => do
      let (right, rest) ← operand rest
      let height ← grown height right.height rest
      match room with
      | 0 => .error ⟨.tooDeep, nextPosition rest⟩
      | room + 1 => chain operator? operand room (join left right) height rest

/-- An operand and the chain that it begins. -/
def chained (operator? : List Token → Option Joining) (operand : Parser Expr) : Parser Expr :=
  fun ts => do
    let (left, rest) ← operand ts
    chain operator? operand maxHeight left left.height rest

/-- The operator that a product is made of. -/
def productOp? : List Token → Option Joining
  | ⟨.symbol .star, _⟩ :: rest => some (.binary .multiply, rest)
  | ⟨.symbol .slash, _⟩ :: rest => some (.binary .divide, rest)
  | ⟨.symbol .percent, _⟩ :: rest => some (.binary .modulo, rest)
  | _ => none

def sumOp? : List Token → Option Joining
  | ⟨.symbol .plus, _⟩ :: rest => some (.binary .add, rest)
  | ⟨.symbol .minus, _⟩ :: rest => some (.binary .subtract, rest)
  | _ => none

def comparisonOp? : List Token → Option Joining
  | ⟨.symbol .equalEqual, _⟩ :: rest => some (.binary .equal, rest)
  | ⟨.symbol .notEqual, _⟩ :: rest => some (.binary .notEqual, rest)
  | ⟨.symbol .less, _⟩ :: rest => some (.binary .less, rest)
  | ⟨.symbol .greater, _⟩ :: rest => some (.binary .greater, rest)
  | ⟨.symbol .lessEqual, _⟩ :: rest => some (.binary .lessEqual, rest)
  | ⟨.symbol .greaterEqual, _⟩ :: rest => some (.binary .greaterEqual, rest)
  | ⟨.keyword .within, _⟩ :: rest => some (.binary .within, rest)
  | ⟨.keyword .not, _⟩ :: ⟨.keyword .within, _⟩ :: rest => some (.binary .notWithin, rest)
  | _ => none

def andOp? : List Token → Option Joining
  | ⟨.keyword .and, _⟩ :: rest => some (.logical .and, rest)
  | _ => none

def orOp? : List Token → Option Joining
  | ⟨.keyword .or, _⟩ :: rest => some (.logical .or, rest)
  | _ => none

/-! ### Levels of precedence -/

/-- A primary with its suffixes. -/
def suffixed (inner : Inner) : Parser Expr := fun ts => do
  let (left, rest) ← primary inner ts
  suffixes inner maxHeight left left.height rest

def negation (inner : Inner) : Parser Expr := fun ts =>
  match dropSymbol? .minus ts with
  | some rest => do
    let (operand, rest) ← inner.negative rest
    .ok (.unary .negate operand, rest)
  | none => suffixed inner ts

def product (inner : Inner) : Parser Expr := chained productOp? (negation inner)

def sum (inner : Inner) : Parser Expr := chained sumOp? (product inner)

def comparison (inner : Inner) : Parser Expr := chained comparisonOp? (sum inner)

def inversion (inner : Inner) : Parser Expr := fun ts =>
  match dropKeyword? .not ts with
  | some rest => do
    let (operand, rest) ← inner.negated rest
    .ok (.unary .not operand, rest)
  | none => comparison inner ts

def conjunction (inner : Inner) : Parser Expr := chained andOp? (inversion inner)

def disjunction (inner : Inner) : Parser Expr := chained orOp? (conjunction inner)

/-- Parameter names separated by commas; `fuel` bounds their number. -/
def parameters : (fuel : Nat) → Parser (List String)
  | 0, ts => .error (unexpected .parameterName ts)
  | fuel + 1, ts => do
    let (name, rest) ← identifier .parameterName ts
    match dropSymbol? .comma rest with
    | some rest =>
      let (names, rest) ← parameters fuel rest
      .ok (name :: names, rest)
    | none => .ok ([name], rest)

/-- The rest of a lambda after its keyword. -/
def lambda (inner : Inner) : Parser Expr := fun ts => do
  let (params, rest) ←
    match dropSymbol? .colon ts with
    | some _ => .ok ([], ts)
    | none => parameters (ts.length + 1) ts
  let rest ← dropSymbol .colon .colon rest
  let (body, rest) ← inner.expression rest
  .ok (.lambda params body, rest)

/-- The parsers with `levels` levels of nesting left. -/
def Inner.ofLevels : (levels : Nat) → Inner
  | 0 => ⟨tooDeep, tooDeep, tooDeep⟩
  | levels + 1 =>
    let inner := ofLevels levels
    { expression := fun ts =>
        match dropKeyword? .lambda ts with
        | some rest => lambda inner rest
        | none => disjunction inner ts
      negated := inversion inner
      negative := negation inner }

/-- An expression at the outermost level. -/
def expression : Parser Expr := (Inner.ofLevels maxDepth).expression

/-! ### Statements -/

/-- The rest of a dotted name, with its dots. -/
def dottedRest : Parser String
  | ⟨.symbol .dot, _⟩ :: ⟨.name word, _⟩ :: rest => do
    let (more, rest) ← dottedRest rest
    .ok ("." ++ word ++ more, rest)
  | ⟨.symbol .dot, _⟩ :: rest => .error (unexpected .moduleName rest)
  | ts => .ok ("", ts)

def dottedName : Parser String := fun ts => do
  let (first, rest) ← identifier .moduleName ts
  let (more, rest) ← dottedRest rest
  .ok (first ++ more, rest)

def newName? : Parser (Option String) := fun ts =>
  match dropKeyword? .asName ts with
  | some rest => do
    let (name, rest) ← identifier .newName rest
    .ok (some name, rest)
  | none => .ok (none, ts)

/-- Imported names separated by commas; in parentheses a last comma may stand alone. -/
def importItems (inParens : Bool) : (fuel : Nat) → Parser (List (String × Option String))
  | 0, ts => .error (unexpected .importedName ts)
  | fuel + 1, ts => do
    let (name, rest) ← identifier .importedName ts
    let (newName, rest) ← newName? rest
    match dropSymbol? .comma rest with
    | none => .ok ([(name, newName)], rest)
    | some rest =>
      if inParens && (dropSymbol? .rightParen rest).isSome then .ok ([(name, newName)], rest)
      else
        let (items, rest) ← importItems inParens fuel rest
        .ok ((name, newName) :: items, rest)

def importNames : Parser ImportNames := fun ts =>
  match dropSymbol? .star ts with
  | some rest => .ok (.all, rest)
  | none =>
    match dropSymbol? .leftParen ts with
    | some rest => do
      let (items, rest) ← importItems true (rest.length + 1) rest
      let rest ← dropSymbol .rightParen .rightParen rest
      .ok (.listed items, rest)
    | none => do
      let (items, rest) ← importItems false (ts.length + 1) ts
      .ok (.listed items, rest)

/-- A statement may end here. -/
def atStatementEnd : List Token → Bool
  | [] => true
  | t :: _ =>
    match t.kind with
    | .newline | .symbol .semicolon | .endOfInput => true
    | _ => false

/-- An expression or an assignment. -/
def simpleStatement : Parser Statement := fun ts => do
  let (left, rest) ← expression ts
  match dropSymbol? .equal rest with
  | none => .ok (.expr left, rest)
  | some rest =>
    match left.target? with
    | none => .error ⟨.badTarget, nextPosition ts⟩
    | some target =>
      let (value, rest) ← expression rest
      .ok (.assign target value, rest)

def statement : Parser Statement
  | [] => simpleStatement []
  | t :: rest =>
    match t.kind with
    | .keyword .imports => do
      let (path, rest) ← dottedName rest
      let (newName, rest) ← newName? rest
      .ok (.imports path newName, rest)
    | .keyword .froms => do
      let (path, rest) ← dottedName rest
      match dropKeyword? .imports rest with
      | none => .error (unexpected .importWord rest)
      | some rest =>
        let (names, rest) ← importNames rest
        .ok (.fromImport path names, rest)
    | .keyword .raise =>
      if atStatementEnd rest then .ok (.raise none, rest)
      else do
        let (value, rest) ← expression rest
        .ok (.raise (some value), rest)
    | .keyword .pass => .ok (.pass, rest)
    | _ => simpleStatement (t :: rest)

/-- Drops the line ends and semicolons in front. -/
def skipSeparators : List Token → List Token
  | ⟨.newline, _⟩ :: rest => skipSeparators rest
  | ⟨.symbol .semicolon, _⟩ :: rest => skipSeparators rest
  | ts => ts

/-- Nothing follows but the end of the input. -/
def atEnd : List Token → Bool
  | [] => true
  | t :: _ => t.kind == .endOfInput

/-- Statements up to the end of the input; `fuel` bounds their number. -/
def statements : (fuel : Nat) → List Token → Except SyntaxError Program
  | 0, ts => .error (unexpected .endOfStatement ts)
  | fuel + 1, ts =>
    let ts := skipSeparators ts
    if atEnd ts then .ok []
    else do
      let (first, rest) ← statement ts
      if atStatementEnd rest then
        let more ← statements fuel rest
        .ok (((nextPosition ts).line, first) :: more)
      else .error (unexpected .endOfStatement rest)

/-- The program that a token list spells. -/
def Program.ofTokens (ts : List Token) : Except SyntaxError Program :=
  statements (ts.length + 1) ts

/-- The expression that a token list spells, with separators around it. -/
def Expr.ofTokens (ts : List Token) : Except SyntaxError Expr := do
  let (e, rest) ← expression (skipSeparators ts)
  let rest := skipSeparators rest
  if atEnd rest then .ok e else .error (unexpected .endOfExpression rest)

end ScriptBridge.Syntax
