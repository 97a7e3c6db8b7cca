/-!
# Expressions and statements

The trees of the script language. The height of a tree bounds how deeply its evaluation nests.
-/

namespace ScriptBridge.Syntax

/-- A value written in the source. -/
inductive Literal where
  | none
  | bool (value : Bool)
  | int (value : Int64)
  | long (value : Int64)
  | float (value : Float)
  | text (value : String)
deriving DecidableEq

inductive UnaryOp where
  | negate | not
deriving DecidableEq, Repr

inductive BinaryOp where
  | add | subtract | multiply | divide | modulo
  | equal | notEqual | less | greater | lessEqual | greaterEqual
  | within | notWithin
deriving DecidableEq, Repr

def BinaryOp.spelling : BinaryOp → String
  | add => "+" | subtract => "-" | multiply => "*" | divide => "/" | modulo => "%"
  | equal => "==" | notEqual => "!=" | less => "<" | greater => ">"
  | lessEqual => "<=" | greaterEqual => ">=" | within => "in" | notWithin => "not in"

/-- The two operators that may leave their right operand alone. -/
inductive LogicalOp where
  | and | or
deriving DecidableEq, Repr

inductive Expr where
  | literal (value : Literal)
  | name (word : String)
  | tuple (items : List Expr)
  | attr (object : Expr) (member : String)
  | call (callee : Expr) (args : List Expr)
  | index (object key : Expr)
  | unary (op : UnaryOp) (operand : Expr)
  | binary (op : BinaryOp) (left right : Expr)
  | logical (op : LogicalOp) (left right : Expr)
  | lambda (params : List String) (body : Expr)

namespace Expr

mutual

/-- The longest path from the root to a leaf, counting both. -/
def height : Expr → Nat
  | .literal _ => 1
  | .name _ => 1
  | .tuple items => heights items + 1
  | .attr object _ => object.height + 1
  | .call callee args => max (heights args) callee.height + 1
  | .index object key => max object.height key.height + 1
  | .unary _ operand => operand.height + 1
  | .binary _ left right => max left.height right.height + 1
  | .logical _ left right => max left.height right.height + 1
  | .lambda _ body => body.height + 1

/-- The greatest height in a list of trees. -/
def heights : List Expr → Nat
  | [] => 0
  | item :: rest => max item.height (heights rest)

end

theorem height_pos (e : Expr) : 0 < e.height := by
  cases e <;> simp [height]

end Expr

/-- Where an assignment puts its value. -/
inductive Target where
  | name (word : String)
  | attr (object : Expr) (member : String)
  | index (object key : Expr)

/-- An expression that may be assigned to. -/
def Expr.target? : Expr → Option Target
  | .name word => some (.name word)
  | .attr object member => some (.attr object member)
  | .index object key => some (.index object key)
  | _ => none

/-- The names that a from-import asks for, each with the name it is bound to if that differs. -/
inductive ImportNames where
  | all
  | listed (names : List (String × Option String))

inductive Statement where
  | expr (value : Expr)
  | assign (target : Target) (value : Expr)
  | imports (path : String) (newName : Option String)
  | fromImport (path : String) (names : ImportNames)
  | raise (value : Option Expr)
  | pass

/-- Statements in order, each with the line on which it starts. -/
abbrev Program := List (Nat × Statement)

end ScriptBridge.Syntax
