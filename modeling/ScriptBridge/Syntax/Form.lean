import ScriptBridge.Decimal.Notation
import ScriptBridge.Syntax.Expr
import ScriptBridge.Text.Quoted

/-!
# Trees as nested lists

A tree is written as a list in parentheses: first what kind of node it is, then its parts. The
structure of the tree can be read off without any rules of precedence.
-/

namespace ScriptBridge.Syntax

/-- Words in parentheses. -/
def form (words : List String) : String := "(" ++ String.intercalate " " words ++ ")"

def Literal.form : Literal → String
  | .none => "none"
  | .bool value => if value then "true" else "false"
  | .int value => Syntax.form ["int", toString value.toInt]
  | .long value => Syntax.form ["long", toString value.toInt]
  | .float value => Syntax.form ["float", Decimal.floatText value]
  | .text value => Syntax.form ["str", Text.quoted value]

def UnaryOp.word : UnaryOp → String
  | .negate => "neg"
  | .not => "not"

/-- The spelling of an operator as one word. -/
def BinaryOp.word (op : BinaryOp) : String :=
  if op = .notWithin then "not-in" else op.spelling

def LogicalOp.word : LogicalOp → String
  | .and => "and"
  | .or => "or"

namespace Expr

mutual

def form : Expr → String
  | .literal value => value.form
  | .name word => Syntax.form ["name", word]
  | .tuple items => Syntax.form ("tuple" :: forms items)
  | .attr object member => Syntax.form ["attr", object.form, member]
  | .call callee args => Syntax.form ("call" :: callee.form :: forms args)
  | .index object key => Syntax.form ["index", object.form, key.form]
  | .unary op operand => Syntax.form [op.word, operand.form]
  | .binary op left right => Syntax.form [op.word, left.form, right.form]
  | .logical op left right => Syntax.form [op.word, left.form, right.form]
  | .lambda params body => Syntax.form ["lambda", Syntax.form params, body.form]

def forms : List Expr → List String
  | [] => []
  | item :: rest => item.form :: forms rest

end

end Expr

def Target.form : Target → String
  | .name word => Syntax.form ["name", word]
  | .attr object member => Syntax.form ["attr", object.form, member]
  | .index object key => Syntax.form ["index", object.form, key.form]

/-- Words with the name that something is bound to, if it is another one. -/
def aliasedForm (words : List String) (newName : Option String) : String :=
  form (words ++ (newName.map (["as", ·])).getD [])

def Statement.form : Statement → String
  | .expr value => Syntax.form ["expr", value.form]
  | .assign target value => Syntax.form ["assign", target.form, value.form]
  | .imports path newName => aliasedForm ["import", path] newName
  | .fromImport path .all => Syntax.form ["from", path, "*"]
  | .fromImport path (.listed names) =>
    Syntax.form ("from" :: path :: names.map fun (name, newName) => aliasedForm [name] newName)
  | .raise value => Syntax.form ("raise" :: (value.map Expr.form).toList)
  | .pass => Syntax.form ["pass"]

end ScriptBridge.Syntax
