import ScriptBridge.Syntax.Grammar
import ScriptBridge.Syntax.Source

/-!
# From text to trees
-/

namespace ScriptBridge.Syntax

/-- The statements of a source text. -/
def readProgram (source : String) : Except SyntaxError Program := do
  Program.ofTokens (← tokens source)

/-- The one expression of a source text. -/
def readExpr (source : String) : Except SyntaxError Expr := do
  Expr.ofTokens (← tokens source)

end ScriptBridge.Syntax
