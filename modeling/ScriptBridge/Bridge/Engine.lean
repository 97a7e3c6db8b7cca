import ScriptBridge.Bridge.Import
import ScriptBridge.Bridge.Member
import ScriptBridge.Bridge.Reclaim

/-!
# Scripts over a Host

The evaluator of the script language, with foreign values that are views of Host objects.
-/

namespace ScriptBridge.Bridge

/-- What scripts and Host bodies can run. -/
structure Machine where
  bodies : Host.Bodies World
  engine : Script.Engine State

/-- The evaluator over the Host. Bodies of lambdas are evaluated as `body` says. -/
def engine (bodies : Host.Bodies World)
    (body : Script.InterpreterId → Script.Scope → Syntax.Expr → BridgeM Script.Value) :
    Script.Engine State where
  body := body
  getAttr := getAttr bodies
  setAttr := setAttr bodies
  getItem := getItem bodies
  setItem := setItem bodies
  length := length bodies
  contains := contains bodies
  call := call bodies
  number := number bodies
  text := viewText bodies
  equals := equals bodies
  attrNames := attrNames
  extension := callExtension bodies
  settle := reclaim true

end ScriptBridge.Bridge
