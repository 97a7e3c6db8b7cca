import ScriptBridge.Bridge.Kind
import ScriptBridge.Config
import ScriptBridge.Host.Identity

/-!
# Failures

How an operation on a context fails, as the Host sees it. Each way has a category, which callers
branch on, and a message.
-/

namespace ScriptBridge.Bridge

inductive Failure where
  | badLoader
  /-- A context that is closed, unknown, or that cannot be entered now. -/
  | unavailable (detail : String)
  | syntaxError (message : String)
  /-- An error of a script. A mapped class is the Host class that its type stands for. -/
  | script (kind message : String) (mappedClass : Option String) (cause : Option Host.ObjectId)
  /-- A Host throwable that no script was running to receive. -/
  | host (className message : String)
  | typeMismatch (position : Nat) (message : String)
  | unresolvedImport (path message : String)
  | outOfMemory (message : String)
  | typeUnavailable (kind : Kind) (reason : String)
  | scriptFile (path reason : String)
  | badModule
  | badTypeId (id : Int)
  | badConfig (error : ConfigError)
deriving DecidableEq

namespace Failure

/-- A short label of the way an operation failed. -/
def category : Failure → String
  | badLoader => "invalid-classloader"
  | unavailable _ => "thread-state"
  | syntaxError _ => "syntax"
  | script _ _ _ _ => "script"
  | host _ _ => "host"
  | typeMismatch _ _ => "type-mismatch"
  | unresolvedImport _ _ => "import"
  | outOfMemory _ => "out-of-memory"
  | typeUnavailable _ _ => "type-unavailable"
  | scriptFile _ _ => "script-file"
  | badModule => "invalid-module"
  | badTypeId _ => "typeid"
  | badConfig _ => "config"

def message : Failure → String
  | badLoader => "Invalid Classloader."
  | unavailable detail => "thread state unavailable: " ++ detail
  | syntaxError message => message
  | script _ message _ _ => message
  | host _ message => message
  | typeMismatch _ message => message
  | unresolvedImport _ message => message
  | outOfMemory message => "out of memory: " ++ message
  | typeUnavailable kind reason => s!"type token for {kind.name} unavailable: {reason}"
  | scriptFile path reason => s!"Couldn't open script file. {path}: {reason}"
  | badModule => "Invalid onModule."
  | badTypeId id => s!"invoke: Unhandled typeid {id}"
  | badConfig error => (error.message?).getD "invalid configuration"

end Failure
end ScriptBridge.Bridge
