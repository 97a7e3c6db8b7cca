import ScriptBridge.Host.Identity
import ScriptBridge.Script.ErrorType

/-!
# Raised errors

A raised error has a type and maybe a message. It collects the lines it passes through, innermost
first, and keeps the Host throwable that caused it.
-/

namespace ScriptBridge.Script

/-- A line of a script that an error passed through. -/
structure TraceEntry where
  file : String
  line : Nat
deriving DecidableEq, Repr

/-- What is known about an error beside its message. -/
inductive Detail where
  /-- The argument at fault, counted from one. -/
  | position (argument : Nat)
  /-- The dotted path that could not be imported. -/
  | importPath (path : String)
deriving DecidableEq, Repr

/-- A raised error. -/
structure Exception where
  type : ErrorType
  message : Option String := none
  trace : List TraceEntry := []
  cause : Option Host.ObjectId := none
  detail : Option Detail := none
deriving DecidableEq

namespace Exception

def isA (e : Exception) (family : Family) : Bool := e.type.isA family

/-- The qualified type name, and the message if there is one. -/
def render (e : Exception) : String :=
  match e.message with
  | some message => e.type.qualifiedName ++ ": " ++ message
  | none => e.type.qualifiedName

/-- The lines an error passed through, outermost first, and the error. -/
def renderTrace (e : Exception) : String :=
  let lines := e.trace.reverse.map fun entry => s!"  File \"{entry.file}\", line {entry.line}\n"
  "Traceback (most recent call last):\n" ++ String.join lines ++ e.render

def pushTrace (e : Exception) (file : String) (line : Nat) : Exception :=
  { e with trace := e.trace ++ [⟨file, line⟩] }

end Exception
end ScriptBridge.Script
