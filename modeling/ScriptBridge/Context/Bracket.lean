import ScriptBridge.Bridge.Engine

/-!
# Entering and leaving contexts

An operation on a context runs with the interpreter of the context as the current one, and what
was current before is current again when it ends, however it ends. While one context is entered
no other can be. A throwable that is pending in the Host at the start is reported instead of
running anything, and an error that ends the operation leaves as a failure.
-/

namespace ScriptBridge.Context

open Bridge (World State Failure BridgeM ContextId Machine getState modifyState)
open Script (InterpreterId)

/-- An operation that the Host asks for. -/
abbrev Operation := EStateM Failure World

/-- The step has a result, or fails as it says. -/
def orFail {α : Type} : Except Failure α → Operation α
  | .ok a => pure a
  | .error f => throw f

/-- An open context. -/
def lookup (c : ContextId) : Operation Bridge.Context := do
  let s ← getState
  if s.registry.contains c then return s.context c
  else throw (.unavailable s!"context {c.number} is not open")

/-- Makes an interpreter the current one, and returns the one that was. -/
def swap {ε : Type} (current : Option InterpreterId) :
    EStateM ε World (Option InterpreterId) := do
  let rt := (← getState).runtime
  let previous := (← Script.getRuntime rt).current
  Script.modifyRuntime rt fun r => { r with current }
  return previous

/-- Runs a step with an interpreter as the current one. -/
def entering {α : Type} (ts : InterpreterId) (step : Operation α) : Operation α := do
  let rt := (← getState).runtime
  let active := (← Script.getRuntime rt).current
  match active.filter (· != ts) with
  | some other => do
    let theirs := (← Script.getInterpreter other).number
    let mine := (← Script.getInterpreter ts).number
    throw (.unavailable s!"interpreter state {theirs} is active on this thread; cannot enter {mine}")
  | none => do
    let previous ← swap (some ts)
    let outcome ← Script.attempt step
    let _ ← swap previous
    orFail outcome

/-- The failure that the pending error of a context becomes. -/
def failureOf {ε : Type} (c : ContextId) : EStateM ε World Failure := do
  let context ← Bridge.getContext c
  match ← Bridge.takeFailure? context.state context.link.printStack with
  | some failure => pure failure
  | none => return .script "RuntimeError" "RuntimeError: unknown error" none none

/-- Runs a step of a script inside a context. -/
def within {α : Type} (x : Machine) (c : ContextId) (work : InterpreterId → BridgeM α) :
    Operation α := do
  let context ← lookup c
  entering context.state do
    if (← Bridge.getContext c).closed then
      throw (.unavailable s!"context {c.number} is closed")
    match ← Bridge.pendingFailure? x.bodies with
    | some failure => throw failure
    | none =>
      match ← Script.attempt (work context.state) with
      | .ok a => pure a
      | .error _ => throw (← failureOf c)

end ScriptBridge.Context
