import ScriptBridge.Context.Operation

/-!
# Scripts and the Host calling each other

A Host method may evaluate a script, which may call the Host again, and so on. Every such step
goes down one level, and the machine of a level runs on the machine below it. Only a computation
that descends through all levels is given up, and then says so.
-/

namespace ScriptBridge.Context

open Bridge (World Machine getState)

/-- A failure of an operation that a Host body asked for; it becomes pending. -/
def failingBody {α : Type} (x : Machine) (operation : Operation α) : Host.BodyM World α := do
  match ← Script.attempt operation with
  | .ok a => pure a
  | .error failure => Host.calling (failure.throwInto x.bodies)

/-- The context that a body knows by name. -/
def namedContext (name : String) : Host.BodyM World Bridge.ContextId := do
  return ((← getState).contextNames.get? name).getD default

/-- What a Host body asks of the contexts. -/
def callback (x : Machine) : Host.Callback → Host.BodyM World Host.Value
  | .evaluate context expression => do
    let c ← namedContext context
    return .ofRef (← failingBody x (evalForValue x c expression none))
  | .closeContext context => do
    let c ← namedContext context
    failingBody x (close c)
    return .null
  | .closeContexts => do
    closeAll
    return .null

/-- The machine one level above another. -/
def machineOver (below : Unit → Machine) : Machine :=
  let bodies : Host.Bodies World :=
    .over (fun request => callback (below ()) request) fun _ => (below ()).bodies
  { bodies
    engine := Bridge.engine bodies fun ts scope body => Script.eval (below ()).engine ts scope body }

/-- The machine on which nothing runs. -/
def noMachine : Machine where
  bodies :=
    { method := fun _ _ _ => do
        Script.modifyMemory fun m => { m with exhausted := true }
        throw .pending
      construct := fun _ _ _ => do
        Script.modifyMemory fun m => { m with exhausted := true }
        throw .pending }
  engine := Bridge.engine .none fun _ _ _ => Script.giveUp

/-- The machine with so many levels. -/
def machine : (levels : Nat) → Machine
  | 0 => noMachine
  | levels + 1 => machineOver fun _ => machine levels

/-- The levels that a program has at its disposal. -/
def levels : Nat := 1000000

/-- The machine that programs run on. -/
def standard : Machine := machine levels

end ScriptBridge.Context
