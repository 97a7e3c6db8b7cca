import ScriptBridge.Script.Evaluator

/-!
# Runtimes and interpreters

A runtime starts with the math module, which its interpreters share. An interpreter is made with
fresh namespaces and ends by emptying all that it does not share, so that modules and lambdas
which refer to each other are let go.
-/

namespace ScriptBridge.Script

variable {σ ε : Type}

/-- A runtime with the native modules. -/
def newRuntime : EStateM ε (World σ) RuntimeId := do
  let math ← newModule "math" .native
  bindAll math mathEntries
  let place := (← getMemory).runtimes.size
  modifyMemory fun m =>
    { m with runtimes := m.runtimes.push { extensions := ({} : Table ModuleRef).insert "math" math } }
  return ⟨place⟩

def modifyRuntime (rt : RuntimeId) (f : Runtime → Runtime) : EStateM ε (World σ) Unit :=
  modifyMemory fun m => { m with runtimes := m.runtimes.modify rt.place f }

def getRuntime (rt : RuntimeId) : EStateM ε (World σ) Runtime := do
  return (← getMemory).runtime rt

/-- An interpreter with fresh top-level and built-in namespaces. -/
def newInterpreter (rt : RuntimeId) : EStateM ε (World σ) InterpreterId := do
  let number := (← getRuntime rt).nextNumber
  let builtins ← newModule "builtins" .builtins
  bindAll builtins builtinEntries
  let main ← newModule "__main__" .main
  bindName main "__name__" (.text "__main__")
  let modules := (({} : Table ModuleRef).insert "builtins" builtins).insert "__main__" main
  let place := (← getMemory).interpreters.size
  modifyMemory fun m =>
    { m with interpreters := m.interpreters.push { number, runtime := rt, modules, builtins, main } }
  modifyRuntime rt fun r => { r with nextNumber := r.nextNumber + 1, live := r.live + 1 }
  return ⟨place⟩

/-- The module registered under a name. -/
def moduleNamed? (ts : InterpreterId) (name : String) : EStateM ε (World σ) (Option ModuleRef) := do
  return (← getInterpreter ts).modules.get? name

def addModule (ts : InterpreterId) (module : ModuleRef) : EStateM ε (World σ) Unit :=
  modifyInterpreter ts fun i => { i with modules := i.modules.insert module.name module }

/-- The module registered under a name, made with `origin` if there is none. -/
def moduleOrNew (ts : InterpreterId) (name : String) (origin : Origin) :
    EStateM ε (World σ) ModuleRef := do
  match ← moduleNamed? ts name with
  | some module => pure module
  | none =>
    let module ← newModule name origin
    addModule ts module
    return module

def clearAll : List ModuleRef → EStateM ε (World σ) Unit
  | [] => pure ()
  | module :: rest => do
    clearModule module
    clearAll rest

/-- Ends an interpreter: every namespace it does not share is emptied. -/
def endInterpreter (ts : InterpreterId) : EStateM ε (World σ) Unit := do
  let i ← getInterpreter ts
  modifyInterpreter ts fun i => { i with modules := {} }
  clearAll (i.modules.values.filter (·.origin != .native))
  clearAll [i.main, i.builtins]
  clearError ts
  modifyRuntime i.runtime fun r => { r with live := r.live - 1 }

/-- Drops the native modules of a runtime. -/
def finalize (rt : RuntimeId) : EStateM ε (World σ) Unit :=
  modifyRuntime rt fun r =>
    if r.finalized then r else { r with finalized := true, current := none, extensions := {} }

/-- An engine without anything foreign. -/
def Engine.closed (body : InterpreterId → Scope → Syntax.Expr → ScriptM σ Value) : Engine σ where
  body := body
  getAttr := fun _ _ _ => giveUp
  setAttr := fun _ _ _ _ => giveUp
  getItem := fun _ _ _ => giveUp
  setItem := fun _ _ _ _ => giveUp
  length := fun _ _ => giveUp
  contains := fun _ _ _ => giveUp
  call := fun _ _ _ => giveUp
  number := fun _ _ => giveUp
  text := fun _ _ => giveUp
  equals := fun _ _ _ => giveUp
  attrNames := fun _ => giveUp
  extension := fun _ _ _ => giveUp
  settle := modifyMemory fun m => { m with released := [] }

/-- An engine for scripts that meet nothing foreign, with `calls` levels of lambda calls. -/
def Engine.alone : (calls : Nat) → Engine σ
  | 0 => .closed fun _ _ _ => giveUp
  | calls + 1 => .closed (eval (alone calls))

end ScriptBridge.Script
