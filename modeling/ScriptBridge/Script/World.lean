import ScriptBridge.Script.Value
import ScriptBridge.Table

/-!
# The memory of the script side

Namespaces live in a heap, so that several names, interpreters and lambdas can share a module. An
interpreter owns a table of modules, a slot for the error that is pending, and two counters that
bound its recursion. Interpreters belong to a runtime, which knows which of them is running and
which native modules they share.

Everything that runs is a state transformer over a world: this memory and whatever lies outside
the script side. A step that fails leaves its error in the slot of its interpreter and only says
that it did.
-/

namespace ScriptBridge.Script

/-- An interpreter, by its place in the memory. -/
structure InterpreterId where
  place : Nat
deriving DecidableEq, Repr, Inhabited

/-- A runtime, by its place in the memory. -/
structure RuntimeId where
  place : Nat
deriving DecidableEq, Repr, Inhabited

structure Interpreter where
  /-- The number of the interpreter within its runtime. -/
  number : Nat
  runtime : RuntimeId
  modules : Table ModuleRef
  builtins : ModuleRef
  main : ModuleRef
  /-- The pending error. -/
  error : Option Exception := none
  /-- Lambdas that are being called. -/
  depth : Nat := 0
  /-- Expressions that are being evaluated. -/
  nesting : Nat := 0
deriving Inhabited

structure Runtime where
  current : Option InterpreterId := none
  extensions : Table ModuleRef := {}
  nextNumber : Nat := 1
  /-- Interpreters that were made less those that were ended, as a machine word. -/
  live : UInt64 := 0
  finalized : Bool := false
deriving Inhabited

structure Memory where
  namespaces : Array (Table Value) := #[]
  interpreters : Array Interpreter := #[]
  runtimes : Array Runtime := #[]
  /-- How many error types were made. -/
  errorTypes : Nat := 0
  /-- What was written to the standard output. -/
  output : String := ""
  /-- What was written to the standard error stream. -/
  diagnostics : String := ""
  /-- Values that lost a binding since the last settlement, last one first. -/
  released : List Value := []
  /-- A computation was given up because it called itself too often. -/
  exhausted : Bool := false
deriving Inhabited

/-- The script side and what lies outside it. -/
structure World (σ : Type) where
  memory : Memory
  outside : σ

/-- Says that an error is pending. -/
structure Raised where
deriving DecidableEq, Repr

/-- A step of a script. -/
abbrev ScriptM (σ : Type) := EStateM Raised (World σ)

variable {σ : Type} {ε : Type}

/-! ### Memory -/

/-- Changes the script side. -/
def World.onMemory (f : Memory → Memory) (w : World σ) : World σ := { w with memory := f w.memory }

def getMemory : EStateM ε (World σ) Memory := do return (← get).memory

def modifyMemory (f : Memory → Memory) : EStateM ε (World σ) Unit := modify (World.onMemory f)

/-- Writes to the standard output. -/
def printText (text : String) : EStateM ε (World σ) Unit :=
  modifyMemory fun m => { m with output := m.output ++ text }

/-- Writes a line to the standard output. -/
def printLine (line : String) : EStateM ε (World σ) Unit := printText (line ++ "\n")

/-- Writes a line to the standard error stream. -/
def reportLine (line : String) : EStateM ε (World σ) Unit :=
  modifyMemory fun m => { m with diagnostics := m.diagnostics ++ line ++ "\n" }

/-- Takes what was written to the standard output and to the standard error stream. -/
def takeWritten : EStateM ε (World σ) (String × String) := do
  let m ← getMemory
  modifyMemory fun m => { m with output := "", diagnostics := "" }
  return (m.output, m.diagnostics)

/-! ### Namespaces -/

namespace Memory

def namespaceOf (m : Memory) (module : ModuleRef) : Table Value :=
  m.namespaces[module.place]?.getD {}

def onNamespace (f : Table Value → Table Value) (module : ModuleRef) (m : Memory) : Memory :=
  { m with namespaces := m.namespaces.modify module.place f }

end Memory

mutual

/-- The value refers to no module and to no foreign object. -/
def Value.isPlain : Value → Bool
  | .module _ => false
  | .lambda _ _ _ => false
  | .foreign _ => false
  | .tuple items => arePlain items
  | _ => true

def Value.arePlain : List Value → Bool
  | [] => true
  | item :: rest => item.isPlain && arePlain rest

end

/-- Notes that a value lost a binding. -/
def Memory.release (value : Option Value) (m : Memory) : Memory :=
  match value with
  | some v => if v.isPlain then m else { m with released := v :: m.released }
  | none => m

/-- A new module with an empty namespace. -/
def newModule (name : String) (origin : Origin) : EStateM ε (World σ) ModuleRef := do
  let m ← getMemory
  modifyMemory fun m => { m with namespaces := m.namespaces.push {} }
  return ⟨m.namespaces.size, name, origin⟩

def lookup? (module : ModuleRef) (name : String) : EStateM ε (World σ) (Option Value) := do
  return ((← getMemory).namespaceOf module).get? name

def bindName (module : ModuleRef) (name : String) (value : Value) : EStateM ε (World σ) Unit :=
  modifyMemory fun m =>
    (m.release ((m.namespaceOf module).get? name)).onNamespace (·.insert name value) module

/-- Binds several names in order. -/
def bindAll (module : ModuleRef) : List (String × Value) → EStateM ε (World σ) Unit
  | [] => pure ()
  | (name, value) :: rest => do
    bindName module name value
    bindAll module rest

def unbindName (module : ModuleRef) (name : String) : EStateM ε (World σ) Unit :=
  modifyMemory fun m =>
    (m.release ((m.namespaceOf module).get? name)).onNamespace (·.erase name) module

/-- Removes every binding of a module. -/
def clearModule (module : ModuleRef) : EStateM ε (World σ) Unit :=
  modifyMemory fun m =>
    ((m.namespaceOf module).values.foldl (fun m v => m.release (some v)) m).onNamespace
      (fun _ => {}) module

/-- The bindings of a module whose names do not begin with an underscore. -/
def publicEntries (module : ModuleRef) : EStateM ε (World σ) (List (String × Value)) := do
  return ((← getMemory).namespaceOf module).entries.filter fun (name, _) =>
    name.toList.head? != some '_'

/-! ### Interpreters -/

def Memory.interpreter (m : Memory) (ts : InterpreterId) : Interpreter :=
  m.interpreters[ts.place]?.getD default

def Memory.runtime (m : Memory) (rt : RuntimeId) : Runtime := m.runtimes[rt.place]?.getD default

def getInterpreter (ts : InterpreterId) : EStateM ε (World σ) Interpreter := do
  return (← getMemory).interpreter ts

def Memory.onInterpreter (ts : InterpreterId) (f : Interpreter → Interpreter) (m : Memory) :
    Memory :=
  { m with interpreters := m.interpreters.modify ts.place f }

def modifyInterpreter (ts : InterpreterId) (f : Interpreter → Interpreter) :
    EStateM ε (World σ) Unit :=
  modifyMemory (·.onInterpreter ts f)

/-! ### The pending error -/

/-- Replaces the pending error. -/
def setError (ts : InterpreterId) (e : Option Exception) : EStateM ε (World σ) Unit :=
  modifyInterpreter ts fun i => { i with error := e }

/-- Makes an error pending and fails. -/
def raiseException {α : Type} (ts : InterpreterId) (e : Exception) : ScriptM σ α := do
  setError ts (some e)
  throw {}

def clearError (ts : InterpreterId) : EStateM ε (World σ) Unit := setError ts none

/-- Whether the pending error belongs to a family. -/
def errorIsA (ts : InterpreterId) (family : Family) : EStateM ε (World σ) Bool := do
  return (← getInterpreter ts).error.any (·.isA family)

/-- Takes the pending error away. -/
def takeError (ts : InterpreterId) : EStateM ε (World σ) (Option Exception) := do
  let e := (← getInterpreter ts).error
  clearError ts
  return e

/-- Adds a line to the trace of the pending error. -/
def pushTrace (ts : InterpreterId) (file : String) (line : Nat) : EStateM ε (World σ) Unit :=
  modifyInterpreter ts fun i => { i with error := i.error.map (·.pushTrace file line) }

/-- Runs a step and tells whether it failed; its error stays pending. -/
def attempt {α : Type} (step : EStateM ε (World σ) α) {ε' : Type} :
    EStateM ε' (World σ) (Except ε α) :=
  fun w =>
    match step w with
    | .ok a w => .ok (.ok a) w
    | .error e w => .ok (.error e) w

end ScriptBridge.Script

namespace ScriptBridge

variable {ω ε α β : Type} {step : EStateM ε ω α} {next : α → EStateM ε ω β} {w w' : ω}

theorem bind_ok {a : α} (h : step w = .ok a w') : (step >>= next) w = next a w' := by
  simp only [Bind.bind, EStateM.bind, h]

theorem bind_error {e : ε} (h : step w = .error e w') : (step >>= next) w = .error e w' := by
  simp only [Bind.bind, EStateM.bind, h]

end ScriptBridge
