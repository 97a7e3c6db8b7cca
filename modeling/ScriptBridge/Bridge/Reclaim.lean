import ScriptBridge.Bridge.Pin

/-!
# Letting go of views

A view keeps its Host object as long as something can reach it: a namespace, a handle or a module
that refers to itself. Views that lost their last reference are retired, in the order in which the
references were lost, so that what scripts wrote to arrays is stored in that order.
-/

namespace ScriptBridge.Bridge

open Script (InterpreterId ModuleRef Memory)

/-! ### References -/

/-- Something that a value refers to. -/
inductive Referent where
  | module (place : Nat)
  | view (place : Nat)
deriving DecidableEq

mutual

/-- What a value refers to directly, in order. -/
def referents : Script.Value → List Referent
  | .tuple items => referentsOfAll items
  | .module m => [.module m.place]
  | .lambda _ _ globals => [.module globals.place]
  | .foreign f => [.view f.place]
  | _ => []

def referentsOfAll : List Script.Value → List Referent
  | [] => []
  | item :: rest => referents item ++ referentsOfAll rest

end

/-- What the bindings of a module refer to. -/
def referentsOfModule (m : Memory) (place : Nat) : List Referent :=
  referentsOfAll (m.namespaceOf ⟨place, "", .created⟩).values

/-- The modules among some referents. -/
def modulesAmong (rs : List Referent) : List Nat :=
  rs.filterMap fun r =>
    match r with
    | .module place => some place
    | .view _ => none

/-- Modules that are reached from some modules in so many steps. -/
def reachedFrom (m : Memory) : (steps : Nat) → (frontier reached : List Nat) → List Nat
  | 0, _, reached => reached
  | steps + 1, frontier, reached =>
    let next := (frontier.flatMap fun place => modulesAmong (referentsOfModule m place)).eraseDups
    match next.filter (!reached.contains ·) with
    | [] => reached
    | fresh => reachedFrom m steps fresh (reached ++ fresh)

/-- Modules that can be reached from some modules, these included. -/
def closure (m : Memory) (roots : List Nat) : List Nat :=
  reachedFrom m m.namespaces.size roots.eraseDups roots.eraseDups

/-- Drops modules that no other one of the list refers to, until only those are left that lie on
a cycle or are reached from one. -/
def onCycles (m : Memory) : (steps : Nat) → List Nat → List Nat
  | 0, places => places
  | steps + 1, places =>
    let needed := places.flatMap fun place => modulesAmong (referentsOfModule m place)
    let kept := places.filter needed.contains
    if kept.length = places.length then places else onCycles m steps kept

/-! ### Roots -/

/-- The modules that an interpreter holds. -/
def modulesOf (m : Memory) (ts : InterpreterId) : List Nat :=
  let i := m.interpreter ts
  (i.modules.values ++ [i.builtins, i.main]).map (·.place)

/-- Interpreters that are held: those of open contexts, those that are running, and those of
other runtimes. -/
def heldInterpreters (s : State) (m : Memory) : List InterpreterId :=
  s.registry.map (fun c => (s.context c).state) ++
    m.runtimes.toList.filterMap (·.current) ++
    (List.range m.interpreters.size).filterMap fun place =>
      if (m.interpreter ⟨place⟩).runtime = s.runtime then none else some ⟨place⟩

/-- The bridge modules of linked contexts. -/
def linkModules (s : State) : List Nat :=
  s.links.map fun (_, c) => (s.context c).link.bridgeModule.place

/-- What the handles of open contexts refer to. -/
def handleReferents (s : State) : List Referent :=
  s.registry.flatMap fun c => referentsOfAll ((s.context c).handles.map (·.2))

/-- What is held from outside the namespaces. -/
def rootModules (s : State) (m : Memory) : List Nat :=
  (heldInterpreters s m).flatMap (modulesOf m) ++ linkModules s ++
    m.runtimes.toList.flatMap (fun rt => rt.extensions.values.map (·.place)) ++
    modulesAmong (handleReferents s)

/-- The modules that stay: those that can be reached, and those that keep each other. -/
def livingModules (s : State) (m : Memory) : List Nat :=
  let reached := closure m (rootModules s m)
  let others := (List.range m.namespaces.size).filter (!reached.contains ·)
  reached ++ onCycles m others.length others

/-- The views that something refers to. -/
def livingViews (s : State) (m : Memory) : List Nat :=
  (handleReferents s ++ (livingModules s m).flatMap (referentsOfModule m)).filterMap fun r =>
    match r with
    | .view place => some place
    | .module _ => none

/-! ### Retiring -/

/-- The views that are let go of with a value, in order. Modules on the way are emptied too. -/
def viewsWithin (m : Memory) (living : List Nat) : (depth : Nat) → Referent → List Nat
  | _, .view place => [place]
  | 0, .module _ => []
  | depth + 1, .module place =>
    if living.contains place then []
    else (referentsOfModule m place).flatMap (viewsWithin m living depth)

variable {ε : Type}

/-- Retires views one after the other. -/
def retireAll : List Nat → EStateM ε World Unit
  | [] => pure ()
  | place :: rest => do
    retire place
    retireAll rest

/-- Retires the views that were let go of with the values that lost a binding. With `all`, also
those that never had one. -/
def reclaim (all : Bool) : EStateM ε World Unit := do
  let s ← getState
  let m ← Script.getMemory
  if s.proxies.any (·.held.isSome) then
    let modules := livingModules s m
    let views := livingViews s m
    let released := (referentsOfAll m.released.reverse).flatMap
      (viewsWithin m modules (m.namespaces.size + 1))
    let rest := if all then List.range s.proxies.size else []
    retireAll ((released ++ rest).filter fun place =>
      !views.contains place && (s.proxies[place]?.any (·.held.isSome)))
  Script.modifyMemory fun m => { m with released := [] }

end ScriptBridge.Bridge
