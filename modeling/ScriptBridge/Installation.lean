import ScriptBridge.Context.Machine
import ScriptBridge.Host.Standard

/-!
# The bridges of a program

A program has at most one live bridge. Asking for a bridge gives the live one, or makes one over a
Host of its own. A bridge that was shut down stays shut down: it opens no more contexts, and the
next request makes another.
-/

namespace ScriptBridge

open Bridge (World State ContextId)
open Context (Operation)

/-- The world of a new Host. -/
def Bridge.World.fresh : World := ⟨{}, { realm := Host.Realm.standard }⟩

/-- Opens a context over the class loader that sees every class. -/
def Context.openSystem : Operation ContextId := do
  let loader ← Host.onRealm (Host.Realm.newLoader none)
  Context.create (some loader)

structure Installation where
  /-- The bridges in the order in which they were made. -/
  bridges : Array World := #[]
  /-- The place of the live one. -/
  live : Option Nat := none

namespace Installation

/-- The live bridge. If there is none, a new one with these options becomes live. -/
def acquire (config : Config) : EStateM ConfigError Installation Nat := fun p =>
  match p.live with
  | some n => .ok n p
  | none =>
    match Context.start config World.fresh with
    | .error e _ => .error e p
    | .ok () w => .ok p.bridges.size ⟨p.bridges.push w, some p.bridges.size⟩

/-- Takes a step on a bridge. A bridge that was never made takes none. -/
def onBridge {ε α : Type} (n : Nat) (missing : ε) (step : EStateM ε World α) :
    EStateM ε Installation α := fun p =>
  match p.bridges[n]? with
  | none => .error missing p
  | some w =>
    match step w with
    | .ok a w => .ok a { p with bridges := p.bridges.setIfInBounds n w }
    | .error e w => .error e { p with bridges := p.bridges.setIfInBounds n w }

/-- Shuts the live bridge down. -/
def release (p : Installation) : Installation :=
  match p.live with
  | none => p
  | some n =>
    let shut (w : World) : World :=
      match (Context.shutDown : EStateM Empty World Unit) w with
      | .ok _ w => w
      | .error e _ => nomatch e
    ⟨p.bridges.modify n shut, none⟩

end Installation
end ScriptBridge
