import ScriptBridge.Proofs.Boundary.Cleanliness
import ScriptBridge.Proofs.Library.Standard

/-!
# Bodies start while nothing is pending

A call into the Host does not look whether a throwable is pending. It need not, as long as no body
leaves one while it returns: whatever else were done in place of a body that would start while a
throwable is pending, no operation would end otherwise.
-/

namespace ScriptBridge.Boundary

open Host (Callback)
open Bridge (World Machine)
open Script (InterpreterId)
open Context (Operation Offered Procedures machineRunning)

variable {procedures : Procedures} {α : Type} {op : Machine → Operation α} {w : World}

/-- Bodies in whose place something else is done while a throwable is pending. -/
def heeding (instead bodies : Host.Bodies World) : Host.Bodies World where
  method body target args := do
    if (← Host.getRealm).pending.isSome then instead.method body target args
    else bodies.method body target args
  construct construction c args := do
    if (← Host.getRealm).pending.isSome then instead.construct construction c args
    else bodies.construct construction c args

/-- The machine with so many levels on which no body starts while a throwable is pending. -/
def machineHeeding (instead : Host.Bodies World) (procedures : Procedures) : Nat → Machine
  | 0 => Context.noMachine
  | level + 1 =>
    let below := machineHeeding instead procedures level
    let bodies : Host.Bodies World := heeding instead <|
      .over (fun request => (procedures level request).run Context.closeAll below) fun _ =>
        below.bodies
    { bodies
      engine := Bridge.engine bodies fun ts scope body => Script.eval below.engine ts scope body }

/-- The check makes no difference where nothing is pending. -/
theorem heeding_keeps {current : Option InterpreterId} {b b' : Host.Bodies World}
    (instead : Host.Bodies World) (h : (discipline current).Bodies b b') :
    (discipline current).Bodies b (heeding instead b') where
  serving := trivial
  method body permitted target args := by
    intro w calm
    have unheeded : (heeding instead b').method body target args w = b'.method body target args w := by
      show (if w.outside.realm.pending.isSome then instead.method body target args
        else b'.method body target args) w = _
      rw [calm.2.2]
      rfl
    rw [unheeded]
    exact h.method body permitted target args w calm
  construct construction c args := by
    intro w calm
    have unheeded : (heeding instead b').construct construction c args w =
        b'.construct construction c args w := by
      show (if w.outside.realm.pending.isSome then instead.construct construction c args
        else b'.construct construction c args) w = _
      rw [calm.2.2]
      rfl
    rw [unheeded]
    exact h.construct construction c args w calm

/-- By induction on the levels: what a body asks for is done on the machine below it. -/
theorem machines_heed (instead : Host.Bodies World) (procedures : Procedures) (levels : Nat) :
    regime.Machines (machineRunning Context.closeAll procedures levels)
      (machineHeeding instead procedures levels) := by
  induction levels with
  | zero => exact fun _ => Discipline.noMachine_keeps trivial trivial
  | succ level ih =>
    intro current
    have below := ih current
    have asked (request : Callback) := Regime.procedure_keeps lifecycle (closeAll_keeps current) ih
      (procedures level request)
    have bodies : (discipline current).Bodies (machineRunning Context.closeAll procedures (level + 1)).bodies
        (machineHeeding instead procedures (level + 1)).bodies := by
      apply heeding_keeps
      exact ⟨trivial, fun body permitted => Discipline.body_keeps below.bodies asked permitted,
        Discipline.construction_keeps below.bodies⟩
    exact ⟨bodies, Discipline.engine_keeps bodies fun _ scope expr =>
      Discipline.eval_keeps below.engine scope expr⟩

/-- In a session without bodies that leave a throwable and return, no body starts while a throwable
is pending, also where an operation is asked for over one. -/
theorem offered_heeds (reached : Reached procedures w) (offered : Offered op) (levels : Nat)
    (instead : Host.Bodies World) :
    op (machineRunning Context.closeAll procedures levels) w =
      op (machineHeeding instead procedures levels) w := by
  obtain ⟨current, settled⟩ := reached.settled
  have served := Regime.offered_serves lifecycle (machines_heed instead procedures levels) offered
    false current w settled
  exact served.same id

/-! ### A call of a library method -/

theorem Reached.openSystem (reached : Reached procedures w) :
    Reached procedures (World.after (Context.openSystem w)) := by
  obtain ⟨current, settled⟩ := reached.settled
  let made := Host.Realm.newLoader none w.outside.realm
  have extended : w.outside.realm.Extends made.2 := Host.Extending.newLoader none w.outside.realm
  have clean := extended.permitted settled.1.permitted.realm
  exact .performed 0 (.host reached clean) (.create (some made.1))

/-- A script has imported a class. -/
def imported : World :=
  World.after (Context.eval (Context.machine 4) ⟨1⟩ "import java.lang.Math" .opened)

theorem imported_reached : Reached Context.own imported := by
  have begun : Reached Context.own World.started := .start Host.standard_clean started_eq
  have ran := begun.openSystem.performed 4 (.eval ⟨1⟩ "import java.lang.Math")
  rw [← Context.machine_eq] at ran
  exact ran

/-- Whether an operation gave an object that holds the number. -/
def gives (n : Int32) : EStateM.Result Bridge.Failure World (Option Host.ObjectId) → Bool
  | .ok (some o) w => match w.outside.realm.payload o with
    | .boxed (.int m) => m = n
    | _ => false
  | _ => false

theorem offered_heeds_call :
    gives 2 (Context.evalForValue (Context.machine 4) ⟨1⟩ "Math.max(1, 2)" none imported) ∧
    Context.evalForValue (Context.machine 4) ⟨1⟩ "Math.max(1, 2)" none imported =
      Context.evalForValue (machineHeeding .none Context.own 4) ⟨1⟩ "Math.max(1, 2)" none
        imported := by
  have same := offered_heeds imported_reached (.evalForValue ⟨1⟩ "Math.max(1, 2)" none) 4 .none
  rw [← Context.machine_eq] at same
  exact ⟨by decide +kernel, same⟩

end ScriptBridge.Boundary
