import ScriptBridge.Proofs.Isolation.Modules

/-!
# Requests

What may be asked of an interpreter without a Host: to run a source text, to hand out its pending
error, to remove a name, and to end. A request that is served in two memories keeps pace.
-/

namespace ScriptBridge.Isolation

open Script (Value ModuleRef Interpreter InterpreterId RuntimeId Memory World Exception Mode)

variable {σ ε α : Type}

inductive Request where
  /-- Run a source text at top level, or in the module of a name, which is made if need be. -/
  | exec (mode : Mode) (source file : String) (module : Option String)
  | fetch
  | remove (name : String)
  | finish

/-- What the one who asked gets to see. -/
structure Outcome where
  /-- The value of a text that did not fail, or the value that a removed name had. -/
  value : Option Value
  error : Option Exception
  printed : String

def Outcome.rename (move : Nat → Nat) (o : Outcome) : Outcome :=
  { o with value := o.value.map (·.rename move) }

/-- The module that a text runs in. -/
def globalsOf (ts : InterpreterId) : Option String → EStateM ε (World σ) ModuleRef
  | none => do return (← Script.getInterpreter ts).main
  | some name => Script.moduleOrNew ts name .created

/-- Serves a request with so many levels of lambda calls. -/
def Request.serve (calls : Nat) (ts : InterpreterId) :
    Request → EStateM Empty (World σ) (Option Value × Option Exception)
  | .exec mode source file module => do
    let globals ← globalsOf ts module
    let result ← Script.attempt (Script.execSource (.alone calls) ts source mode file globals)
    return (result.toOption, (← Script.getInterpreter ts).error)
  | .fetch => do return (none, ← Script.takeError ts)
  | .remove name => do
    let main := (← Script.getInterpreter ts).main
    let value ← Script.lookup? main name
    Script.unbindName main name
    return (value, none)
  | .finish => do
    Script.endInterpreter ts
    return (none, none)

/-- Serves a request and sets apart what it prints. -/
def Request.perform (calls : Nat) (ts : InterpreterId) (request : Request) (w : World σ) :
    Outcome × World σ :=
  match request.serve calls ts (w.onMemory fun m => { m with output := "" }) with
  | .ok (value, error) v =>
    (⟨value, error, v.memory.output⟩,
      v.onMemory fun m => { m with output := w.memory.output ++ m.output })
  | .error never _ => nomatch never

namespace Pairing

variable {π π' : Pairing} {ts : InterpreterId} {w w' : World σ}

def SameAnswer (π : Pairing) (o o' : Option Value × Option Exception) : Prop :=
  o'.1 = o.1.map (·.rename π.move) ∧ (∀ v, o.1 = some v → π.Holds v) ∧ o'.2 = o.2

namespace Lockstep

theorem takeError (mine : π.compared ts) :
    π.Lockstep ts Eq (Script.takeError ts : EStateM ε (World σ) (Option Exception))
      (Script.takeError ts) := by
  refine .bind (.interpreter mine) fun i _ same => ?_
  rw [same.1]
  exact .bindEq (.setError mine none) fun _ => .pure rfl

theorem mainModule (mine : π.compared ts) :
    π.Lockstep ts (fun a a' => a' = a.rename π.move ∧ π.held a)
      (globalsOf ts none : EStateM ε (World σ) ModuleRef) (globalsOf ts none) := by
  refine .bind (.interpreter mine) fun i _ ⟨moves, rooted⟩ => .pure ?_
  rw [moves]
  exact ⟨rfl, rooted.main⟩

/-- A source text in a module that is held. -/
theorem execHeld (calls : Nat) (mine : π.compared ts) {globals : ModuleRef}
    (held : π.held globals) (mode : Mode) (source file : String) :
    π.Lockstep ts π.SameAnswer
      (do
        let result ← Script.attempt (Script.execSource (.alone calls) ts source mode file globals)
        return (result.toOption, (← Script.getInterpreter ts).error) :
          EStateM Empty (World σ) (Option Value × Option Exception))
      (do
        let result ← Script.attempt
          (Script.execSource (.alone calls) ts source mode file (globals.rename π.move))
        return (result.toOption, (← Script.getInterpreter ts).error)) := by
  refine .bind (.attempt (.execSource mine calls held source mode file)) fun result result' same => ?_
  refine .bind (.interpreter mine) fun i _ here => .pure ?_
  rw [here.1]
  match result, result', same with
  | .ok v, .ok _, same =>
    refine ⟨congrArg some same.1, fun u found => ?_, rfl⟩
    cases found
    exact same.2
  | .error _, .error _, _ => exact ⟨rfl, nofun, rfl⟩

theorem removeName (mine : π.compared ts) (calls : Nat) (name : String) :
    π.Lockstep ts π.SameAnswer
      ((Request.remove name).serve calls ts :
        EStateM Empty (World σ) (Option Value × Option Exception))
      ((Request.remove name).serve calls ts) := by
  refine .bind (.interpreter mine) fun i _ ⟨moves, rooted⟩ => ?_
  subst moves
  refine .bind (.lookup rooted.main name) fun value _ same => ?_
  exact .bindEq (.unbindName rooted.main name) fun _ => .pure ⟨same.1, same.2, rfl⟩

end Lockstep

/-- Two steps that cannot fail and keep pace. -/
theorem Lockstep.total {R : α → α → Prop} {step step' : EStateM Empty (World σ) α}
    (h : π.Lockstep ts R step step') (abreast : π.Abreast w w') : ∃ a a' v v',
      step w = .ok a v ∧ step' w' = .ok a' v' ∧ R a a' ∧ π.Abreast v v' ∧
        π.Beyond ts w.memory v.memory := by
  have ends := h w w' abreast
  match step w, step' w', ends with
  | .ok a v, .ok a' v', ends => exact ⟨a, a', v, v', rfl, rfl, ends⟩

/-- A request is served alike; it may add a module. -/
theorem serve_pace (abreast : π.Abreast w w') (mine : π.compared ts) (calls : Nat)
    (request : Request) : ∃ π' o o' v v',
      Grown π w.memory.namespaces.size w'.memory.namespaces.size π' ∧
      request.serve calls ts w = .ok o v ∧ request.serve calls ts w' = .ok o' v' ∧
      π'.SameAnswer o o' ∧ π'.Abreast v v' ∧ π.Beyond ts w.memory v.memory := by
  have steady {step : EStateM Empty (World σ) (Option Value × Option Exception)}
      (h : π.Lockstep ts π.SameAnswer step step) : ∃ π' o o' v v',
        Grown π w.memory.namespaces.size w'.memory.namespaces.size π' ∧ step w = .ok o v ∧
        step w' = .ok o' v' ∧ π'.SameAnswer o o' ∧ π'.Abreast v v' ∧
        π.Beyond ts w.memory v.memory := by
    obtain ⟨o, o', v, v', hv, hv', same, after, beyond⟩ := h.total abreast
    exact ⟨π, o, o', v, v', .same, hv, hv', same, after, beyond⟩
  cases request with
  | exec mode source file module =>
    cases module with
    | none =>
      refine steady (.bind (.mainModule mine) fun globals _ ⟨same, held⟩ => ?_)
      subst same
      exact .execHeld calls mine held mode source file
    | some name =>
      obtain ⟨π', a, u, u', grown, held, hu, hu', inside, first⟩ :=
        Pairing.moduleOrNew (ε := Empty) abreast mine name .created
      have mine' : π'.compared ts := grown.compared ▸ mine
      obtain ⟨o, o', v, v', hv, hv', same, after, second⟩ :=
        (Lockstep.execHeld calls mine' held mode source file).total inside
      refine ⟨π', o, o', v, v', grown, ?_, ?_, same, after, first.grown grown second⟩
      · simp only [Request.serve, globalsOf, Bind.bind, EStateM.bind, hu]
        exact hv
      · simp only [Request.serve, globalsOf, Bind.bind, EStateM.bind, hu']
        exact hv'
  | fetch =>
    exact steady (.bindEq (.takeError mine) fun _ => .pure ⟨rfl, nofun, rfl⟩)
  | remove name => exact steady (.removeName mine calls name)
  | finish => exact steady (.bindEq (.endInterpreter mine) fun _ => .pure ⟨rfl, nofun, rfl⟩)

/-- Outcomes that differ in the places of modules only. -/
def SameOutcome (π : Pairing) (o o' : Outcome) : Prop :=
  o' = o.rename π.move ∧ ∀ v, o.value = some v → π.Holds v

theorem perform_pace (alike : π.Alike w.memory w'.memory) (mine : π.compared ts) (calls : Nat)
    (request : Request) : ∃ π',
      Grown π w.memory.namespaces.size w'.memory.namespaces.size π' ∧
      π'.SameOutcome (request.perform calls ts w).1 (request.perform calls ts w').1 ∧
      π'.Alike (request.perform calls ts w).2.memory (request.perform calls ts w').2.memory ∧
      π.Beyond ts w.memory (request.perform calls ts w).2.memory := by
  let quiet (w : World σ) : World σ := w.onMemory fun m => { m with output := "" }
  have abreast : π.Abreast (quiet w) (quiet w') :=
    ⟨alike.of_same rfl rfl rfl rfl rfl rfl, rfl⟩
  obtain ⟨π', o, o', v, v', grown, hv, hv', same, after, beyond⟩ :=
    serve_pace abreast mine calls request
  obtain ⟨value, holds, error⟩ := same
  have performed : request.perform calls ts w = (⟨o.1, o.2, v.memory.output⟩,
      v.onMemory fun m => { m with output := w.memory.output ++ m.output }) := by
    simp only [Request.perform]
    rw [show request.serve calls ts (w.onMemory fun m => { m with output := "" }) = .ok o v from hv]
  have performed' : request.perform calls ts w' = (⟨o'.1, o'.2, v'.memory.output⟩,
      v'.onMemory fun m => { m with output := w'.memory.output ++ m.output }) := by
    simp only [Request.perform]
    rw [show request.serve calls ts (w'.onMemory fun m => { m with output := "" }) = .ok o' v'
      from hv']
  rw [performed, performed']
  refine ⟨π', grown, ⟨?_, holds⟩, after.alike.of_same rfl rfl rfl rfl rfl rfl, ?_⟩
  · simp only [Outcome.rename, value, error, after.output]
  · have first : π.Beyond ts w.memory (quiet w).memory := .of_same ts rfl rfl rfl
    exact (first.trans beyond).trans (.of_same ts rfl rfl rfl)

end Pairing
end ScriptBridge.Isolation
