import ScriptBridge.Context.Machine
import ScriptBridge.Proofs.Causality.Aftermath
import ScriptBridge.Proofs.Discipline.Views
import ScriptBridge.Proofs.Limits.Nesting

/-!
# Scripts that handle nothing of the Host

A script can be run where it is given up as soon as it asks the Host for something or an expression
has an object of the Host in its value. What succeeds there does the same over the Host, on the
machine of the same level, and the values of its expressions can be shown.
-/

namespace ScriptBridge

namespace Script

/-! ### Values without objects of the Host -/

mutual

/-- No view of an object of the Host is in the value. -/
def Value.isOwn : Value → Bool
  | .foreign _ => false
  | .tuple items => areOwn items
  | _ => true

def Value.areOwn : List Value → Bool
  | [] => true
  | item :: rest => item.isOwn && areOwn rest

end

mutual

theorem Value.repr?_own : ∀ {value : Value}, value.isOwn = true → ∃ text, value.repr? = some text
  | .tuple items, own => by
    obtain ⟨texts, shown⟩ := reprs?_own (show areOwn items = true from own)
    exact ⟨tupleText texts, congrArg (Option.map tupleText) shown⟩
  | .errorInstance _ message, _ => by cases message <;> exact ⟨_, rfl⟩
  | .none, _ | .bool _, _ | .int _, _ | .long _, _ | .float _, _ | .text _, _ | .module _, _
  | .native _, _ | .lambda _ _ _, _ | .errorType _, _ => ⟨_, rfl⟩

theorem Value.reprs?_own : ∀ {items : List Value}, areOwn items = true →
    ∃ texts, reprs? items = some texts
  | [], _ => ⟨[], rfl⟩
  | item :: rest, own => by
    obtain ⟨first, others⟩ := Bool.and_eq_true_iff.mp own
    obtain ⟨text, shown⟩ := repr?_own first
    obtain ⟨texts, shown'⟩ := reprs?_own others
    exact ⟨text :: texts, by rw [reprs?, shown, shown']⟩

end

/-- Expressions are given up that have an object of the Host in their value. -/
def Entries.own {σ : Type} : Entries σ where
  expression ts step := do
    let value ← nested ts step
    if value.isOwn then return value else giveUp
  body := inCall

end Script

namespace Bridge

open Script (InterpreterId Engine Comparison)

/-! ### Engines without a Host -/

/-- What functions of the bridge do that need nothing of the Host. -/
def apartExtension (ts : InterpreterId) : Script.Extension → List Script.Value →
    BridgeM Script.Value
  | .importHook, args => Script.defaultImport ts args
  | .printStack, args => printStack ts args
  | .findClass, _ | .forName, _ => Script.giveUp

def apartEngine (body : InterpreterId → Script.Scope → Syntax.Expr → BridgeM Script.Value) :
    Engine State :=
  { Engine.closed body with extension := apartExtension }

/-- The engine without a Host on which lambdas may be called on so many levels. -/
def apart : (levels : Nat) → Engine State
  | 0 => apartEngine fun _ _ _ => Script.giveUp
  | levels + 1 => apartEngine (Script.evalBy .own (apart levels))

/-! ### Beside a run over the Host -/

/-- The context is open, and both states say the same about contexts. -/
structure State.Accompanies (c : ContextId) (ts : InterpreterId) (s s' : State) : Prop where
  registered : s.registry.contains c = true
  context : (s.context c).state = ts
  opened : (s.context c).closed = false
  contexts : s'.contexts = s.contexts
  registry : s'.registry = s.registry
  links : s'.links = s.links
  runtime : s'.runtime = s.runtime
  calm : s'.realm.pending = none

/-- The runtimes and the top-level namespace of the interpreter are still what they were. -/
structure World.Remains (ts : InterpreterId) (start w : World) : Prop where
  runtime : w.outside.runtime = start.outside.runtime
  runtimes : w.memory.runtimes = start.memory.runtimes
  main : (w.memory.interpreter ts).main = (start.memory.interpreter ts).main

/-- A run without a Host beside one over the Host. Nothing is said about the second one when the
first one fails. -/
def beside (c : ContextId) (ts : InterpreterId) (start : World) : Comparison State State where
  whole w w' := w.outside.Accompanies c ts w'.outside ∧ World.Remains ts start w
  kept printed h := ⟨h.1, h.2.runtime, (printed.runtimes _).trans h.2.runtimes,
    (printed.main _ ts).trans h.2.main⟩
  lenient := True

variable {c : ContextId} {ts : InterpreterId} {start : World} {d n : Nat}

/-- Letting go of views changes nothing that is compared. -/
theorem settle_pace : (beside c ts start).Pace ts d n
    (Script.modifyMemory fun m => { m with released := [] } : BridgeM Unit) (reclaim true) := by
  intro w w' level
  obtain ⟨_, u, settled, after, interpreters⟩ := Tidies.reclaim (ε := Script.Raised) true w'
  have quiet : Quiet (fun _ => True) (reclaim true : BridgeM Unit) := .reclaim true
  obtain ⟨_, u', settled', changed⟩ := quiet w'
  rw [settled] at settled'
  cases settled'
  rw [settled]
  have tracked := changed.tracked
  simp only [Bridge.tracked, Tracked.mk.injEq] at tracked
  obtain ⟨same, -, -, registry, links, runtime⟩ := tracked
  obtain ⟨beside, rest⟩ := level.whole
  have calm : u.outside.realm.pending = none :=
    changed.pending.elim id fun same => same.trans beside.calm
  have still : w.outside.Accompanies c ts u.outside :=
    { beside with
      contexts := after.contexts.trans beside.contexts
      registry := registry.trans beside.registry
      links := links.trans beside.links
      runtime := runtime.trans beside.runtime
      calm }
  refine .ok ⟨⟨still, { rest with }⟩, ⟨?_, ?_, ?_⟩, level.made, level.depth, level.nesting⟩
  · exact after.namespaces.trans level.fits.namespaces
  · exact interpreters.trans level.fits.interpreters
  · exact same.trans level.fits.runtimes

/-- Over the Host an import finds what it finds without one. -/
theorem importEntry_pace (bodies : Host.Bodies World) (args : List Script.Value) :
    (beside c ts start).Pace ts d n (Script.defaultImport ts args)
      (importEntry bodies ts args) := by
  intro w w' level
  have ends : (beside c ts start).Ends ts d n _ _ :=
    Script.Comparison.Pace.defaultImport args w w' level
  cases first : (Script.defaultImport ts args : BridgeM Script.Value) w with
  | error x v => exact .failed trivial
  | ok a v =>
    cases second : (Script.defaultImport ts args : BridgeM Script.Value) w' with
    | error x v' =>
      rw [first, second] at ends
      cases ends
    | ok b v' =>
      rw [first, second] at ends
      obtain ⟨level⟩ := ends
      have tried : (Script.attempt (Script.defaultImport ts args : BridgeM Script.Value) :
          BridgeM _) w' = .ok (.ok a) v' := by
        rw [Script.attempt, second]
      unfold importEntry
      rw [bind_ok tried]
      exact .ok level

/-- A change of one context is the same in both states. -/
theorem State.Accompanies.revised {s s' : State} (h : s.Accompanies c ts s') (o : ContextId)
    {f : Context → Context} (state : ∀ x, (f x).state = x.state)
    (closed : ∀ x, (f x).closed = x.closed) :
    State.Accompanies c ts { s with contexts := s.contexts.modify (o.number - 1) f }
      { s' with contexts := s'.contexts.modify (o.number - 1) f } := by
  have kept {α : Type} (read : Context → α) (same : ∀ x, read (f x) = read x) :
      read (State.context { s with contexts := s.contexts.modify (o.number - 1) f } c) =
        read (s.context c) := by
    simp only [State.context, Array.getElem?_modify]
    split
    · cases s.contexts[c.number - 1]? with
      | none => rfl
      | some x => exact same x
    · rfl
  exact { h with
    context := (kept (·.state) state).trans h.context
    opened := (kept (·.closed) closed).trans h.opened
    contexts := congrArg (·.modify (o.number - 1) f) h.contexts }

theorem linkedContext_pace : (beside c ts start).Pace ts d n
    (linkedContext? ts : BridgeM (Option ContextId)) (linkedContext? ts) := by
  intro w w' level
  have same : (linkedContext? ts : BridgeM (Option ContextId)) w' =
      .ok (w.outside.links.lookup (w.memory.interpreter ts).number) w' := by
    show EStateM.Result.ok (w'.outside.links.lookup (w'.memory.interpreter ts).number) w' = _
    rw [level.whole.1.links, Script.Memory.interpreter, level.fits.interpreters]
    rfl
  rw [same]
  exact .ok level

theorem printStack_pace (args : List Script.Value) :
    (beside c ts start).Pace ts d n (printStack ts args) (printStack ts args) := by
  unfold printStack
  split
  · refine .bind linkedContext_pace fun found => ?_
    cases found with
    | none => exact .bind (.pure ()) fun _ => .pure _
    | some o =>
      refine .bind (fun w w' level => ?_) fun _ => .pure _
      exact .ok { level with
        whole := ⟨level.whole.1.revised o (fun _ => rfl) fun _ => rfl, { level.whole.2 with }⟩ }
  · exact .raiseException _

theorem extension_pace (bodies : Host.Bodies World) (function : Script.Extension)
    (args : List Script.Value) : (beside c ts start).Pace ts d n
      (apartExtension ts function args) (callExtension bodies ts function args) := by
  cases function with
  | importHook => exact importEntry_pace bodies args
  | printStack => exact printStack_pace args
  | findClass | forName => exact .lenient trivial fun _ => ⟨_, rfl⟩

theorem engines_pace (bodies : Host.Bodies World)
    (body body' : InterpreterId → Script.Scope → Syntax.Expr → BridgeM Script.Value) :
    (beside c ts start).Engines ts (apartEngine body) (engine bodies body') :=
  { Comparison.Engines.lenient trivial body settle_pace with
    extension := extension_pace bodies }

end Bridge

namespace Script.Comparison

variable {σ σ' : Type} {C : Comparison σ σ'} {ts : InterpreterId} {d n : Nat}

/-- Evaluators keep pace, as long as no object of the Host is in the values, if bodies of lambdas
keep pace. -/
theorem Regime.own {e : Engine σ} {e' : Engine σ'} (engines : C.Engines ts e e')
    (lenient : C.lenient)
    (body : ∀ {d n} scope expr, C.Pace ts d n (e.body ts scope expr) (e'.body ts scope expr)) :
    C.Regime ts (fun _ _ _ => True) (fun _ _ => True) .own e .usual e' where
  engines := engines
  part _ _ _ _ := trivial
  inside _ _ := trivial
  expression {d n expr step step'} _ h := by
    have entered : C.Pace ts d n (Entries.own.expression ts step) (nested ts step' >>= pure) := by
      refine .bind (.nested h) fun value => ?_
      split
      · exact .pure _
      · exact .lenient lenient fun _ => ⟨_, rfl⟩
    rwa [bind_pure] at entered
  body scope expr _ := .inCall fun _ => body scope expr

end Script.Comparison

namespace Bridge

open Script (InterpreterId Comparison)

variable {c : ContextId} {ts : InterpreterId} {start : World} {d n : Nat}
  {e e' : Script.Engine State}

/-- By induction on the levels: without a Host a script keeps pace with itself over the Host. -/
theorem apart_regime (levels : Nat) : (beside c ts start).Regime ts (fun _ _ _ => True)
    (fun _ _ => True) .own (apart levels) .usual (Context.machine levels).engine := by
  induction levels with
  | zero => exact .own (engines_pace _ _ _) trivial fun _ _ => .giveUp
  | succ levels ih =>
    refine .own (engines_pace _ _ _) trivial fun {d n} scope expr => ?_
    have body : (beside c ts start).Pace ts d n _ _ := ih.eval scope expr trivial
    rwa [Script.evalBy_usual] at body

/-- What is printed over the Host makes no difference. -/
theorem level_printed {w w' : World}
    (level : (beside c ts start).Level ts d n w w') (text : String) :
    (beside c ts start).Level ts d n w
      (w'.onMemory fun m => { m with output := m.output ++ text }) :=
  { level with fits := ⟨level.fits.namespaces, level.fits.interpreters, level.fits.runtimes⟩ }

/-- What a file does not show can be shown. -/
theorem own_shows : (beside c ts start).Shows ts .own e e' .file .single := by
  intro d n step w value w' entered x x' level
  have own : value.isOwn = true := by
    simp only [Script.Entries.own, Bind.bind, EStateM.bind] at entered
    split at entered
    · split at entered
      · cases entered
        assumption
      · cases entered
    · cases entered
  obtain ⟨text, shown⟩ := Script.Value.repr?_own own
  have repr : Script.repr e' ts value = pure text := by
    unfold Script.repr
    split
    · cases own
    · rw [shown]
  have silent : Script.echo e ts .file value x = .ok () x := rfl
  rw [silent]
  unfold Script.echo
  split
  · rw [repr]
    exact .ok (level_printed level _)
  · exact .ok level

end Bridge
end ScriptBridge
