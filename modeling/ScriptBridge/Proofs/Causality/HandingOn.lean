import ScriptBridge.Bridge.Engine
import ScriptBridge.Proofs.Causality.Aftermath
import ScriptBridge.Proofs.Overloads.Fitting

/-!
# Handing an error on

A script cannot catch an error. Whoever waits for a call of the Host hands its failure on: the rest
of a computation is not run, counters go back, and a failing statement adds its line to the trace,
after the views that it made were let go of. So whatever a script was doing when the call failed,
the error that the call has left is still pending when the script has ended.
-/

namespace ScriptBridge.Bridge

open Host (ObjectId HostM Bodies)
open Script (InterpreterId Interpreter Exception Mode ModuleRef)

variable {α β γ : Type} {w v u : World} {ts : InterpreterId}

/-- A later state in which the pending error is the same, but for its trace. -/
structure Carries (ts : InterpreterId) (w v : World) : Prop extends Aftermath w v where
  error : ∀ e, (w.memory.interpreter ts).error = some e →
    ∃ trace, (v.memory.interpreter ts).error = some { e with trace }

namespace Carries

theorem refl (ts : InterpreterId) (w : World) : Carries ts w w :=
  ⟨.refl w, fun e pending => ⟨e.trace, pending⟩⟩

theorem trans (h : Carries ts w v) (h' : Carries ts v u) : Carries ts w u := by
  refine ⟨h.toAftermath.trans h'.toAftermath, fun e pending => ?_⟩
  obtain ⟨trace, pending⟩ := h.error e pending
  obtain ⟨trace, pending⟩ := h'.error _ pending
  exact ⟨trace, pending⟩

/-- A change that leaves interpreters alone. -/
theorem of_interpreters (h : Aftermath w v) (same : v.memory.interpreters = w.memory.interpreters) :
    Carries ts w v := by
  refine ⟨h, fun e pending => ⟨e.trace, ?_⟩⟩
  rwa [Script.Memory.interpreter, same]

/-- An interpreter may change in all but its number and its error. -/
theorem onInterpreter {f : Interpreter → Interpreter} (number : ∀ i, (f i).number = i.number)
    (error : ∀ i, (f i).error = i.error) (w : World) :
    Carries ts w (w.onMemory (·.onInterpreter ts f)) := by
  refine ⟨.onInterpreter ts number w, fun e pending => ⟨e.trace, ?_⟩⟩
  have same := interpreter_onInterpreter (m := w.memory)
    (P := fun i j => j.error = i.error) (fun _ => rfl) error ts ts
  exact same.trans pending

theorem pushTrace (file : String) (line : Nat) (w : World) :
    Carries ts w (w.withError ts (·.map (·.pushTrace file line))) := by
  refine ⟨.withError ts _ w, fun e pending => ?_⟩
  have pushed := interpreter_onInterpreter (m := w.memory)
    (f := fun i => { i with error := i.error.map (·.pushTrace file line) })
    (P := fun i j => j.error = i.error ∨ j.error = i.error.map (·.pushTrace file line))
    (fun _ => .inl rfl) (fun _ => .inr rfl) ts ts
  rcases pushed with same | pushed
  · exact ⟨e.trace, same.trans pending⟩
  · exact ⟨e.trace ++ [⟨file, line⟩], pushed.trans (congrArg _ pending)⟩

end Carries

/-! ### Handing on -/

/-- The step, started in `v`, comes to a call of the Host in `w`, and all that waits for the call
hands its failure on. -/
inductive HandsOn (b : Bodies World) (ts : InterpreterId) {β : Type} (call : HostM World β)
    (w : World) : {α : Type} → BridgeM α → World → Prop
  /-- The call itself. -/
  | call : HandsOn b ts call w (hostCall b ts call) w
  /-- What is done with the result waits. -/
  | first {α γ : Type} {v : World} {step : BridgeM α} {next : α → BridgeM γ} :
    HandsOn b ts call w step v → HandsOn b ts call w (step >>= next) v
  /-- The step goes on as another one. -/
  | goesOn {α : Type} {v v' : World} {step step' : BridgeM α} : step v = step' v' →
    HandsOn b ts call w step' v' → HandsOn b ts call w step v
  /-- An expression inside another one. -/
  | nested {α : Type} {v : World} {step : BridgeM α} :
    (v.memory.interpreter ts).nesting < Script.maxNesting →
    HandsOn b ts call w step
      (v.onMemory (·.onInterpreter ts fun i => { i with nesting := i.nesting + 1 })) →
    HandsOn b ts call w (Script.nested ts step) v
  /-- The body of a lambda. -/
  | inCall {α : Type} {v : World} {step : BridgeM α} :
    (v.memory.interpreter ts).depth < Script.maxRecursion →
    HandsOn b ts call w step
      (v.onMemory (·.onInterpreter ts fun i => { i with depth := i.depth + 1 })) →
    HandsOn b ts call w (Script.inCall ts step) v
  /-- A statement, before others. -/
  | statement {v : World} {e : Script.Engine State} {globals : ModuleRef} {mode : Mode}
      {file : String} {line : Nat} {statement : Syntax.Statement} {rest : Syntax.Program} :
    e.settle = reclaim true → HandsOn b ts call w (Script.execute e ts globals mode statement) v →
    HandsOn b ts call w (Script.executeAll e ts globals mode file ((line, statement) :: rest)) v

namespace HandsOn

variable {b : Bodies World} {call : HostM World β}

/-- What is done before the call succeeds. -/
theorem later {step : BridgeM α} {next : α → BridgeM γ} {a : α} (ran : step v = .ok a u)
    (h : HandsOn b ts call w (next a) u) : HandsOn b ts call w (step >>= next) v :=
  .goesOn (bind_ok ran) h

end HandsOn

/-- A counter goes back after a failure. -/
theorem guarded_error (count : Interpreter → Nat) (set : Nat → Interpreter → Interpreter)
    {limit : Nat} {fault : Script.Fault} {step : BridgeM α}
    (room : count (v.memory.interpreter ts) < limit) (number : ∀ n i, (set n i).number = i.number)
    (error : ∀ n i, (set n i).error = i.error)
    (failed : step (v.onMemory (·.onInterpreter ts fun i => set (count i + 1) i)) = .error {} u) :
    ∃ u', Script.guarded ts count set limit fault step v = .error {} u' ∧ Carries ts u u' := by
  refine ⟨_, ?_, .onInterpreter (fun i => number (count i - 1) i) (fun i => error _ i) u⟩
  unfold Script.guarded
  rw [if_neg (Nat.not_le.mpr room)]
  simp only [failed]

/-- A failing statement is the last one. -/
theorem executeAll_error {e : Script.Engine State} (settles : e.settle = reclaim true)
    {globals : ModuleRef} {mode : Mode} {file : String} {line : Nat} {statement : Syntax.Statement}
    {rest : Syntax.Program}
    (failed : Script.execute e ts globals mode statement v = .error {} u) :
    ∃ u', Script.executeAll e ts globals mode file ((line, statement) :: rest) v = .error {} u' ∧
      Carries ts u u' := by
  obtain ⟨_, u₁, settled, after, same⟩ := Tidies.reclaim (ε := Script.Raised) true u
  refine ⟨_, ?_, (Carries.of_interpreters after same).trans (.pushTrace file line u₁)⟩
  unfold Script.executeAll
  rw [bind_ok (attempt_error failed), settles, bind_ok settled]
  rfl

/-- By induction on what waits for the call: if the call fails, so does the whole step, and the
error of the call is carried to its end. -/
theorem HandsOn.fails {b : Bodies World} {call : HostM World β} {step : BridgeM α}
    (h : HandsOn b ts call w step v) (failed : hostCall b ts call w = .error {} u) :
    ∃ u', step v = .error {} u' ∧ Carries ts u u' := by
  induction h with
  | call => exact ⟨u, failed, .refl ts u⟩
  | first _ ih =>
    obtain ⟨u', failed, carried⟩ := ih
    exact ⟨u', bind_error failed, carried⟩
  | goesOn same _ ih =>
    obtain ⟨u', failed, carried⟩ := ih
    exact ⟨u', same.trans failed, carried⟩
  | nested room _ ih =>
    obtain ⟨u₁, failed, carried⟩ := ih
    obtain ⟨u', failed, back⟩ := guarded_error (·.nesting) (fun n i => { i with nesting := n }) room
      (fun _ _ => rfl) (fun _ _ => rfl) failed
    exact ⟨u', failed, carried.trans back⟩
  | inCall room _ ih =>
    obtain ⟨u₁, failed, carried⟩ := ih
    obtain ⟨u', failed, back⟩ := guarded_error (·.depth) (fun n i => { i with depth := n }) room
      (fun _ _ => rfl) (fun _ _ => rfl) failed
    exact ⟨u', failed, carried.trans back⟩
  | statement settles _ ih =>
    obtain ⟨u₁, failed, carried⟩ := ih
    obtain ⟨u', failed, last⟩ := executeAll_error settles failed
    exact ⟨u', failed, carried.trans last⟩

end ScriptBridge.Bridge
