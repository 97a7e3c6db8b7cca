import ScriptBridge.Proofs.Limits.Nesting

/-!
# The counters of an interpreter

The counters stay within their limits while a script runs, and are back where they were when it
ends. Were either beyond its limit at any moment, a watch that looks at them whenever they change
would notice; and as calls are bounded by their counter, it does not matter what would happen in a
call that is deeper than that.
-/

namespace ScriptBridge.Script

open Syntax (Expr)

variable {σ σ' α : Type}

/-! ### Watching -/

/-- Both counters are within their limits. -/
def Interpreter.isBounded (i : Interpreter) : Bool :=
  i.depth ≤ maxRecursion && i.nesting ≤ maxNesting

/-- Sounds an alarm if a counter is beyond its limit. -/
def watch (alarm : ScriptM σ Unit) (ts : InterpreterId) : ScriptM σ Unit := do
  if (← getInterpreter ts).isBounded then pure () else alarm

/-- Watches the counters before a step and after it, however it ends. -/
def watching (alarm : ScriptM σ Unit) (ts : InterpreterId) (step : ScriptM σ α) : ScriptM σ α := do
  watch alarm ts
  let outcome ← attempt step
  watch alarm ts
  match outcome with
  | .ok a => pure a
  | .error raised => throw raised

/-- Both counters are watched around whatever changes them, and inside. -/
def Entries.watched (alarm : ScriptM σ Unit) : Entries σ where
  expression ts step := watching alarm ts (nested ts (watching alarm ts step))
  body ts step := watching alarm ts (inCall ts (watching alarm ts step))

/-- A watched engine with levels of lambda calls over `bottom`. -/
def Engine.watched (alarm : ScriptM σ Unit)
    (bottom : InterpreterId → Scope → Expr → ScriptM σ Value) : (calls : Nat) → Engine σ
  | 0 => .closed bottom
  | calls + 1 => .closed (evalBy (.watched alarm) (watched alarm bottom calls))

namespace Comparison

variable {ts : InterpreterId} {d n : Nat}

theorem Level.isBounded {C : Comparison σ σ'} {w : World σ} {w' : World σ'}
    (level : C.Level ts d n w w') (shallow : d ≤ maxRecursion) (low : n ≤ maxNesting) :
    (w.memory.interpreter ts).isBounded = true := by
  unfold Interpreter.isBounded
  rw [level.depth, level.nesting, decide_eq_true shallow, decide_eq_true low]
  rfl

theorem watch_quiet {alarm : ScriptM σ Unit} {w : World σ}
    (bounded : (w.memory.interpreter ts).isBounded = true) : watch alarm ts w = .ok () w := by
  show (if (w.memory.interpreter ts).isBounded then pure () else alarm) w = _
  rw [if_pos bounded]
  rfl

/-- Where the counters are within their limits, nobody notices the watch. -/
theorem Pace.watching (alarm : ScriptM σ Unit) (shallow : d ≤ maxRecursion)
    (low : n ≤ maxNesting) {step step' : ScriptM σ α}
    (h : Comparison.same.Pace ts d n step step') :
    Comparison.same.Pace ts d n (Script.watching alarm ts step) step' := by
  intro w w' level
  have ends := h w w' level
  unfold Script.watching
  rw [bind_ok (watch_quiet (level.isBounded shallow low))]
  simp only [Bind.bind, EStateM.bind, Script.attempt]
  generalize step w = r, step' w' = r' at ends
  cases ends with
  | ok level =>
    dsimp only
    rw [watch_quiet (level.isBounded shallow low)]
    exact .ok level
  | error level =>
    dsimp only
    rw [watch_quiet (level.isBounded shallow low)]
    exact .error level
  | failed lenient => cases lenient

/-- The counters may still rise, and there are enough levels for as many calls. -/
structure Roomy (calls calls' d n : Nat) : Prop where
  shallow : d ≤ maxRecursion
  low : n ≤ maxNesting
  enough : maxRecursion ≤ d + calls
  enough' : maxRecursion ≤ d + calls'

/-- By induction on the levels: a watched evaluator keeps pace with the usual one, and neither
comes to the bottom. -/
theorem Regime.watched (alarm : ScriptM σ Unit)
    (bottom : InterpreterId → Scope → Expr → ScriptM σ Value) (calls : Nat) : ∀ calls',
    Comparison.same.Regime ts (fun d n _ => Roomy calls calls' d n) (Roomy calls calls')
      (.watched alarm) (.watched alarm bottom calls) .usual (.alone calls') := by
  -- Where a body is entered, both engines have a level left.
  have regime (calls calls' : Nat) {e e' : Engine σ} (engines : Comparison.same.Engines ts e e')
      (body : ∀ {d n} scope expr, Roomy calls calls' d n → d < maxRecursion →
        Comparison.same.Pace ts (d + 1) n (e.body ts scope expr) (e'.body ts scope expr)) :
      Comparison.same.Regime ts (fun d n _ => Roomy calls calls' d n) (Roomy calls calls')
        (.watched alarm) e .usual e' :=
    { engines
      part := fun room higher _ _ => { room with low := higher }
      inside := fun room higher => { room with low := higher }
      expression := fun room h => .watching alarm room.shallow room.low <| .nested fun higher =>
        .watching alarm room.shallow higher (h higher)
      body := fun scope expr room => .watching alarm room.shallow room.low <| .inCall fun deeper =>
        .watching alarm deeper room.low (body scope expr room deeper) }
  induction calls with
  | zero =>
    intro calls'
    cases calls' with
    | zero =>
      refine regime _ _ (.closed _ _) fun _ _ room deeper => ?_
      exact absurd room.enough (Nat.not_le_of_lt deeper)
    | succ calls' =>
      refine regime _ _ (.closed _ _) fun _ _ room deeper => ?_
      exact absurd room.enough (Nat.not_le_of_lt deeper)
  | succ calls ih =>
    intro calls'
    cases calls' with
    | zero =>
      refine regime _ _ (.closed _ _) fun _ _ room deeper => ?_
      exact absurd room.enough' (Nat.not_le_of_lt deeper)
    | succ calls' =>
      refine regime _ _ (.closed _ _) fun {d n} scope expr room deeper => ?_
      have levels : Roomy calls calls' (d + 1) n :=
        ⟨deeper, room.low, by have := room.enough; omega, by have := room.enough'; omega⟩
      have body := (ih calls').eval scope expr levels
      rwa [evalBy_usual] at body

end Comparison

/-! ### What is left behind -/

/-- The counters of the interpreter stand at zero. -/
def World.Rests (ts : InterpreterId) (w : World σ) : Prop :=
  (w.memory.interpreter ts).depth = 0 ∧ (w.memory.interpreter ts).nesting = 0

/-- An interpreter as it would be with nothing running and no error pending. -/
def Interpreter.rested (i : Interpreter) : Interpreter :=
  { i with error := none, depth := 0, nesting := 0 }

/-- The worlds are the same but for what lies outside and what was printed, and the same was printed
since two others. -/
structure World.Alike (u u' v v' : World σ) : Prop where
  matching : v.memory.Matches v'.memory
  printed : ∃ text, v.memory.output = u.memory.output ++ text ∧
    v'.memory.output = u'.memory.output ++ text

/-- Two runs end alike, with the same value or with the same error pending. -/
inductive EndsAlike (u u' : World σ) : EStateM.Result Raised (World σ) α →
    EStateM.Result Raised (World σ) α → Prop
  | ok {a : α} {v v' : World σ} : World.Alike u u' v v' → EndsAlike u u' (.ok a v) (.ok a v')
  | error {x : Raised} {v v' : World σ} : World.Alike u u' v v' →
    EndsAlike u u' (.error x v) (.error x v')

namespace Comparison

variable {ts : InterpreterId} {d n : Nat}

/-- The same is printed since two worlds. -/
def since (u u' : World σ) : Comparison σ σ where
  whole w w' := ∃ text, w.memory.output = u.memory.output ++ text ∧
    w'.memory.output = u'.memory.output ++ text
  kept := by
    rintro w w' f ⟨⟨more, printed⟩, -, -⟩ ⟨text, now, now'⟩
    refine ⟨text ++ more, (printed _).trans ?_, (printed _).trans ?_⟩
    · rw [now, String.append_assoc]
    · rw [now', String.append_assoc]
  lenient := False

theorem Ends.alike {u u' : World σ} {r r' : EStateM.Result Raised (World σ) α}
    (h : (since u u').Ends ts d n r r') : EndsAlike u u' r r' := by
  cases h with
  | ok level => exact .ok ⟨level.fits, level.whole⟩
  | error level => exact .error ⟨level.fits, level.whole⟩
  | failed never => exact never.elim

end Comparison

/-- A run ends with the counters where they were. -/
theorem execSource_rests {calls : Nat} {ts : InterpreterId} {source file : String} {mode : Mode}
    {globals : ModuleRef} {w v : World σ} (made : ts.place < w.memory.interpreters.size)
    (rests : w.Rests ts)
    (ends : (∃ a, execSource (.alone calls) ts source mode file globals w = .ok a v) ∨
      ∃ x, execSource (.alone calls) ts source mode file globals w = .error x v) :
    ts.place < v.memory.interpreters.size ∧ v.Rests ts := by
  have regime : (Comparison.same (σ := σ)).Regime ts _ _ _ _ _ _ := .alone calls
  have run := regime.execSource trivial (fun mode => regime.engines.shows mode)
    (fun _ _ => trivial) source mode file globals w w (.same made)
  rw [execSourceBy_usual, rests.1, rests.2] at run
  rcases ends with ⟨a, ended⟩ | ⟨x, ended⟩
  · rw [ended] at run
    cases run with
    | ok level => exact ⟨level.made, level.depth, level.nesting⟩
  · rw [ended] at run
    cases run with
    | error level => exact ⟨level.made, level.depth, level.nesting⟩
    | failed never => exact never.elim

theorem Interpreter.rested_fixed {i : Interpreter} (clear : i.error = none) (depth : i.depth = 0)
    (nesting : i.nesting = 0) : i.rested = i := by
  cases i
  cases clear
  cases depth
  cases nesting
  rfl

/-- Nothing changes in an interpreter that is as the change would have it. -/
theorem Memory.onInterpreter_fixed {m : Memory} {ts : InterpreterId}
    {f : Interpreter → Interpreter} (made : ts.place < m.interpreters.size)
    (fixed : f (m.interpreter ts) = m.interpreter ts) : m.onInterpreter ts f = m := by
  have here : m.interpreter ts = m.interpreters[ts.place] := by
    rw [Memory.interpreter, Array.getElem?_eq_getElem made, Option.getD_some]
  rw [here] at fixed
  have same : m.interpreters.modify ts.place f = m.interpreters := by
    refine Array.ext (by simp) fun i _ _ => ?_
    rw [Array.getElem_modify]
    split
    · rename_i place
      subst place
      exact fixed
    · rfl
  rw [Memory.onInterpreter, same]

/-- After an error was taken, an interpreter whose counters are at zero is as it would be at rest. -/
theorem takeError_rested {ts : InterpreterId} {v u : World σ} {e : Option Exception}
    (made : ts.place < v.memory.interpreters.size) (rests : v.Rests ts)
    (taken : takeError ts v = (.ok e u : EStateM.Result Raised (World σ) (Option Exception))) :
    ts.place < u.memory.interpreters.size ∧ u.Rests ts ∧
      u.memory.onInterpreter ts Interpreter.rested = u.memory := by
  obtain rfl : v.onMemory (·.onInterpreter ts fun i => { i with error := none }) = u := by
    cases taken
    rfl
  have made' := Nat.lt_of_lt_of_eq made
    (Array.size_modify (f := fun i : Interpreter => { i with error := none })
      (i := ts.place)).symm
  have after : (v.memory.onInterpreter ts fun i => { i with error := none }).interpreter ts =
      { v.memory.interpreter ts with error := none } := by
    rw [Memory.interpreter_at _ _ _ _ made, if_pos rfl]
  refine ⟨made', ⟨?_, ?_⟩, Memory.onInterpreter_fixed made' ?_⟩
  · exact (congrArg Interpreter.depth after).trans rests.1
  · exact (congrArg Interpreter.nesting after).trans rests.2
  · have clear := congrArg Interpreter.error after
    have depth := congrArg Interpreter.depth after
    have nesting := congrArg Interpreter.nesting after
    exact Interpreter.rested_fixed clear (depth.trans rests.1) (nesting.trans rests.2)

/-- A script alone keeps the counters within their limits at every moment, and ends after no more
calls inside each other than the limit. Then the counters stand where they did, at zero; so what
runs after a failure whose error was taken runs as it would if nothing but the bindings had been
there before. -/
theorem limits_hold {calls calls' : Nat} (deep : maxRecursion ≤ calls)
    (deep' : maxRecursion ≤ calls') (alarm : ScriptM σ Unit)
    (bottom : InterpreterId → Scope → Expr → ScriptM σ Value) {ts : InterpreterId} {w : World σ}
    (made : ts.place < w.memory.interpreters.size) (rests : w.Rests ts) (source : String)
    (mode : Mode) (file : String) (globals : ModuleRef) :
    execSourceBy (.watched alarm) (.watched alarm bottom calls) ts source mode file globals w =
      execSource (.alone calls') ts source mode file globals w ∧
    (∀ v, ((∃ a, execSource (.alone calls') ts source mode file globals w = .ok a v) ∨
        ∃ x, execSource (.alone calls') ts source mode file globals w = .error x v) →
      v.Rests ts) ∧
    ∀ x v e u, execSource (.alone calls') ts source mode file globals w = .error x v →
      takeError ts v = (.ok e u : EStateM.Result Raised (World σ) (Option Exception)) →
      ∀ u' : World σ, (u.memory.onInterpreter ts Interpreter.rested).Matches u'.memory →
        ∀ source' mode' file' globals',
          EndsAlike u u' (execSource (.alone calls') ts source' mode' file' globals' u)
            (execSource (.alone calls') ts source' mode' file' globals' u') := by
  refine ⟨?_, fun v ends => (execSource_rests made rests ends).2, ?_⟩
  · have regime : Comparison.same.Regime ts _ _ _ _ _ _ := .watched alarm bottom calls calls'
    have room : Comparison.Roomy calls calls' 0 0 :=
      ⟨Nat.zero_le _, Nat.zero_le _, by rwa [Nat.zero_add], by rwa [Nat.zero_add]⟩
    have level := Comparison.Level.same made
    rw [rests.1, rests.2] at level
    have ends := regime.execSource room (fun mode => regime.engines.shows mode) (fun _ _ => room)
      source mode file globals w w level
    rw [ends.same, execSourceBy_usual]
  · intro x v e u failed taken u' alike source' mode' file' globals'
    obtain ⟨made, rests⟩ := execSource_rests made rests (.inr ⟨x, failed⟩)
    obtain ⟨made, rests, rested⟩ := takeError_rested made rests taken
    rw [rested] at alike
    have level : (Comparison.since u u').Level ts 0 0 u u' :=
      ⟨⟨"", String.append_empty.symm, String.append_empty.symm⟩, alike, made, rests.1, rests.2⟩
    have regime : (Comparison.since u u').Regime ts _ _ _ _ _ _ := .alone calls'
    have run := regime.execSource trivial (fun mode => regime.engines.shows mode)
      (fun _ _ => trivial) source' mode' file' globals' u u' level
    simp only [execSourceBy_usual] at run
    exact run.alike

def failed? (r : EStateM.Result Raised (World σ) α) : Bool :=
  match r with
  | .ok _ _ => false
  | .error _ _ => true

/-- A lambda that calls itself without end is stopped, and what follows does not notice. -/
theorem limits_hold_runaway :
    ∃ x v e u u', execSource (.alone maxRecursion) ⟨0⟩ "(lambda f: f(f))(lambda f: f(f))" .eval "f"
        ⟨0, "__main__", .main⟩ World.bare = .error x v ∧
      execSourceBy (.watched giveUp) (.watched giveUp (fun _ _ _ => giveUp) maxRecursion) ⟨0⟩
        "(lambda f: f(f))(lambda f: f(f))" .eval "f" ⟨0, "__main__", .main⟩ World.bare =
          .error x v ∧
      v.Rests ⟨0⟩ ∧
      takeError ⟨0⟩ v = (.ok e u : EStateM.Result Raised (World Unit) (Option Exception)) ∧
      (u.memory.onInterpreter ⟨0⟩ Interpreter.rested).Matches u'.memory ∧
      EndsAlike u u'
        (execSource (.alone maxRecursion) ⟨0⟩ "print(1)" .file "g" ⟨0, "__main__", .main⟩ u)
        (execSource (.alone maxRecursion) ⟨0⟩ "print(1)" .file "g" ⟨0, "__main__", .main⟩ u') := by
  obtain ⟨watched, rests, after⟩ := limits_hold (Nat.le_refl maxRecursion)
    (Nat.le_refl maxRecursion) giveUp (fun _ _ _ => giveUp) (by decide : 0 < 1)
    (⟨rfl, rfl⟩ : World.bare.Rests ⟨0⟩) "(lambda f: f(f))(lambda f: f(f))" .eval "f"
    ⟨0, "__main__", .main⟩
  have fails : failed? (execSource (.alone maxRecursion) ⟨0⟩ "(lambda f: f(f))(lambda f: f(f))"
      .eval "f" ⟨0, "__main__", .main⟩ World.bare) = true := by decide +kernel
  cases ran : execSource (.alone maxRecursion) ⟨0⟩ "(lambda f: f(f))(lambda f: f(f))" .eval "f"
    ⟨0, "__main__", .main⟩ World.bare with
  | ok a v =>
    rw [ran] at fails
    cases fails
  | error x v =>
    have taken : takeError ⟨0⟩ v = (.ok (v.memory.interpreter ⟨0⟩).error
      (v.onMemory (·.onInterpreter ⟨0⟩ fun i => { i with error := none })) :
        EStateM.Result Raised (World Unit) (Option Exception)) := rfl
    -- Another interpreter with the same bindings, which has printed nothing.
    let other : World Unit := (v.onMemory (·.onInterpreter ⟨0⟩ fun i => { i with error := none }))
      |>.onMemory fun m => { m.onInterpreter ⟨0⟩ Interpreter.rested with output := "" }
    exact ⟨x, v, _, _, other, rfl, watched.trans ran, rests v (.inr ⟨x, ran⟩), taken,
      ⟨rfl, rfl, rfl⟩, after x v _ _ ran taken other ⟨rfl, rfl, rfl⟩ _ _ _ _⟩

end ScriptBridge.Script
