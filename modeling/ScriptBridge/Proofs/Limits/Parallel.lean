import ScriptBridge.Proofs.Isolation.Memory
import ScriptBridge.Proofs.Limits.Entries

/-!
# Two runs side by side

Two runs of an interpreter are compared from worlds with the same bindings. The counters stand at the
same numbers in both, and every step brings them back to where they stood, whether it succeeds or
fails. What else is compared of the worlds is left open, as is whether anything is said about the
second run once the first one has failed.
-/

namespace ScriptBridge.Script

/-- A change that prints the same whatever it changes, and leaves the runtimes and the top-level
namespaces of interpreters what they are. -/
structure Memory.Prints (f : Memory → Memory) : Prop where
  written : ∃ text, ∀ m, (f m).output = m.output ++ text
  runtimes : ∀ m, (f m).runtimes = m.runtimes
  main : ∀ m ts, ((f m).interpreter ts).main = (m.interpreter ts).main

theorem Memory.Prints.nothing {f : Memory → Memory} (output : ∀ m, (f m).output = m.output)
    (runtimes : ∀ m, (f m).runtimes = m.runtimes)
    (main : ∀ m ts, ((f m).interpreter ts).main = (m.interpreter ts).main) : Memory.Prints f :=
  ⟨⟨"", fun m => (output m).trans String.append_empty.symm⟩, runtimes, main⟩

theorem Memory.Prints.onInterpreter {f : Interpreter → Interpreter} (ts : InterpreterId)
    (main : ∀ i, (f i).main = i.main) : Memory.Prints (·.onInterpreter ts f) := by
  refine .nothing (fun _ => rfl) (fun _ => rfl) fun m other => ?_
  simp only [Memory.interpreter, Memory.onInterpreter, Array.getElem?_modify]
  split
  · cases m.interpreters[other.place]? with
    | none => rfl
    | some i => exact main i
  · rfl

/-- How two runs are compared. -/
structure Comparison (σ σ' : Type) where
  /-- What is compared beside bindings, interpreters and runtimes. -/
  whole : World σ → World σ' → Prop
  kept {w : World σ} {w' : World σ'} {f : Memory → Memory} : Memory.Prints f →
    whole w w' → whole (w.onMemory f) (w'.onMemory f)
  /-- Nothing is said about the second run when the first one fails. -/
  lenient : Prop

/-- The same bindings, interpreters and runtimes. -/
structure Memory.Matches (m m' : Memory) : Prop where
  namespaces : m'.namespaces = m.namespaces
  interpreters : m'.interpreters = m.interpreters
  runtimes : m'.runtimes = m.runtimes

/-- A change that does the same to matching memories, and nothing to the counters. -/
structure Memory.Even (ts : InterpreterId) (f : Memory → Memory) : Prop where
  fits : ∀ {m m' : Memory}, m.Matches m' → (f m).Matches (f m')
  size : ∀ m, (f m).interpreters.size = m.interpreters.size
  depth : ∀ m, ts.place < m.interpreters.size →
    ((f m).interpreter ts).depth = (m.interpreter ts).depth
  nesting : ∀ m, ts.place < m.interpreters.size →
    ((f m).interpreter ts).nesting = (m.interpreter ts).nesting
  printed : Memory.Prints f

namespace Comparison

variable {σ σ' α β ε ε₁ : Type}

/-- The worlds are level, with the counters at these numbers. -/
structure Level (C : Comparison σ σ') (ts : InterpreterId) (depth nesting : Nat) (w : World σ)
    (w' : World σ') : Prop where
  whole : C.whole w w'
  fits : w.memory.Matches w'.memory
  made : ts.place < w.memory.interpreters.size
  depth : (w.memory.interpreter ts).depth = depth
  nesting : (w.memory.interpreter ts).nesting = nesting

/-- The runs end in the same way, and level; or the first one has failed and that is enough. -/
inductive Ends (C : Comparison σ σ') (ts : InterpreterId) (depth nesting : Nat) :
    EStateM.Result ε (World σ) α → EStateM.Result ε (World σ') α → Prop
  | ok {a : α} {v : World σ} {v' : World σ'} : C.Level ts depth nesting v v' →
    Ends C ts depth nesting (.ok a v) (.ok a v')
  | error {x : ε} {v : World σ} {v' : World σ'} : C.Level ts depth nesting v v' →
    Ends C ts depth nesting (.error x v) (.error x v')
  | failed {x : ε} {v : World σ} {r : EStateM.Result ε (World σ') α} : C.lenient →
    Ends C ts depth nesting (.error x v) r

/-- From level worlds the steps end level. -/
def Pace (C : Comparison σ σ') (ts : InterpreterId) (depth nesting : Nat)
    (step : EStateM ε (World σ) α) (step' : EStateM ε (World σ') α) : Prop :=
  ∀ w w', C.Level ts depth nesting w w' → C.Ends ts depth nesting (step w) (step' w')

variable {C : Comparison σ σ'} {ts : InterpreterId} {d n : Nat}

namespace Pace

/-! ### Rules -/

theorem pure (a : α) :
    C.Pace ts d n (Pure.pure a : EStateM ε (World σ) α) (Pure.pure a) := fun _ _ level => .ok level

theorem throw (x : ε) :
    C.Pace ts d n (MonadExcept.throw x : EStateM ε (World σ) α) (MonadExcept.throw x) :=
  fun _ _ level => .error level

/-- What follows is compared for results that the first step can have. -/
theorem bindOf {good : α → Prop} {step : EStateM ε (World σ) α} {step' : EStateM ε (World σ') α}
    {next : α → EStateM ε (World σ) β} {next' : α → EStateM ε (World σ') β}
    (first : C.Pace ts d n step step') (results : ∀ w a v, step w = .ok a v → good a)
    (second : ∀ a, good a → C.Pace ts d n (next a) (next' a)) :
    C.Pace ts d n (step >>= next) (step' >>= next') := by
  intro w w' level
  have ends := first w w' level
  have results := results w
  simp only [Bind.bind, EStateM.bind]
  generalize step w = r, step' w' = r' at ends results
  cases ends with
  | ok level => exact second _ (results _ _ rfl) _ _ level
  | error level => exact .error level
  | failed lenient => exact .failed lenient

theorem bind {step : EStateM ε (World σ) α} {step' : EStateM ε (World σ') α}
    {next : α → EStateM ε (World σ) β} {next' : α → EStateM ε (World σ') β}
    (first : C.Pace ts d n step step') (second : ∀ a, C.Pace ts d n (next a) (next' a)) :
    C.Pace ts d n (step >>= next) (step' >>= next') :=
  first.bindOf (fun _ _ _ _ => trivial) fun a (_ : True) => second a

/-- A step that is tried. Where nothing is said about a second run, the first one has to stay
failed. -/
theorem attempt {step : EStateM ε₁ (World σ) α} {step' : EStateM ε₁ (World σ') α}
    {next : Except ε₁ α → EStateM ε (World σ) β} {next' : Except ε₁ α → EStateM ε (World σ') β}
    (first : C.Pace ts d n step step') (second : ∀ r, C.Pace ts d n (next r) (next' r))
    (stays : ∀ x v, ∃ y u, next (.error x) v = .error y u) :
    C.Pace ts d n (Script.attempt step >>= next) (Script.attempt step' >>= next') := by
  intro w w' level
  have ends := first w w' level
  simp only [Bind.bind, EStateM.bind, Script.attempt]
  generalize step w = r, step' w' = r' at ends
  cases ends with
  | ok level => exact second _ _ _ level
  | error level => exact second _ _ _ level
  | @failed x v _ lenient =>
    obtain ⟨y, u, stays⟩ := stays x v
    dsimp only
    rw [stays]
    exact .failed lenient

/-- Memory is read for something on which the runs agree. -/
theorem look {next : Memory → EStateM ε (World σ) α} {next' : Memory → EStateM ε (World σ') α}
    (h : ∀ m m', m.Matches m' → C.Pace ts d n (next m) (next' m')) :
    C.Pace ts d n (getMemory >>= next) (getMemory >>= next') :=
  fun w w' level => h w.memory w'.memory level.fits w w' level

theorem modifyMemory {f : Memory → Memory} (even : Memory.Even ts f) :
    C.Pace ts d n (Script.modifyMemory f : EStateM ε (World σ) Unit) (Script.modifyMemory f) := by
  intro w w' level
  refine .ok ⟨C.kept even.printed level.whole, even.fits level.fits, ?_, ?_, ?_⟩
  · exact (even.size _).symm ▸ level.made
  · exact (even.depth _ level.made).trans level.depth
  · exact (even.nesting _ level.made).trans level.nesting

/-- A first step that gives up. -/
theorem lenient {step : ScriptM σ α} {step' : ScriptM σ' α} (h : C.lenient)
    (fails : ∀ w, ∃ v, step w = .error {} v) : C.Pace ts d n step step' := by
  intro w w' _
  obtain ⟨v, fails⟩ := fails w
  rw [fails]
  exact .failed h

/-! ### Namespaces -/

theorem bindName (module : ModuleRef) (name : String) (value : Value) :
    C.Pace ts d n (Script.bindName module name value : EStateM ε (World σ) Unit)
      (Script.bindName module name value) := by
  have released (m : Memory) := Isolation.Pairing.release_namespaces
    ((m.namespaceOf module).get? name) m
  refine .modifyMemory ⟨fun {m m'} fits => ?_, fun m => ?_, fun m _ => ?_, fun m _ => ?_,
    .nothing (fun m => (released m).2.2.2) (fun m => (released m).2.2.1) fun m other => ?_⟩
  · obtain ⟨namespaces, interpreters, runtimes, -⟩ := released m
    obtain ⟨namespaces', interpreters', runtimes', -⟩ := released m'
    refine ⟨?_, interpreters'.trans (fits.interpreters.trans interpreters.symm),
      runtimes'.trans (fits.runtimes.trans runtimes.symm)⟩
    simp only [Memory.onNamespace, namespaces, namespaces', fits.namespaces]
  · exact congrArg Array.size (released m).2.1
  · exact congrArg (fun i : Array Interpreter => (i[ts.place]?.getD default).depth) (released m).2.1
  · exact congrArg (fun i : Array Interpreter => (i[ts.place]?.getD default).nesting) (released m).2.1
  · exact congrArg (fun i : Array Interpreter => (i[other.place]?.getD default).main) (released m).2.1

theorem bindAll (module : ModuleRef) (entries : List (String × Value)) :
    C.Pace ts d n (Script.bindAll module entries : EStateM ε (World σ) Unit)
      (Script.bindAll module entries) := by
  induction entries with
  | nil => exact .pure ()
  | cons entry rest ih => exact .bind (.bindName module entry.1 entry.2) fun _ => ih

theorem lookup (module : ModuleRef) (name : String) :
    C.Pace ts d n (Script.lookup? module name : EStateM ε (World σ) (Option Value))
      (Script.lookup? module name) :=
  .look fun m m' fits => by
    rw [Memory.namespaceOf, Memory.namespaceOf, fits.namespaces]
    exact .pure _

theorem publicEntries (module : ModuleRef) :
    C.Pace ts d n (Script.publicEntries module : EStateM ε (World σ) _)
      (Script.publicEntries module) :=
  .look fun m m' fits => by
    rw [Memory.namespaceOf, Memory.namespaceOf, fits.namespaces]
    exact .pure _

/-! ### The interpreter -/

theorem interpreter :
    C.Pace ts d n (Script.getInterpreter ts : EStateM ε (World σ) Interpreter)
      (Script.getInterpreter ts) :=
  .look fun m m' fits => by
    rw [Memory.interpreter, Memory.interpreter, fits.interpreters]
    exact .pure _

theorem modifyInterpreter {f : Interpreter → Interpreter} (depth : ∀ i, (f i).depth = i.depth)
    (nesting : ∀ i, (f i).nesting = i.nesting) (main : ∀ i, (f i).main = i.main) :
    C.Pace ts d n (Script.modifyInterpreter ts f : EStateM ε (World σ) Unit)
      (Script.modifyInterpreter ts f) := by
  refine .modifyMemory ⟨fun fits => ⟨fits.namespaces, ?_, fits.runtimes⟩, fun m => ?_,
    fun m made => ?_, fun m made => ?_, .onInterpreter ts main⟩
  · exact congrArg (·.modify ts.place f) fits.interpreters
  · exact Array.size_modify
  · rw [Memory.interpreter_at _ _ _ _ made, if_pos rfl, depth]
  · rw [Memory.interpreter_at _ _ _ _ made, if_pos rfl, nesting]

theorem setError (e : Option Exception) :
    C.Pace ts d n (Script.setError ts e : EStateM ε (World σ) Unit) (Script.setError ts e) :=
  .modifyInterpreter (fun _ => rfl) (fun _ => rfl) fun _ => rfl

theorem raiseException (e : Exception) :
    C.Pace ts d n (Script.raiseException ts e : ScriptM σ α) (Script.raiseException ts e) :=
  .bind (.setError (some e)) fun _ => .throw _

theorem raise (fault : Fault) :
    C.Pace ts d n (Script.raise ts fault : ScriptM σ α) (Script.raise ts fault) :=
  .raiseException fault.exception

theorem orRaise (x : Except Fault α) :
    C.Pace ts d n (Script.orRaise ts x : ScriptM σ α) (Script.orRaise ts x) := by
  cases x with
  | ok a => exact .pure a
  | error fault => exact .raise fault

theorem errorIsA (family : Family) :
    C.Pace ts d n (Script.errorIsA ts family : EStateM ε (World σ) Bool)
      (Script.errorIsA ts family) :=
  .bind .interpreter fun _ => .pure _

theorem pushTrace (file : String) (line : Nat) :
    C.Pace ts d n (Script.pushTrace ts file line : EStateM ε (World σ) Unit)
      (Script.pushTrace ts file line) :=
  .modifyInterpreter (fun _ => rfl) (fun _ => rfl) fun _ => rfl

/-! ### Printing and giving up -/

theorem printLine (line : String) :
    C.Pace ts d n (Script.printLine line : EStateM ε (World σ) Unit) (Script.printLine line) :=
  .modifyMemory ⟨fun fits => ⟨fits.namespaces, fits.interpreters, fits.runtimes⟩, fun _ => rfl,
    fun _ _ => rfl, fun _ _ => rfl, ⟨⟨_, fun _ => rfl⟩, fun _ => rfl, fun _ _ => rfl⟩⟩

theorem giveUp :
    C.Pace ts d n (Script.giveUp : ScriptM σ α) Script.giveUp :=
  .bind (.modifyMemory ⟨fun fits => ⟨fits.namespaces, fits.interpreters, fits.runtimes⟩,
    fun _ => rfl, fun _ _ => rfl, fun _ _ => rfl, .nothing (fun _ => rfl) (fun _ => rfl) fun _ _ => rfl⟩)
    fun _ => .throw _

/-- Dropping the notes on values that lost a binding. -/
theorem drop :
    C.Pace ts d n (Script.modifyMemory fun m => { m with released := [] } : EStateM ε (World σ) Unit)
      (Script.modifyMemory fun m => { m with released := [] }) :=
  .modifyMemory ⟨fun fits => ⟨fits.namespaces, fits.interpreters, fits.runtimes⟩,
    fun _ => rfl, fun _ _ => rfl, fun _ _ => rfl,
    .nothing (fun _ => rfl) (fun _ => rfl) fun _ _ => rfl⟩

end Pace

/-! ### Counting -/

/-- A change of the interpreter that takes the counters to other numbers. -/
theorem Level.shift {d' n' : Nat} {w : World σ} {w' : World σ'} (level : C.Level ts d n w w')
    {f : Interpreter → Interpreter} (counts : ∀ i : Interpreter, i.depth = d → i.nesting = n →
      (f i).depth = d' ∧ (f i).nesting = n') (main : ∀ i, (f i).main = i.main) :
    C.Level ts d' n' (w.onMemory (·.onInterpreter ts f)) (w'.onMemory (·.onInterpreter ts f)) := by
  have after : ((w.memory.onInterpreter ts f).interpreter ts).depth = d' ∧
      ((w.memory.onInterpreter ts f).interpreter ts).nesting = n' := by
    rw [Memory.interpreter_at _ _ _ _ level.made, if_pos rfl]
    exact counts _ level.depth level.nesting
  refine ⟨C.kept (.onInterpreter ts main) level.whole,
    ⟨level.fits.namespaces, ?_, level.fits.runtimes⟩, ?_, after.1, after.2⟩
  · exact congrArg (·.modify ts.place f) level.fits.interpreters
  · exact Nat.lt_of_lt_of_eq level.made Array.size_modify.symm

namespace Pace

/-- A step that is counted, by a counter that stands at a number. -/
theorem guarded {d' n' k limit : Nat} {count : Interpreter → Nat}
    {set : Nat → Interpreter → Interpreter} {fault : Fault} {step : ScriptM σ α}
    {step' : ScriptM σ' α}
    (stands : ∀ i : Interpreter, i.depth = d → i.nesting = n → count i = k)
    (enters : ∀ i : Interpreter, i.depth = d → i.nesting = n →
      (set (count i + 1) i).depth = d' ∧ (set (count i + 1) i).nesting = n')
    (leaves : ∀ i : Interpreter, i.depth = d' → i.nesting = n' →
      (set (count i - 1) i).depth = d ∧ (set (count i - 1) i).nesting = n)
    (main : ∀ k i, (set k i).main = i.main)
    (h : k < limit → C.Pace ts d' n' step step') :
    C.Pace ts d n (Script.guarded ts count set limit fault step)
      (Script.guarded ts count set limit fault step') := by
  intro w w' level
  have same : w'.memory.interpreter ts = w.memory.interpreter ts := by
    rw [Memory.interpreter, level.fits.interpreters]
    rfl
  have number := stands _ level.depth level.nesting
  simp only [Script.guarded, same, number]
  split
  · exact Pace.raise fault w w' level
  · rename_i room
    have ends := h (Nat.lt_of_not_le room) _ _ (level.shift enters fun _ => main _ _)
    revert ends
    generalize step _ = r, step' _ = r'
    intro ends
    cases ends with
    | ok level => exact .ok (level.shift leaves fun _ => main _ _)
    | error level => exact .error (level.shift leaves fun _ => main _ _)
    | failed lenient => exact .failed lenient

theorem nested {step : ScriptM σ α} {step' : ScriptM σ' α}
    (h : n < maxNesting → C.Pace ts d (n + 1) step step') :
    C.Pace ts d n (Script.nested ts step) (Script.nested ts step') := by
  refine guarded (fun i _ nesting => nesting) (fun i depth nesting => ⟨depth, ?_⟩)
    (fun i depth nesting => ⟨depth, ?_⟩) (fun _ _ => rfl) h
  · exact congrArg (· + 1) nesting
  · exact congrArg (· - 1) nesting

theorem inCall {step : ScriptM σ α} {step' : ScriptM σ' α}
    (h : d < maxRecursion → C.Pace ts (d + 1) n step step') :
    C.Pace ts d n (Script.inCall ts step) (Script.inCall ts step') := by
  refine guarded (fun i depth _ => depth) (fun i depth nesting => ⟨?_, nesting⟩)
    (fun i depth nesting => ⟨?_, nesting⟩) (fun _ _ => rfl) h
  · exact congrArg (· + 1) depth
  · exact congrArg (· - 1) depth

end Pace
end Comparison
end ScriptBridge.Script
