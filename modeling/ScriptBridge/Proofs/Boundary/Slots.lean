import ScriptBridge.Proofs.Discipline.Offers

/-!
# The slots at the boundary

Three slots say what is going on between the script side and the Host: the interpreter that is
running, the pending error of each interpreter, and the pending throwable. Between the steps of a
script both kinds of errors are gone, and a script that fails leaves an error of its own
interpreter only.
-/

namespace ScriptBridge.Boundary

open Host (Realm Body)
open Bridge (World State ContextId)
open Script (InterpreterId)

/-! ### How contexts go on -/

/-- Contexts are added and keep their interpreters. -/
def course : Course where
  onward w w' := w'.outside.runtime = w.outside.runtime ∧
    w.outside.states <+: w'.outside.states
  lost _ := False
  same := by
    intro w w' same
    simp only [State.charted, Prod.mk.injEq] at same
    refine ⟨same.2.2, ?_⟩
    simp only [State.states, same.1, List.prefix_refl]
  trans := fun h h' => ⟨h'.1.trans h.1, h.2.trans h'.2⟩
  gone := fun _ never => never

/-! ### Slots -/

/-- The body does not return while it leaves a throwable. -/
def Clean (body : Body) : Prop := ∀ name message value, body ≠ .leak name message value

/-- What holds whatever is pending. -/
structure Settled (allowed : Body → Prop) (current : Option InterpreterId) (w : World) : Prop where
  current : w.current = current
  runtime : w.outside.runtime.place < w.memory.runtimes.size
  registered : ∀ c ∈ w.outside.registry, c.number - 1 < w.outside.contexts.size
  permitted : w.outside.Permitted allowed

/-- No error is pending, but maybe one of the given interpreter. -/
def SilentBut (ts : Option InterpreterId) (w : World) : Prop :=
  ∀ other, some other ≠ ts → (w.memory.interpreter other).error = none

theorem error_eq (m : Script.Memory) (ts : InterpreterId) :
    (m.interpreter ts).error = m.tracked[ts.place]?.bind (·.2.2) := by
  simp only [Script.Memory.interpreter, Script.Memory.tracked, Array.getElem?_map]
  cases m.interpreters[ts.place]? with
  | none => rfl
  | some i => rfl

variable {allowed : Body → Prop} {w w' : World} {current ts : Option InterpreterId}

theorem Settled.of_background (changed : Background allowed w w') (h : Settled allowed current w) :
    Settled allowed current w' := by
  have tracked := changed.tracked
  simp only [Bridge.tracked, Tracked.mk.injEq] at tracked
  obtain ⟨runtimes, -, contexts, registry, -, runtime⟩ := tracked
  refine ⟨?_, ?_, ?_, changed.permitted h.permitted⟩
  · rw [← h.current, World.current, World.current, Script.Memory.runtime, Script.Memory.runtime,
      runtimes, runtime]
  · rw [runtimes, runtime]
    exact h.runtime
  · have size : w'.outside.contexts.size = w.outside.contexts.size := by
      simpa [State.tracked] using congrArg Array.size contexts
    rw [registry, size]
    exact h.registered

theorem SilentBut.of_background (changed : Background allowed w w') (h : SilentBut ts w) :
    SilentBut ts w' := by
  intro other hother
  have tracked : w'.memory.tracked = w.memory.tracked :=
    congrArg Tracked.interpreters changed.tracked
  rw [error_eq, tracked, ← error_eq]
  exact h other hother

theorem pending_of_background (changed : Background allowed w w')
    (h : w.outside.realm.pending = none) : w'.outside.realm.pending = none := by
  rcases changed.pending with gone | same
  · exact gone
  · rw [same, h]

theorem interpreter_onInterpreter (m : Script.Memory) (ts other : InterpreterId)
    (f : Script.Interpreter → Script.Interpreter) :
    (m.onInterpreter ts f).interpreters[other.place]? =
      if ts = other then m.interpreters[other.place]?.map f else m.interpreters[other.place]? := by
  rw [Script.Memory.onInterpreter, Array.getElem?_modify]
  by_cases same : ts = other
  · rw [if_pos same, if_pos (congrArg _ same)]
  · rw [if_neg same, if_neg fun place => same (by cases ts; cases other; exact congrArg _ place)]

theorem SilentBut.withError {ts : InterpreterId} (h : SilentBut (some ts) w)
    (f : Option Script.Exception → Option Script.Exception) :
    SilentBut (some ts) (w.withError ts f) := by
  intro other hother
  have different : ts ≠ other := fun same => hother (congrArg _ same.symm)
  have same : (w.withError ts f).memory.interpreter other = w.memory.interpreter other := by
    rw [Script.Memory.interpreter, World.withError, Script.World.onMemory,
      interpreter_onInterpreter, if_neg different, Script.Memory.interpreter]
  rw [same]
  exact h other hother

theorem SilentBut.but (h : SilentBut none w) (ts : Option InterpreterId) : SilentBut ts w :=
  fun other _ => h other (by simp)

theorem SilentBut.cleared {ts : InterpreterId} (h : SilentBut (some ts) w) :
    SilentBut none (w.withError ts fun _ => none) := by
  intro other _
  by_cases same : other = ts
  · rw [Script.Memory.interpreter, World.withError, Script.World.onMemory,
      interpreter_onInterpreter, if_pos same.symm]
    cases w.memory.interpreters[other.place]? with
    | none => rfl
    | some i => rfl
  · exact h.withError _ other fun same' => same (Option.some.inj same')

/-! ### The regime -/

theorem Settled.withError (h : Settled allowed current w) (ts : InterpreterId)
    (f : Option Script.Exception → Option Script.Exception) :
    Settled allowed current (w.withError ts f) :=
  ⟨h.current, h.runtime, h.registered, h.permitted⟩

theorem Settled.onRealm (h : Settled allowed current w) {r : Realm} (hr : r.Permitted allowed) :
    Settled allowed current ⟨w.memory, { w.outside with realm := r }⟩ :=
  ⟨h.current, h.runtime, h.registered, { h.permitted with realm := hr }⟩

/-- Everything is in order, whatever throwable is pending. -/
abbrev Ordered (allowed : Body → Prop) (current : Option InterpreterId) (w : World) : Prop :=
  Settled allowed current w ∧ SilentBut none w

/-- Scripts go on while nothing is pending. A script fails with an error of its own interpreter, a
call into the Host with a throwable. -/
def discipline (current : Option InterpreterId) : Discipline course where
  allowed := Clean
  serving _ := True
  calm w := Settled Clean current w ∧ SilentBut none w ∧ w.outside.realm.pending = none
  raised ts w := Settled Clean current w ∧ SilentBut (some ts) w ∧ w.outside.realm.pending = none
  thrown := Ordered Clean current
  permitted h := h.1.permitted
  calm_of_background changed h :=
    ⟨h.1.of_background changed, h.2.1.of_background changed, pending_of_background changed h.2.2⟩
  raised_of_background changed _ h :=
    ⟨h.1.of_background changed, h.2.1.of_background changed, pending_of_background changed h.2.2⟩
  thrown_of_background changed h := ⟨h.1.of_background changed, h.2.of_background changed⟩
  raised_of_calm h := ⟨h.1, h.2.1.but _, h.2.2⟩
  thrown_of_calm h := ⟨h.1, h.2.1⟩
  calm_of_thrown h pending := ⟨h.1, h.2, pending⟩
  raise _ h := ⟨h.1.withError _ _, h.2.1.withError _, h.2.2⟩
  trace _ _ h := ⟨h.1.withError _ _, h.2.1.withError _, h.2.2⟩
  receive _ _ _ _ h := ⟨h.1.withError _ _, (h.2.1.but _).withError _, h.2.2⟩
  clearError h := ⟨h.1.withError _ _, h.2.1.cleared, h.2.2⟩
  setPending _ h := ⟨h.1.onRealm h.1.permitted.realm, h.2⟩
  clearPending h := ⟨h.1.onRealm h.1.permitted.realm, h.2, rfl⟩
  leaks clean := absurd rfl (clean _ _ _)

theorem current_withCurrent (valid : w.outside.runtime.place < w.memory.runtimes.size) :
    (w.withCurrent current).current = current := by
  simp [World.withCurrent, World.current, Script.World.onMemory, Script.Memory.runtime,
    Array.getElem_modify, valid]

theorem Settled.withCurrent (h : Settled allowed current w) (now : Option InterpreterId) :
    Settled allowed now (w.withCurrent now) := by
  refine ⟨current_withCurrent h.runtime, ?_, h.registered, h.permitted⟩
  simpa [World.withCurrent, Script.World.onMemory] using h.runtime

/-- The discipline that goes with each running interpreter. -/
def regime : Regime course where
  of := discipline
  reports _ _ := True
  reports_unmapped _ := trivial
  reports_raised _ _ := trivial
  reports_later _ _ := trivial
  enter _ h := ⟨h.1.withCurrent _, h.2⟩
  enterThrown _ h := ⟨h.1.withCurrent _, h.2⟩
  leave h h' := ⟨h.1.current ▸ h'.1.withCurrent _, h'.2⟩
  leaveThrown h h' := ⟨h.1.current ▸ h'.1.withCurrent _, h'.2⟩
  stays h registered onward := State.state_stays (h.1.registered _ registered) onward.2

end ScriptBridge.Boundary
