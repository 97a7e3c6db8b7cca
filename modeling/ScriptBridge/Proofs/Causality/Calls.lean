import ScriptBridge.Proofs.Causality.Striking
import ScriptBridge.Proofs.Isolation.Memory

/-!
# Where scripts call the Host

A script calls a method of the Host through a view of it, in the middle of an expression, and
whoever waits for the value hands a failure on: the call of the view waits for the method, the node
of the expression for the call, and the evaluation of the source for the expression.
-/

namespace ScriptBridge

open Host (Method Bodies)
open Bridge (World BridgeM ContextId HandsOn Machine)
open Script (InterpreterId Interpreter ModuleRef)

variable {ts : InterpreterId} {w : World}

/-! ### Expressions -/

/-- The state in which the parts of an expression are evaluated. -/
def Bridge.World.deeper (ts : InterpreterId) (w : World) : World :=
  w.onMemory (·.onInterpreter ts fun i => { i with nesting := i.nesting + 1 })

/-- A name has the value that is bound to it, and nothing is changed. -/
theorem eval_name {e : Script.Engine Bridge.State} {globals : ModuleRef} {name : String}
    {value : Script.Value}
    (room : (w.memory.interpreter ts).nesting < Script.maxNesting)
    (bound : (w.memory.namespaceOf globals).get? name = some value) :
    Script.eval e ts ⟨[], globals⟩ (.name name) w = .ok value w := by
  have found : (Script.Scope.lookup ⟨[], globals⟩ ts name : BridgeM Script.Value) (w.deeper ts) =
      .ok value (w.deeper ts) := by
    have read : (Script.lookup? globals name : BridgeM _) (w.deeper ts) =
        .ok (some value) (w.deeper ts) := by
      rw [← bound]
      rfl
    exact bind_ok read
  have back : (w.deeper ts).memory.onInterpreter ts (fun i => { i with nesting := i.nesting - 1 }) =
      w.memory :=
    (Script.Memory.onInterpreter_onInterpreter _ _).trans Script.Memory.onInterpreter_id
  unfold World.deeper at found
  unfold Script.eval Script.nested Script.guarded
  rw [if_neg (Nat.not_le.mpr room)]
  simp only [found]
  exact congrArg (fun m => EStateM.Result.ok value (⟨m, w.outside⟩ : World)) back

/-! ### Views of methods -/

/-- The method can be called on its own, without arguments. -/
structure Host.Method.Plain (m : Method) : Prop where
  static : m.isStatic = true
  params : m.params = []
  exceptions : m.exceptions = []

theorem Bridge.World.chosen_plain {m : Method} (plain : m.Plain) (w : World) :
    w.chosen none m = some (none, m) := if_pos plain.static

/-- A call without arguments converts none. -/
theorem coerceArguments_plain {m : Method} (plain : m.Plain) (bodies : Bodies World)
    (ts : InterpreterId) (w : World) : Bridge.coerceArguments bodies ts m [] w = .ok [] w := by
  have arity : ¬([] : List Script.Value).length ≠ m.arity := by
    simp [Method.arity, plain.params]
  unfold Bridge.coerceArguments
  rw [if_neg arity, plain.params]
  rfl

/-- There are no declared exceptions to make known. -/
theorem registerExceptions_none {m : Method} (undeclared : m.exceptions = []) (ts : InterpreterId)
    (w : World) : (Bridge.registerExceptions ts m : BridgeM Unit) w = .ok () w := by
  have state : (Bridge.getState : BridgeM Bridge.State) w = .ok w.outside w := rfl
  unfold Bridge.registerExceptions
  rw [bind_ok state, undeclared]
  simp only [List.isEmpty_nil, Bool.not_true, Bool.and_false]
  rfl

/-- The call of a view of one method hands on what the method does. -/
theorem Bridge.HandsOn.view {b : Bodies World} {m : Method} (plain : m.Plain) {f : Script.Foreign}
    {name : String} (view : w.viewAt f.place = .method name none [m]) :
    HandsOn b ts (Host.callMethod b none m []) w (Bridge.call b ts f []) w := by
  have shown : (Bridge.getProxy f.place : BridgeM Bridge.Proxy) w =
      .ok ((w.outside.proxies[f.place]?).getD default) w := rfl
  have calls : Bridge.call b ts f [] w = Bridge.invoke b ts none m [] w := by
    unfold Bridge.call Bridge.callOverloads
    rw [bind_ok shown, ← World.viewAt, view]
    simp only [Bridge.selectOverload, pure_bind, plain.static, Bool.not_true, Bool.false_and,
      Bool.false_eq_true, if_false]
  refine .goesOn calls (.later (registerExceptions_none plain.exceptions ts w) ?_)
  exact .later (coerceArguments_plain plain b ts w) (.first .call)

/-- A name in the top-level namespace of the interpreter stands for a view of one method. -/
def Bridge.World.Sees (ts : InterpreterId) (name : String) (m : Method) (w : World) : Prop :=
  ∃ f, (w.memory.namespaceOf (w.memory.interpreter ts).main).get? name = some (.foreign f) ∧
    w.viewAt f.place = .method name none [m]

theorem Bridge.World.deeper_main (ts : InterpreterId) (w : World) :
    ((w.deeper ts).memory.interpreter ts).main = (w.memory.interpreter ts).main :=
  Bridge.interpreter_onInterpreter (f := fun i => { i with nesting := i.nesting + 1 })
    (P := fun i j => j.main = i.main) (fun _ => rfl) (fun _ => rfl) ts ts

theorem Bridge.World.Sees.deeper {name : String} {m : Method} (h : w.Sees ts name m) :
    (w.deeper ts).Sees ts name m := by
  obtain ⟨f, bound, view⟩ := h
  refine ⟨f, ?_, view⟩
  rw [World.deeper_main]
  exact bound

/-- The state in which a method of the Host runs that an expression calls, while it asks for an
operation on the context that the expression is evaluated in. -/
def Bridge.World.inside (ts : InterpreterId) (w : World) : World :=
  (w.deeper ts).withCurrent (some ts)

namespace Bridge.World

variable {c : ContextId} {s : Host.Realm}

theorem deeper_nesting (runs : ts.place < w.memory.interpreters.size) :
    ((w.deeper ts).memory.interpreter ts).nesting = (w.memory.interpreter ts).nesting + 1 := by
  rw [deeper, Script.World.onMemory, interpreter_onInterpreter_self runs]

theorem deeper_aftermath (ts : InterpreterId) (w : World) : Aftermath w (w.deeper ts) :=
  .onInterpreter ts (f := fun i => { i with nesting := i.nesting + 1 }) (fun _ => rfl) w

theorem inside_aftermath (ts : InterpreterId) (w : World) : Aftermath w (w.inside ts) :=
  (deeper_aftermath ts w).trans (.of_memory (m := (w.inside ts).memory) rfl rfl)

theorem inside_nesting (runs : ts.place < w.memory.interpreters.size) :
    ((w.inside ts).memory.interpreter ts).nesting = (w.memory.interpreter ts).nesting + 1 :=
  deeper_nesting runs

theorem Sees.inside {name : String} {m : Method} (h : w.Sees ts name m) :
    (w.inside ts).Sees ts name m := h.deeper

theorem Admits.deeper (h : w.Admits c ts) : (w.deeper ts).Admits c ts :=
  ⟨h.registered, h.context, h.opened, h.free, h.calm⟩

/-- The interpreter of a context may be entered while it is running. -/
theorem Admits.withCurrent (h : w.Admits c ts) : (w.withCurrent (some ts)).Admits c ts := by
  refine ⟨h.registered, h.context, h.opened, ?_, h.calm⟩
  by_cases made : w.outside.runtime.place < w.memory.runtimes.size
  · simp [current, World.withCurrent, Script.World.onMemory, Script.Memory.runtime,
      Array.getElem_modify, made]
  · simp [current, World.withCurrent, Script.World.onMemory, Script.Memory.runtime, made]
    intro _ running
    cases running

theorem Admits.inside (h : w.Admits c ts) : (w.inside ts).Admits c ts := h.deeper.withCurrent

theorem Sound.inside (h : w.Sound s c ts) : (w.inside ts).Sound s c ts :=
  h.aftermath (inside_aftermath ts w)

end Bridge.World

/-- An expression that calls what a name stands for hands on what the method does. -/
theorem Bridge.HandsOn.evaluating {x : Machine}
    {body : InterpreterId → Script.Scope → Syntax.Expr → BridgeM Script.Value}
    (made : x.engine = Bridge.engine x.bodies body) {expression name : String} {m : Method}
    (parses : Syntax.readExpr expression = .ok (.call (.name name) [])) (sees : w.Sees ts name m)
    (plain : m.Plain) (room : (w.memory.interpreter ts).nesting + 1 < Script.maxNesting)
    (runs : ts.place < w.memory.interpreters.size) :
    HandsOn x.bodies ts (Host.callMethod x.bodies none m []) (w.deeper ts)
      (Context.evaluating x expression (w.memory.interpreter ts).main ts) w := by
  obtain ⟨f, bound, view⟩ := sees
  have deep : ((w.deeper ts).memory.interpreter ts).nesting < Script.maxNesting := by
    rw [World.deeper_nesting runs]
    exact room
  have compiled : Script.compile ts expression .eval Context.stringFile w =
      .ok (.expression (.call (.name name) [])) w := by
    simp only [Script.compile, parses]
    rfl
  have callee : Script.eval x.engine ts ⟨[], (w.memory.interpreter ts).main⟩ (.name name)
      (w.deeper ts) = .ok (.foreign f) (w.deeper ts) := eval_name deep bound
  have called : Script.call x.engine ts (.foreign f) [] = Bridge.call x.bodies ts f [] := by
    rw [made]
    rfl
  refine .first (.later compiled (.nested (Nat.lt_of_succ_lt room) (.later callee ?_)))
  have none_left : Script.evalAll x.engine ts ⟨[], (w.memory.interpreter ts).main⟩ []
      (w.deeper ts) = .ok [] (w.deeper ts) := rfl
  refine .later none_left ?_
  rw [called]
  exact .view plain view

end ScriptBridge
