import ScriptBridge.Proofs.Discipline.Offers

/-!
# What the Host asks for

Operations are asked for between runs, and by bodies of the Host while a script waits for them. A
body may do any number of operations in any order, look at their outcomes, and go on as it likes.
-/

namespace ScriptBridge

open Host (ObjectId ClassId Realm Body Callback BodyM HostM)
open Bridge (World State BridgeM ContextId Machine Failure)
open Script (InterpreterId)
open Context (Operation Handle Callable)

variable {α β : Type}

namespace Context

/-- The operations that the bridge offers, over any machine. -/
inductive Offered : {α : Type} → (Machine → Operation α) → Prop
  | create (loader : Option ObjectId) : Offered fun _ => create loader
  | close (c : ContextId) : Offered fun _ => close c
  | run (c : ContextId) (path : String) (content : Except String String) :
    Offered fun x => run x c path content
  | check (c : ContextId) (source : String) : Offered fun x => check x c source
  | eval (c : ContextId) (source : String) : Offered fun x => eval x c source
  | evalForValue (c : ContextId) (expression : String) (module : Option Handle) :
    Offered fun x => evalForValue x c expression module
  | evalForHandle (c : ContextId) (expression : String) :
    Offered fun x => evalForHandle x c expression
  | invoke (c : ContextId) (callable : Callable) (args : List (Option ObjectId))
    (ids : List Int) : Offered fun x => invoke x c callable args ids
  | createModule (c : ContextId) (name : String) (parent : Option Handle) :
    Offered fun x => createModule x c name parent
  | setLoader (c : ContextId) (loader : Option ObjectId) : Offered fun x => setLoader x c loader
  | setGlobal (c : ContextId) (name : String) (value : GlobalValue) (target : Option Handle) :
    Offered fun x => setGlobal x c name value target
  | releaseHandle (c : ContextId) (handle : Handle) : Offered fun x => releaseHandle x c handle
  | handleText (c : ContextId) (handle : Handle) : Offered fun x => handleText x c handle

/-- What a body may do: work of its own, operations, and failing with what they failed with. -/
inductive Procedure : Type → Type 1
  | pure {α : Type} (a : α) : Procedure α
  | throw {α : Type} (failure : Host.Throw) : Procedure α
  | bind {α β : Type} (first : Procedure α) (next : α → Procedure β) : Procedure β
  | look : Procedure World
  | work {α : Type} (step : StateM Realm α) (extending : Host.Extending step) : Procedure α
  | perform {α : Type} (op : Machine → Operation α) (offered : Offered op) :
    Procedure (Except Failure α)
  | closeAll : Procedure Unit
  | raise {α : Type} (failure : Failure) : Procedure α

/-- Runs a procedure on a machine. How every context is closed is left open. -/
def Procedure.run {α : Type} (closing : BodyM World Unit) (x : Machine) :
    Procedure α → BodyM World α
  | .pure a => Pure.pure a
  | .throw failure => MonadExcept.throw failure
  | .bind first next => do (next (← first.run closing x)).run closing x
  | .look => get
  | .work step _ => Host.onRealm step
  | .perform op _ => Script.attempt (op x)
  | .closeAll => closing
  | .raise failure => Host.calling (failure.throwInto x.bodies)

/-- The procedures of the bodies on each level. -/
abbrev Procedures := Nat → Callback → Procedure Host.Value

/-- The machine with so many levels whose bodies run the given procedures. -/
def machineRunning (closing : BodyM World Unit) (procedures : Procedures) : Nat → Machine
  | 0 => noMachine
  | level + 1 =>
    let below := machineRunning closing procedures level
    let bodies : Host.Bodies World :=
      .over (fun request => (procedures level request).run closing below) fun _ => below.bodies
    { bodies
      engine := Bridge.engine bodies fun ts scope body => Script.eval below.engine ts scope body }

/-- What the procedures of a level do. -/
def answering (closing : BodyM World Unit) (procedures : Procedures) (level : Nat)
    (request : Callback) : BodyM World Host.Value :=
  (procedures level request).run closing (machineRunning closing procedures level)

theorem machineRunning_eq (closing : BodyM World Unit) (procedures : Procedures) (levels : Nat) :
    machineRunning closing procedures levels =
      machineAsking (answering closing procedures) levels := by
  induction levels with
  | zero => rfl
  | succ level ih =>
    simp only [machineRunning, machineAsking, ← ih]
    rfl

/-- An operation, and failing with what it failed with. -/
def Procedure.demand {op : Machine → Operation α} (offered : Offered op) : Procedure α :=
  .bind (.perform op offered) fun
    | .ok a => .pure a
    | .error failure => .raise failure

/-- The procedures of the bridge. -/
def own : Procedures := fun _ request =>
  let named (name : String) (next : ContextId → Procedure Host.Value) : Procedure Host.Value :=
    .bind .look fun w => next ((w.outside.contextNames.get? name).getD default)
  match request with
  | .evaluate context expression => named context fun c =>
    .bind (.demand (.evalForValue c expression none)) fun o => .pure (.ofRef o)
  | .closeContext context => named context fun c =>
    .bind (.demand (.close c)) fun _ => .pure .null
  | .closeContexts => .bind .closeAll fun _ => .pure .null

theorem demand_run {op : Machine → Operation α} (offered : Offered op) (closing : BodyM World Unit)
    (x : Machine) : (Procedure.demand offered).run closing x = failingBody x (op x) := by
  simp only [Procedure.demand, Procedure.run, failingBody]
  congr 1
  funext outcome
  cases outcome with
  | ok a => rfl
  | error failure => rfl

theorem own_run (x : Machine) (level : Nat) (request : Callback) :
    (own level request).run closeAll x = callback x request := by
  cases request with
  | evaluate context expression =>
    simp only [own, Procedure.run, demand_run]
    rfl
  | closeContext context =>
    simp only [own, Procedure.run, demand_run]
    rfl
  | closeContexts => rfl

/-- The machine of the bridge runs the procedures of the bridge. -/
theorem machine_eq (levels : Nat) : machine levels = machineRunning closeAll own levels := by
  induction levels with
  | zero => rfl
  | succ level ih => simp only [machine, machineOver, machineRunning, own_run, ← ih]

/-- An operation depends on how a request is answered in a state: it asks there. -/
def Asks (ask : Nat → Callback → BodyM World Host.Value) (levels : Nat)
    (op : Machine → Operation α) (w : World) (level : Nat) (request : Callback) (w' : World) : Prop :=
  ∃ ask' : Nat → Callback → BodyM World Host.Value,
    (∀ l r v, (l, r, v) ≠ (level, request, w') → ask' l r v = ask l r v) ∧
      op (machineAsking ask' levels) w ≠ op (machineAsking ask levels) w

end Context

namespace Regime

open Context (Offered Procedure Procedures machineRunning machineRunning_eq)

variable {C : Course} {R : Regime C} {x x' : Machine} {current : Option InterpreterId}

theorem offered_serves (life : R.Lifecycle) (hx : R.Machines x x') {op : Machine → Operation α}
    (offered : Offered op) : R.Serves (op x) (op x') := by
  cases offered with
  | create loader => exact life.create loader
  | close c => exact life.close c
  | run c path content => exact run_serves hx c path content
  | check c source => exact check_serves hx c source
  | eval c source => exact eval_serves hx c source
  | evalForValue c expression module => exact evalForValue_serves hx c expression module
  | evalForHandle c expression => exact evalForHandle_serves hx c expression
  | invoke c callable args ids => exact invoke_serves hx c callable args ids
  | createModule c name parent => exact createModule_serves hx c name parent
  | setLoader c loader => exact setLoader_serves hx life c loader
  | setGlobal c name value target => exact setGlobal_serves hx c name value target
  | releaseHandle c handle => exact releaseHandle_serves hx c handle
  | handleText c handle => exact handleText_serves hx c handle

/-- An operation that a body tries. -/
theorem attempt_keeps {m m' : Operation α} (h : R.Serves m m') :
    (R.of current).Keeps (R.of current).fails (Script.attempt m : BodyM World _)
      (Script.attempt m') fun _ => True := by
  intro w hw
  obtain ⟨same, onward, reached⟩ := h.agree true current w hw
  simp only [Script.attempt]
  cases hm : m w with
  | ok a w' =>
    rw [hm] at same onward reached
    exact ⟨fun left => by rw [← same left], onward, trivial, reached⟩
  | error e w' =>
    rw [hm] at same onward reached
    exact ⟨fun left => by rw [← same left], onward, trivial, reached⟩

theorem procedure_keeps (life : R.Lifecycle) {closing closing' : BodyM World Unit}
    (closed : (R.of current).Keeps (R.of current).fails closing closing' fun _ => True)
    (hx : R.Machines x x') (procedure : Procedure α) :
    (R.of current).Keeps (R.of current).fails (procedure.run closing x) (procedure.run closing' x')
      fun _ => True := by
  induction procedure with
  | pure a => exact .pure trivial
  | throw failure =>
    refine Agree.throw fun w hw => ?_
    cases failure with
    | pending => exact (R.of current).thrown_of_calm hw
    | new | object => exact hw
  | bind _ _ first rest => exact .seq first rest
  | look => exact .of_quiet .get
  | work _ extending => exact .of_quiet (.onRealm extending)
  | perform _ offered => exact attempt_keeps (offered_serves life hx offered)
  | closeAll => exact closed
  | raise failure => exact .calling (Discipline.throwInto_keeps (hx current).bodies failure)

/-- By induction on the levels: a body asks for operations on the machine below it. -/
theorem machineRunning_agree (life : R.Lifecycle) {closing closing' : BodyM World Unit}
    {procedures : Procedures}
    (covers : ∀ current, (R.of current).Covers (Context.answering closing procedures))
    (closed : ∀ current, (R.of current).Keeps (R.of current).fails closing closing' fun _ => True)
    (levels : Nat) :
    R.Machines (machineRunning closing procedures levels)
      (machineRunning closing' procedures levels) := by
  induction levels using Nat.strongRecOn with
  | ind levels ih =>
    intro current
    rw [machineRunning_eq, machineRunning_eq]
    refine Discipline.machineAsking_keeps (covers current) fun level below request => ?_
    exact procedure_keeps life (closed current) (ih level below) _

/-- Bodies ask for something in calm states only: answers in other states make no difference,
unless all is lost. -/
theorem asks_calm (life : R.Lifecycle) {closing : BodyM World Unit} {procedures : Procedures}
    (covers : ∀ current, (R.of current).Covers (Context.answering closing procedures))
    (closed : ∀ current, (R.of current).Keeps (R.of current).fails closing closing fun _ => True)
    {op : Machine → Operation α} (offered : Offered op) (clear : Bool) {levels level : Nat}
    {request : Callback} {w w' : World} (hw : R.between clear current w)
    (found : ¬C.lost (World.after (op (machineRunning closing procedures levels) w)))
    (asks : Context.Asks (Context.answering closing procedures) levels op w level request w') :
    ∃ current, (R.of current).calm w' := by
  refine Classical.byContradiction fun never => ?_
  obtain ⟨ask', same, different⟩ := asks
  have agree : R.Machines (Context.machineAsking (Context.answering closing procedures) levels)
      (Context.machineAsking ask' levels) := by
    intro current
    refine Discipline.machineAsking_keeps (covers current) fun l _ r v hv => ?_
    have elsewhere : (l, r, v) ≠ (level, request, w') := by
      intro equal
      cases equal
      exact never ⟨current, hv⟩
    rw [same l r v elsewhere]
    exact procedure_keeps life (closed current)
      (machineRunning_agree life covers closed l) _ v hv
  rw [machineRunning_eq] at found
  exact different ((offered_serves life agree offered clear current w hw).same found).symm

end Regime
end ScriptBridge
