import ScriptBridge.Proofs.Flight.Held

/-!
# Operations on one context

Most operations are asked of one context. Once their arguments are found to be valid, all that they
still do is done inside the context: its interpreter is entered and nothing was changed before.
-/

namespace ScriptBridge.Flight

open Host (ObjectId)
open Bridge (World State BridgeM ContextId Machine Failure)
open Script (InterpreterId ModuleRef)
open Context (Operation Offered Handle Callable GlobalValue entering)
open Bookkeeping (Kept)

variable {α β : Type} {w : World} {c : ContextId} {ts : InterpreterId}

/-! ### Entering -/

/-- A context that was entered is left again. -/
def leaving (current : Option InterpreterId) :
    EStateM.Result Failure World α → EStateM.Result Failure World α
  | .ok a w => .ok a (w.withCurrent current)
  | .error f w => .error f (w.withCurrent current)

theorem entering_leaving (free : w.current.filter (· != ts) = none) (step : Operation α) :
    entering ts step w = leaving w.current (step (w.withCurrent (some ts))) := by
  rw [entering_free free]
  cases step (w.withCurrent (some ts)) <;> rfl

/-- Only what the step does inside matters. -/
theorem entering_congr {step step' : Operation α}
    (same : step (w.withCurrent (some ts)) = step' (w.withCurrent (some ts))) :
    entering ts step w = entering ts step' w := by
  cases busy : w.current.filter (· != ts) with
  | some other =>
    obtain ⟨f, refused⟩ := entering_busy (α := α) busy
    rw [refused, refused]
  | none => rw [entering_leaving busy, entering_leaving busy, same]

/-- What is done with the result may as well be done inside. -/
theorem entering_map (step : Operation α) (f : α → β) :
    (do return f (← entering ts step) : Operation β) w =
      entering ts (do return f (← step)) w := by
  cases busy : w.current.filter (· != ts) with
  | some other =>
    rw [bind_error (entering_refused busy step)]
    exact (entering_refused busy _).symm
  | none =>
    rw [entering_leaving busy]
    have inside := entering_leaving busy step
    cases ended : step (w.withCurrent (some ts)) with
    | ok a v =>
      rw [ended] at inside
      rw [bind_ok inside, bind_ok ended]
      rfl
    | error e v =>
      rw [ended] at inside
      rw [bind_error inside, bind_error ended]
      rfl

/-! ### Inside a context -/

/-- What is done inside an open context: a throwable that is pending is reported, and otherwise the
work is done, whose error becomes a failure. -/
def inside (x : Machine) (c : ContextId) (work : BridgeM α) : Operation α := do
  match ← Bridge.pendingFailure? x.bodies with
  | some failure => throw failure
  | none =>
    match ← Script.attempt work with
    | .ok a => pure a
    | .error _ => throw (← Context.failureOf c)

theorem open_of_registered (kept : Kept w) (registered : c ∈ w.outside.registry) :
    (w.outside.context c).closed = false := by
  obtain ⟨ts, ref, found⟩ := kept.sound.registered c registered
  obtain ⟨x, -, rfl, -, -, closed⟩ := Bookkeeping.entry_context found
  exact closed

theorem lookup_registered (registered : c ∈ w.outside.registry) :
    Context.lookup c w = .ok (w.outside.context c) w := by
  rcases Regime.lookup_open (w := w) (c := c) with ⟨-, found⟩ | ⟨f, -, refused⟩
  · exact found
  · have read : Context.lookup c w =
        (if w.outside.registry.contains c then return w.outside.context c
          else throw (.unavailable s!"context {c.number} is not open") : Operation _) w := rfl
    rw [read, if_pos (by simpa using registered)]
    rfl

theorem lookup_unlisted (absent : c ∉ w.outside.registry) :
    Context.lookup c w = .error (.unavailable s!"context {c.number} is not open") w := by
  have read : Context.lookup c w =
      (if w.outside.registry.contains c then return w.outside.context c
        else throw (.unavailable s!"context {c.number} is not open") : Operation _) w := rfl
  rw [read, if_neg (by simpa using absent)]
  rfl

theorem within_enters (kept : Kept w) (registered : c ∈ w.outside.registry) (x : Machine)
    (work : InterpreterId → BridgeM α) :
    Context.within x c work w = entering (w.outside.context c).state
      (inside x c (work (w.outside.context c).state)) w := by
  unfold Context.within
  rw [bind_ok (lookup_registered registered)]
  refine entering_congr ?_
  have opened : (Bridge.getContext c : Operation Bridge.Context)
      (w.withCurrent (some (w.outside.context c).state)) =
      .ok (w.outside.context c) (w.withCurrent (some (w.outside.context c).state)) := rfl
  rw [bind_ok opened, open_of_registered kept registered]
  rfl

/-- An operation without a result. -/
theorem within_enters_unit (kept : Kept w) (registered : c ∈ w.outside.registry) (x : Machine)
    (work : InterpreterId → BridgeM α) :
    (do let _ ← Context.within x c work : Operation Unit) w = entering (w.outside.context c).state
      (do let _ ← inside x c (work (w.outside.context c).state)) w := by
  rw [← entering_map (inside x c (work (w.outside.context c).state)) fun _ => ()]
  simp only [bind, EStateM.bind, within_enters kept registered x work]

/-! ### Valid arguments -/

/-- The module in which a name is bound or an expression is evaluated. -/
inductive Scope (w : World) (context : Bridge.Context) : Option Handle → ModuleRef → Prop
  | top : Scope w context none (w.memory.interpreter context.state).main
  | handle {h : Handle} {m : ModuleRef} : Context.handleValue? context h = some (.module m) →
    Scope w context (some h) m

theorem Scope.found {context : Bridge.Context} {h : Option Handle} {m : ModuleRef}
    (scope : Scope w context h m) : Context.handleModule context h w = .ok m w := by
  cases scope with
  | top => rfl
  | handle bound =>
    unfold Context.handleModule
    dsimp only
    rw [bound]
    rfl

/-- The object is a class loader. -/
def IsLoader (w : World) (o : ObjectId) : Prop :=
  ∃ l, w.outside.realm.registry.get? Host.loaderName = some l ∧
    w.outside.realm.isAssignable (w.outside.realm.classIdOf o) l = true

theorem IsLoader.checked {o : ObjectId} (h : IsLoader w o) :
    Context.checkLoader (some o) w = .ok o w := by
  obtain ⟨l, known, assignable⟩ := h
  have looked : (Host.onRealm (Host.Realm.lookupClass? Host.loaderName) : Operation _) w =
      .ok (w.outside.realm.registry.get? Host.loaderName) w := rfl
  have read : (Host.getRealm : Operation _) w = .ok w.outside.realm w := rfl
  unfold Context.checkLoader
  rw [bind_ok looked, known]
  dsimp only
  rw [bind_ok read, if_pos assignable]
  rfl

/-! ### Operations that are directed at a context -/

/-- The operation is asked of a context with arguments that are valid now, and does one thing
inside it. -/
inductive Directed (c : ContextId) (w : World) :
    {α : Type} → (Machine → Operation α) → (Machine → Operation α) → Prop
  | close : Directed c w (fun _ => Context.close c) fun _ => do
      Context.unregister c
      Context.teardown c
  | run (path source : String) : Directed c w (fun x => Context.run x c path (.ok source)) fun x => do
      let _ ← inside x c (Context.execute x .file path source (w.outside.context c).state)
  | check (source : String) : Directed c w (fun x => Context.check x c source) fun x =>
      inside x c do
        match ← Script.attempt
            (Script.compile (σ := State) (w.outside.context c).state source .single "<stdin>") with
        | .ok _ => return .complete
        | .error raised =>
          if ← Script.errorIsA (w.outside.context c).state .parsing then
            Script.clearError (w.outside.context c).state
            return .incomplete
          else throw raised
  | eval (source : String) : Directed c w (fun x => Context.eval x c source) fun x => do
      let _ ← inside x c
        (Context.execute x .single Context.stringFile source (w.outside.context c).state)
  | evalForValue (expression : String) {module : Option Handle} {globals : ModuleRef} :
    Scope w (w.outside.context c) module globals →
    Directed c w (fun x => Context.evalForValue x c expression module) fun x => inside x c do
      Bridge.box x.bodies (w.outside.context c).state
        (← Script.execSource x.engine (w.outside.context c).state expression .eval
          Context.stringFile globals)
  | evalForHandle (expression : String) :
    Directed c w (fun x => Context.evalForHandle x c expression) fun x => inside x c do
      Context.store c (← Context.execute x .eval Context.stringFile expression
        (w.outside.context c).state)
  | invoke {callable : Callable} {args : List (Option ObjectId)} {ids : List Int}
    {kinds : List (Option Bridge.Kind)} {target : Option Script.Value} :
    Context.referenceKinds ids = pure kinds → kinds.length = args.length →
    Context.callTarget (w.outside.context c) callable = pure target →
    Directed c w (fun x => Context.invoke x c callable args ids) fun x => inside x c do
      let callee ← Context.callee x (w.outside.context c).state target callable
      let converted ← Context.unboxAll x (w.outside.context c).state (args.zip kinds)
      Bridge.box x.bodies (w.outside.context c).state
        (← Script.call x.engine (w.outside.context c).state callee converted)
  | createModule (name : String) {parent : Option Handle} {owner : ModuleRef} :
    Scope w (w.outside.context c) parent owner →
    Directed c w (fun x => Context.createModule x c name parent) fun x => inside x c do
      let qualified := if parent.isSome then owner.name ++ "." ++ name else name
      let module ← Script.newModule qualified .created
      Script.bindName module "__name__" (.text qualified)
      Script.addModule (w.outside.context c).state module
      Script.bindName owner name (.module module)
      Context.store c (.module module)
  | setLoader {loader : ObjectId} : IsLoader w loader →
    Directed c w (fun x => Context.setLoader x c (some loader)) fun x =>
      inside x c (Context.keepLoader c loader)
  | setGlobal (name : String) (value : GlobalValue) {target : Option Handle} {scope : ModuleRef} :
    Scope w (w.outside.context c) target scope →
    Directed c w (fun x => Context.setGlobal x c name value target) fun x => inside x c do
      Script.bindName scope name (← Context.globalScript x (w.outside.context c).state value)
  | releaseHandle (handle : Handle) :
    Directed c w (fun x => Context.releaseHandle x c handle) fun x => inside x c do
      let context ← Bridge.getContext c
      Bridge.modifyContext c fun x =>
        { x with handles := x.handles.filter (·.1 != handle.number) }
      Context.release (Context.handleValue? context handle).toList
  | handleText (handle : Handle) :
    Directed c w (fun x => Context.handleText x c handle) fun x => inside x c do
      match Context.handleValue? (← Bridge.getContext c) handle with
      | some value => Script.toText x.engine (w.outside.context c).state value
      | none => Bridge.complain (w.outside.context c).state .name s!"handle {handle.number} is not live"

variable {op body : Machine → Operation α}

theorem Directed.offered (directed : Directed c w op body) : Offered op := by
  cases directed with
  | close => exact .close c
  | run path source => exact .run c path (.ok source)
  | check source => exact .check c source
  | eval source => exact .eval c source
  | evalForValue expression => exact .evalForValue c expression _
  | evalForHandle expression => exact .evalForHandle c expression
  | invoke => exact .invoke c _ _ _
  | createModule name => exact .createModule c name _
  | setLoader => exact .setLoader c _
  | setGlobal name value => exact .setGlobal c name value _
  | releaseHandle handle => exact .releaseHandle c handle
  | handleText handle => exact .handleText c handle

/-- Which interpreter is running makes no difference to what is valid. -/
theorem Directed.withCurrent (directed : Directed c w op body) (current : Option InterpreterId) :
    Directed c (w.withCurrent current) op body := by
  have carried : ∀ {context : Bridge.Context} {h : Option Handle} {m : ModuleRef},
      Scope w context h m → Scope (w.withCurrent current) context h m := by
    intro context h m scope
    cases scope with
    | top => exact .top
    | handle bound => exact .handle bound
  cases directed with
  | close => exact .close
  | run path source => exact .run path source
  | check source => exact .check source
  | eval source => exact .eval source
  | evalForValue expression scope => exact .evalForValue expression (carried scope)
  | evalForHandle expression => exact .evalForHandle expression
  | invoke kinds arity target => exact .invoke kinds arity target
  | createModule name scope => exact .createModule name (carried scope)
  | setLoader loader => exact .setLoader loader
  | setGlobal name value scope => exact .setGlobal name value (carried scope)
  | releaseHandle handle => exact .releaseHandle handle
  | handleText handle => exact .handleText handle

/-- Valid arguments are found to be so without a trace, and then the context is entered. -/
theorem Directed.enters (directed : Directed c w op body) (kept : Kept w)
    (registered : c ∈ w.outside.registry) (x : Machine) :
    op x w = entering (w.outside.context c).state (body x) w := by
  have looked := lookup_registered registered
  cases directed with
  | close => exact bind_ok looked
  | run path source => exact within_enters_unit kept registered x _
  | check source => exact within_enters kept registered x _
  | eval source => exact within_enters_unit kept registered x _
  | evalForValue expression scope =>
    exact (bind_ok looked).trans ((bind_ok scope.found).trans (within_enters kept registered x _))
  | evalForHandle expression => exact within_enters kept registered x _
  | @invoke callable args ids kinds target valid arity bound =>
    have read : Context.referenceKinds ids w = .ok kinds w := by rw [valid]; rfl
    have called : Context.callTarget (w.outside.context c) callable w = .ok target w := by
      rw [bound]; rfl
    refine (bind_ok read).trans ?_
    rw [if_neg (not_not_intro arity)]
    exact (bind_ok looked).trans ((bind_ok called).trans (within_enters kept registered x _))
  | createModule name scope =>
    exact (bind_ok looked).trans ((bind_ok scope.found).trans (within_enters kept registered x _))
  | setLoader loader =>
    exact (bind_ok loader.checked).trans (within_enters kept registered x _)
  | setGlobal name value scope =>
    exact (bind_ok looked).trans ((bind_ok scope.found).trans (within_enters kept registered x _))
  | releaseHandle handle => exact within_enters kept registered x _
  | handleText handle => exact within_enters kept registered x _

/-- A context that is not registered cannot be named. -/
theorem Directed.unlisted (directed : Directed c w op body) (absent : c ∉ w.outside.registry)
    (x : Machine) : op x w = .error (.unavailable s!"context {c.number} is not open") w := by
  have looked := lookup_unlisted absent
  have outside : ∀ {γ : Type} (work : InterpreterId → BridgeM γ), Context.within x c work w =
      .error (.unavailable s!"context {c.number} is not open") w := fun _ => bind_error looked
  cases directed with
  | close => exact bind_error looked
  | run path source => exact bind_error (outside _)
  | check source => exact outside _
  | eval source => exact bind_error (outside _)
  | evalForValue expression scope => exact bind_error looked
  | evalForHandle expression => exact outside _
  | @invoke callable args ids kinds target valid arity bound =>
    have read : Context.referenceKinds ids w = .ok kinds w := by rw [valid]; rfl
    refine (bind_ok read).trans ?_
    rw [if_neg (not_not_intro arity)]
    exact bind_error looked
  | createModule name scope => exact bind_error looked
  | setLoader loader => exact (bind_ok loader.checked).trans (outside _)
  | setGlobal name value scope => exact bind_error looked
  | releaseHandle handle => exact outside _
  | handleText handle => exact outside _

end ScriptBridge.Flight
