import ScriptBridge.Proofs.Discipline.Operations

/-!
# Every operation keeps the regime

What can be refused without running anything changes the background only; the rest is work inside
a context. How contexts come, go and change their loaders is left to each regime.
-/

namespace ScriptBridge

open Host (ObjectId ClassId Realm GlobalRef Body Callback BodyM)
open Bridge (World State BridgeM ContextId Machine Failure)
open Script (InterpreterId Raised ModuleRef)
open Context (Operation Handle Callable)

variable {ε α β : Type}

/-! ### Refusals -/

namespace Prepares

theorem lookup (c : ContextId) : Prepares (Context.lookup c) := by
  refine .bind (.of_quiet fun _ => .getState) fun s => ?_
  by_cases opened : s.registry.contains c
  · rw [if_pos opened]
    exact .pure _
  · rw [if_neg opened]
    exact .throw nofun

theorem handleModule (context : Bridge.Context) (h : Option Handle) :
    Prepares (Context.handleModule context h) := by
  unfold Context.handleModule
  split
  · exact .bind (.of_quiet fun _ => .getInterpreter _) fun _ => .pure _
  · split
    · exact .pure _
    · exact .throw nofun

theorem checkLoader (loader : Option ObjectId) : Prepares (Context.checkLoader loader) := by
  refine .bind (.of_quiet fun _ => .onRealm (.lookupClass? _)) fun c => ?_
  split
  · refine .bind (.of_quiet fun _ => .getRealm) fun r => ?_
    split
    · exact .pure _
    · exact .throw nofun
  · exact .throw nofun

theorem referenceKinds (ids : List Int) : Prepares (Context.referenceKinds ids) := by
  induction ids with
  | nil => exact .pure _
  | cons id rest ih =>
    unfold Context.referenceKinds
    split
    · exact .bind ih fun _ => .pure _
    · exact .throw nofun

theorem callTarget (context : Bridge.Context) (callable : Callable) :
    Prepares (Context.callTarget context callable) := by
  unfold Context.callTarget
  split
  · exact .pure _
  · split
    · exact .pure _
    · exact .throw nofun
  · split
    · exact .pure _
    · exact .throw nofun

end Prepares

/-! ### Steps of operations -/

namespace Quiet

variable {allowed : Body → Prop} {ts : InterpreterId}

theorem getContext (c : ContextId) :
    Quiet allowed (Bridge.getContext c : EStateM ε World Bridge.Context) :=
  .bind .getState fun _ => .pure _

theorem store (c : ContextId) (value : Script.Value) :
    Quiet allowed (Context.store c value : EStateM ε World Handle) := by
  refine .bind (.getContext c) fun _ => .bind (.modifyContext ?_ ?_ ?_ c) fun _ => .pure _ <;>
    exact fun _ => rfl

theorem releaseValues (values : List Script.Value) :
    Quiet allowed (Context.release values : EStateM ε World Unit) := by
  induction values with
  | nil => exact .pure ()
  | cons value rest ih => exact .bind (.release _) fun _ => ih

theorem letGo (context : Bridge.Context) :
    Quiet allowed (Context.letGo context : EStateM ε World Unit) :=
  .bind (.getInterpreter _) fun _ => .bind (.releaseValues _) fun _ =>
    .bind (.releaseValues _) fun _ => .reclaim false

theorem newGlobalRef (o : ObjectId) :
    Quiet allowed (Host.onRealm (Realm.newGlobalRef o) : EStateM ε World GlobalRef) := by
  intro w
  refine ⟨_, _, rfl, .of_outside rfl rfl rfl rfl (.inr rfl) ?_ (Nat.le_succ _)
    (fun n hn => .inl hn) fun hs => { hs with realm := hs.realm }⟩
  exact fun g hg => List.mem_cons_of_mem _ hg

end Quiet

/-- A new runtime is the last one, and no interpreter is running on it. -/
theorem newRuntime_eq (allowed : Host.Body → Prop) (w : World) :
    ∃ (v : World) (r : Script.Runtime), Background allowed w v ∧ r.current = none ∧ r.live = 0 ∧
      (Script.newRuntime : EStateM ConfigError World _) w = .ok ⟨v.memory.runtimes.size⟩
        (v.onMemory fun m => { m with runtimes := m.runtimes.push r }) := by
  have made : Quiet allowed (do
      let math ← Script.newModule "math" .native
      Script.bindAll math Script.mathEntries
      return math : EStateM ConfigError World Script.ModuleRef) :=
    .bind (.newModule _ _) fun _ => .bind (.bindAll _ _) fun _ => .pure _
  obtain ⟨math, v, hv, changed⟩ := made w
  refine ⟨v, { extensions := ({} : Table Script.ModuleRef).insert "math" math }, changed, rfl, rfl, ?_⟩
  have split : (Script.newRuntime : EStateM ConfigError World _) = (do
      let math ← Script.newModule "math" .native
      Script.bindAll math Script.mathEntries
      return math) >>= fun math => do
        let place := (← Script.getMemory).runtimes.size
        Script.modifyMemory fun m =>
          { m with
            runtimes := m.runtimes.push
              { extensions := ({} : Table Script.ModuleRef).insert "math" math } }
        return ⟨place⟩ := by
    simp only [Script.newRuntime, bind_assoc, pure_bind]
  rw [split, bind_ok hv]
  rfl

namespace Discipline

variable {C : Course} {D : Discipline C} {x x' : Machine} (h : D.Machines x x') {ts : InterpreterId}

theorem check_keeps (source : String) :
    D.Keeps (D.raises ts)
      (do
        match ← Script.attempt (Script.compile (σ := State) ts source .single "<stdin>") with
        | .ok _ => return .complete
        | .error raised =>
          if ← Script.errorIsA ts .parsing then
            Script.clearError ts
            return .incomplete
          else throw raised : BridgeM Context.CompileStatus)
      (do
        match ← Script.attempt (Script.compile (σ := State) ts source .single "<stdin>") with
        | .ok _ => return .complete
        | .error raised =>
          if ← Script.errorIsA ts .parsing then
            Script.clearError ts
            return .incomplete
          else throw raised) fun _ => True := by
  refine .attempt (compile_keeps _ _ _) (fun _ _ => .pure trivial) fun raised => ?_
  refine raised_quiet (.errorIsA ts _) (errorIsA_tidies _) fun parsing => ?_
  cases parsing with
  | true => exact raised_clear (.pure trivial)
  | false => exact raised_throw raised

include h

theorem executeSource_keeps (mode : Script.Mode) (file source : String) :
    D.Keeps (D.raises ts) (Context.execute x mode file source ts)
      (Context.execute x' mode file source ts) fun _ => True :=
  .quiet (.getInterpreter ts) fun _ => execSource_keeps h.engine _ _ _ _

theorem followAttrs_keeps (parts : List String) : ∀ value,
    D.Keeps (D.raises ts) (Context.followAttrs x ts value parts)
      (Context.followAttrs x' ts value parts) fun _ => True := by
  induction parts with
  | nil => exact fun _ => .pure trivial
  | cons part rest ih => exact fun _ => .seq (valueAttr_keeps h.engine _ _) fun _ => ih _

theorem resolveDotted_keeps (name : String) :
    D.Keeps (D.raises ts) (Context.resolveDotted x ts name) (Context.resolveDotted x' ts name)
      fun _ => True := by
  refine .quiet (.getInterpreter ts) fun i => ?_
  split
  · exact .raise _
  · refine .quiet (.lookup? _ _) fun own => .quiet (.lookup? _ _) fun builtin => ?_
    split
    · exact .raise _
    · exact followAttrs_keeps h _ _

theorem callee_keeps (target : Option Script.Value) (callable : Callable) :
    D.Keeps (D.raises ts) (Context.callee x ts target callable)
      (Context.callee x' ts target callable) fun _ => True := by
  cases callable with
  | named name => exact resolveDotted_keeps h name
  | handle => exact .pure trivial
  | method _ name => exact valueAttr_keeps h.engine _ name

theorem unboxAll_keeps (args : List (Option ObjectId × Option Bridge.Kind)) :
    D.Keeps (D.raises ts) (Context.unboxAll x ts args) (Context.unboxAll x' ts args)
      fun _ => True := by
  induction args with
  | nil => exact .pure trivial
  | cons arg rest ih =>
    obtain ⟨arg, kind⟩ := arg
    cases kind with
    | none => exact .seq ih fun _ => .pure trivial
    | some kind => exact .seq (unbox_keeps h.bodies _ _) fun _ => .seq ih fun _ => .pure trivial

theorem globalScript_keeps (value : Context.GlobalValue) :
    D.Keeps (D.raises ts) (Context.globalScript x ts value) (Context.globalScript x' ts value)
      fun _ => True := by
  cases value with
  | object o => exact unboxObject_keeps h.bodies o
  | type described => exact .of_quiet (.viewClass described)
  | text | int | long | double | float => exact .pure trivial

end Discipline

/-! ### Operations -/

namespace Regime

variable {C : Course} {R : Regime C}

/-- How contexts come, go and change their loaders under a regime. -/
structure Lifecycle (R : Regime C) : Prop where
  create : ∀ loader, R.Serves (Context.create loader) (Context.create loader)
  close : ∀ c, R.Serves (Context.close c) (Context.close c)
  keepLoader : ∀ current ts c loader,
    Agree C (fun w => (R.of current).calm w ∧ c ∈ w.outside.registry)
      (Context.keepLoader c loader) (Context.keepLoader c loader)
      (fun _ => (R.of current).calm) ((R.of current).raises ts)

variable {x x' : Machine} (hx : R.Machines x x')

include hx

theorem run_serves (c : ContextId) (path : String) (content : Except String String) :
    R.Serves (Context.run x c path content) (Context.run x' c path content) := by
  cases content with
  | error reason => exact .prepares (.throw nofun)
  | ok source =>
    exact .bind (within_serves hx c fun current _ => Discipline.executeSource_keeps (hx current) _ _ _)
      fun _ => .pure ()

theorem check_serves (c : ContextId) (source : String) :
    R.Serves (Context.check x c source) (Context.check x' c source) :=
  within_serves hx c fun _ _ => Discipline.check_keeps source

theorem eval_serves (c : ContextId) (source : String) :
    R.Serves (Context.eval x c source) (Context.eval x' c source) :=
  .bind (within_serves hx c fun current _ => Discipline.executeSource_keeps (hx current) _ _ _)
    fun _ => .pure ()

theorem evalForValue_serves (c : ContextId) (expression : String) (module : Option Handle) :
    R.Serves (Context.evalForValue x c expression module)
      (Context.evalForValue x' c expression module) :=
  .bind (.prepares (.lookup c)) fun _ => .bind (.prepares (.handleModule _ module)) fun _ =>
    within_serves hx c fun current _ =>
      .seq (Discipline.execSource_keeps (hx current).engine _ _ _ _) fun _ =>
        Discipline.box_keeps (hx current).bodies _

theorem evalForHandle_serves (c : ContextId) (expression : String) :
    R.Serves (Context.evalForHandle x c expression) (Context.evalForHandle x' c expression) :=
  within_serves hx c fun current _ =>
    .seq (Discipline.executeSource_keeps (hx current) _ _ _) fun _ => .of_quiet (.store c _)

theorem invoke_serves (c : ContextId) (callable : Callable) (args : List (Option ObjectId))
    (ids : List Int) :
    R.Serves (Context.invoke x c callable args ids) (Context.invoke x' c callable args ids) := by
  refine .bind (.prepares (.referenceKinds ids)) fun kinds => ?_
  have called : R.Serves
      (do
        let target ← Context.callTarget (← Context.lookup c) callable
        Context.within x c fun ts => do
          let callee ← Context.callee x ts target callable
          let converted ← Context.unboxAll x ts (args.zip kinds)
          Bridge.box x.bodies ts (← Script.call x.engine ts callee converted))
      (do
        let target ← Context.callTarget (← Context.lookup c) callable
        Context.within x' c fun ts => do
          let callee ← Context.callee x' ts target callable
          let converted ← Context.unboxAll x' ts (args.zip kinds)
          Bridge.box x'.bodies ts (← Script.call x'.engine ts callee converted)) := by
    refine .bind (.prepares (.lookup c)) fun context =>
      .bind (.prepares (.callTarget context callable)) fun target =>
        within_serves hx c fun current ts => ?_
    exact .seq (Discipline.callee_keeps (hx current) _ _) fun _ =>
      .seq (Discipline.unboxAll_keeps (hx current) _) fun _ =>
      .seq (Discipline.callValue_keeps (hx current).engine _ _) fun _ =>
        Discipline.box_keeps (hx current).bodies _
  by_cases wrong : kinds.length ≠ args.length
  · rw [if_pos wrong, if_pos wrong]
    exact .bind (.prepares (.throw nofun)) fun (_ : PUnit) => called
  · rw [if_neg wrong, if_neg wrong]
    exact called

theorem createModule_serves (c : ContextId) (name : String) (parent : Option Handle) :
    R.Serves (Context.createModule x c name parent) (Context.createModule x' c name parent) :=
  .bind (.prepares (.lookup c)) fun _ => .bind (.prepares (.handleModule _ parent)) fun _ =>
    within_serves hx c fun _ _ => .quiet (.newModule _ _) fun _ => .quiet (.bindName _ _ _) fun _ =>
      .quiet (.addModule _ _) fun _ => .quiet (.bindName _ _ _) fun _ => .of_quiet (.store c _)

theorem setGlobal_serves (c : ContextId) (name : String) (value : Context.GlobalValue)
    (target : Option Handle) :
    R.Serves (Context.setGlobal x c name value target) (Context.setGlobal x' c name value target) :=
  .bind (.prepares (.lookup c)) fun _ => .bind (.prepares (.handleModule _ target)) fun _ =>
    within_serves hx c fun current _ => .seq (Discipline.globalScript_keeps (hx current) value) fun _ =>
      .of_quiet (.bindName _ _ _)

theorem releaseHandle_serves (c : ContextId) (handle : Handle) :
    R.Serves (Context.releaseHandle x c handle) (Context.releaseHandle x' c handle) := by
  refine within_serves hx c fun _ _ => .quiet (.getContext c) fun context =>
    .quiet (.modifyContext ?_ ?_ ?_ c) fun _ => .of_quiet (.releaseValues _) <;>
    exact fun _ => rfl

theorem handleText_serves (c : ContextId) (handle : Handle) :
    R.Serves (Context.handleText x c handle) (Context.handleText x' c handle) := by
  refine within_serves hx c fun current ts => .quiet (.getContext c) fun context => ?_
  split
  · exact Discipline.valueText_keeps (hx current).engine _
  · exact .complain _ _

theorem setLoader_serves (life : R.Lifecycle) (c : ContextId) (loader : Option ObjectId) :
    R.Serves (Context.setLoader x c loader) (Context.setLoader x' c loader) :=
  .bind (.prepares (.checkLoader loader)) fun _ =>
    within_open hx c fun current ts => life.keepLoader current ts c _

end Regime
end ScriptBridge
