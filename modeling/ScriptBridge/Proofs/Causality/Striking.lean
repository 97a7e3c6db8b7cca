import ScriptBridge.Proofs.Causality.Carrier
import ScriptBridge.Proofs.Causality.Reception
import ScriptBridge.Proofs.Discipline.Operations

/-!
# From a throwable to an error, and back

A script is struck when a call of the Host has thrown: the throwable is the cause of the error that
is pending now. The operation that runs the script fails with this cause, and a method of the Host
that has asked for the operation throws a wrapper whose cause it is in turn. So the chain of causes
gets longer by one wrapper each time an error has gone through both.
-/

namespace ScriptBridge.Bridge

open Host (ClassId ObjectId Realm Method HostM BodyM Bodies onRealm)
open Script (InterpreterId Exception ErrorType ModuleRef)

variable {α β γ : Type} {s r r' : Realm} {w v u : World} {c : ContextId} {ts : InterpreterId}
  {o T : ObjectId} {n : Nat}

/-! ### Chains of causes -/

/-- So many throwables that carry errors of scripts, each the cause of the one before, end in the
given one. -/
inductive CausedBy (r : Realm) (T : ObjectId) : Nat → ObjectId → Prop
  | itself : CausedBy r T 0 T
  | through {n : Nat} {o cause : ObjectId} : r.classNameOf o = Host.embedExceptionName →
    r.cause? o = some cause → CausedBy r T n cause → CausedBy r T (n + 1) o

/-- A class that has a name exists. -/
theorem has_of_name {d : ClassId} (named : r.nameOf d ≠ "") : r.Has d := by
  by_contra missing
  rw [Realm.nameOf, Realm.classOf_missing missing] at named
  exact named rfl

/-- A chain of causes stays what it is. -/
theorem CausedBy.grows (h : CausedBy r T n o) (grows : r.Grows r') : CausedBy r' T n o := by
  induction h with
  | itself => exact .itself
  | @through n o cause named caused _ ih =>
    have later := (Realm.throwable_of_cause caused).grows grows
    have has : r.Has (r.classIdOf o) := by
      refine has_of_name ?_
      rw [← Realm.classNameOf, named]
      decide
    refine .through ?_ later.cause? ih
    rw [Realm.classNameOf, Realm.nameOf, later.ofClass, grows.classes _ has, ← named]
    rfl

/-! ### States in which errors are received -/

/-- The context belongs to the interpreter, its bridge module is as the bridge has made it, and the
class library is still there. -/
structure World.Sound (s : Realm) (c : ContextId) (ts : InterpreterId) (w : World) : Prop where
  runs : ts.place < w.memory.interpreters.size
  context : (w.outside.context c).state = ts
  unassigned : w.Unassigned ts
  library : w.outside.realm.Retains s

theorem World.Sound.aftermath (h : w.Sound s c ts) (later : Aftermath w v) : v.Sound s c ts where
  runs := by
    rw [later.interpreters]
    exact h.runs
  context := by
    rw [State.context, later.contexts]
    exact h.context
  unassigned := h.unassigned.aftermath later
  library := h.library.grows later.realm

/-- An error is pending whose causes go so many levels down to a throwable. -/
structure World.Struck (s : Realm) (c : ContextId) (ts : InterpreterId) (T : ObjectId) (n : Nat)
    (w : World) : Prop where
  sound : w.Sound s c ts
  error : ∃ e o, (w.memory.interpreter ts).error = some e ∧ e.type.OfThrowable ∧
    e.detail = none ∧ e.cause = some o ∧ CausedBy w.outside.realm T n o

theorem World.Struck.carries (h : w.Struck s c ts T n) (later : Carries ts w v) :
    v.Struck s c ts T n := by
  obtain ⟨e, o, pending, type, plain, cause, caused⟩ := h.error
  obtain ⟨trace, pending'⟩ := later.error e pending
  exact ⟨h.sound.aftermath later.toAftermath, _, o, pending', type, plain, cause,
    caused.grows later.realm⟩

/-- A throwable that is received strikes the script that has called the Host. -/
theorem hostCall_strikes {bodies : Bodies World} {call : HostM World α} {text : String}
    (thrown : call w = .error {} v)
    (captured : (capture bodies ts : BridgeM _) v = .ok (some (o, text)) u)
    (sound : u.Sound s c ts)
    (memory : u.outside.realm.classNameOf o ≠ "java.lang.OutOfMemoryError")
    (caused : CausedBy u.outside.realm T n o) :
    ∃ u' : World, hostCall bodies ts call w = .error {} u' ∧ u'.Struck s c ts T n := by
  obtain ⟨type, standing, failed⟩ := hostCall_throws thrown captured sound.unassigned memory
  refine ⟨_, failed, sound.aftermath (.withError ts _ u),
    { type, message := some text, cause := some o }, o, ?_, standing, rfl, rfl, caused⟩
  rw [World.withError, Script.World.onMemory, interpreter_onInterpreter_self sound.runs]

end ScriptBridge.Bridge

namespace ScriptBridge

open Host (ObjectId Realm Method HostM Bodies)
open Bridge (World State BridgeM ContextId Machine Failure Aftermath CausedBy HandsOn)
open Script (InterpreterId Exception ModuleRef)
open Context (Operation within machine)

variable {α β : Type} {s : Realm} {w v u : World} {c : ContextId} {ts : InterpreterId} {T : ObjectId}
  {n : Nat}

/-! ### Operations that fail -/

/-- The context is open, no other interpreter is running, and no throwable is pending. -/
structure Bridge.World.Admits (c : ContextId) (ts : InterpreterId) (w : World) : Prop where
  registered : w.outside.registry.contains c = true
  context : (w.outside.context c).state = ts
  opened : (w.outside.context c).closed = false
  free : w.current.filter (· != ts) = none
  calm : w.outside.realm.pending = none

/-- The failure of a script whose causes go so many levels down to a throwable. -/
def Bridge.Failure.Blames (f : Failure) (r : Realm) (T : ObjectId) (n : Nat) : Prop :=
  match f with
  | .script _ _ _ (some o) => CausedBy r T n o
  | _ => False

theorem Bridge.Failure.Blames.cause {f : Failure} {r : Realm} (h : f.Blames r T n) :
    ∃ o, f.cause? = some o ∧ CausedBy r T n o := by
  unfold Failure.Blames at h
  split at h
  · exact ⟨_, rfl, h⟩
  · exact h.elim

namespace Context

theorem lookup_run (admits : w.Admits c ts) : lookup c w = .ok (w.outside.context c) w := by
  have state : (Bridge.getState : Operation State) w = .ok w.outside w := rfl
  unfold lookup
  rw [bind_ok state, if_pos admits.registered]
  rfl

/-- The pending error leaves as a failure. -/
theorem failureOf_run {e : Exception} (context : (u.outside.context c).state = ts)
    (pending : (u.memory.interpreter ts).error = some e) :
    ∃ v, (failureOf c : Operation Failure) u = .ok (.ofException e) v ∧ Aftermath u v := by
  obtain ⟨v, taken, after⟩ := Bridge.takeFailure?_run (ε := Failure) pending
    (u.outside.context c).link.printStack
  have read : (Bridge.getContext c : Operation Bridge.Context) u = .ok (u.outside.context c) u := rfl
  refine ⟨v, ?_, after⟩
  unfold failureOf
  rw [bind_ok read, context]
  exact bind_ok taken

/-- The failure has the throwable that has caused the error. -/
theorem failureOf_struck (struck : u.Struck s c ts T n) :
    ∃ f v, (failureOf c : Operation Failure) u = .ok f v ∧ Aftermath u v ∧
      f.Blames v.outside.realm T n := by
  obtain ⟨e, o, pending, type, plain, cause, caused⟩ := struck.error
  obtain ⟨v, leaves, after⟩ := failureOf_run struck.sound.context pending
  refine ⟨.ofException e, v, leaves, after, ?_⟩
  rw [Failure.ofException_caused type plain, cause]
  exact caused.grows after.realm

/-- What a script does inside a context, once the context is entered. -/
def running (c : ContextId) (step : BridgeM α) : Operation α := do
  match ← Script.attempt step with
  | .ok a => pure a
  | .error _ => throw (← failureOf c)

/-- In a context that is open nothing stands before the script. -/
theorem within_admitted {x : Machine} (admits : w.Admits c ts) (work : InterpreterId → BridgeM α) :
    within x c work w = entering ts (running c (work ts)) w := by
  have context : (Bridge.getContext c : Operation Bridge.Context) (w.withCurrent (some ts)) =
      .ok (w.outside.context c) (w.withCurrent (some ts)) := rfl
  have quiet : (Bridge.pendingFailure? x.bodies : Operation (Option Failure))
      (w.withCurrent (some ts)) = .ok none (w.withCurrent (some ts)) := by
    have realm : (Host.getRealm : Operation Realm) (w.withCurrent (some ts)) =
        .ok w.outside.realm (w.withCurrent (some ts)) := rfl
    unfold Bridge.pendingFailure?
    rw [bind_ok realm]
    simp only [admits.calm]
    rfl
  unfold within
  rw [bind_ok (lookup_run admits), admits.context, entering_free admits.free,
    entering_free admits.free, bind_ok context]
  simp only [admits.opened, Bool.false_eq_true, if_false]
  rw [bind_ok quiet]
  rfl

theorem within_done {x : Machine} {work : InterpreterId → BridgeM α} {a : α}
    (admits : w.Admits c ts) (done : work ts (w.withCurrent (some ts)) = .ok a u) :
    within x c work w = .ok a (u.withCurrent w.current) := by
  rw [within_admitted admits, entering_free admits.free, running, bind_ok (Bridge.attempt_ok done)]
  rfl

/-- An operation whose script fails ends with the failure that the pending error becomes. -/
theorem within_failed {x : Machine} {work : InterpreterId → BridgeM α} {f : Failure}
    (admits : w.Admits c ts) (failed : work ts (w.withCurrent (some ts)) = .error {} u)
    (leaves : (failureOf c : Operation Failure) u = .ok f v) :
    within x c work w = .error f (v.withCurrent w.current) := by
  rw [within_admitted admits, entering_free admits.free, running,
    bind_ok (Bridge.attempt_error failed)]
  dsimp only
  rw [bind_ok leaves]
  rfl

/-- An operation whose script was struck fails with the throwable that has caused the error. -/
theorem within_struck {x : Machine} {work : InterpreterId → BridgeM α} (admits : w.Admits c ts)
    (failed : work ts (w.withCurrent (some ts)) = .error {} u) (struck : u.Struck s c ts T n) :
    ∃ f v, within x c work w = .error f v ∧ Aftermath u v ∧ f.Blames v.outside.realm T n := by
  obtain ⟨f, v, leaves, after, blames⟩ := failureOf_struck struck
  have left : Aftermath v (v.withCurrent w.current) :=
    .of_memory (m := (v.withCurrent w.current).memory) rfl rfl
  exact ⟨f, v.withCurrent w.current, within_failed admits failed leaves, after.trans left, blames⟩

/-! ### Methods that evaluate -/

/-- The evaluation of an expression whose value the Host wants. -/
def evaluating (x : Machine) (expression : String) (globals : ModuleRef) (ts : InterpreterId) :
    BridgeM (Option ObjectId) := do
  Bridge.box x.bodies ts (← Script.execSource x.engine ts expression .eval stringFile globals)

theorem evalForValue_run (x : Machine) (expression : String) (admits : w.Admits c ts) :
    evalForValue x c expression none w =
      within x c (evaluating x expression (w.memory.interpreter ts).main) w := by
  have globals : handleModule (w.outside.context c) none w =
      .ok (w.memory.interpreter ts).main w := by
    rw [← admits.context]
    rfl
  unfold evalForValue
  rw [bind_ok (lookup_run admits), bind_ok globals]
  rfl

/-- A method that evaluates an expression throws if the evaluation was struck: what it throws
carries the failure, with the throwable behind it as its cause. -/
theorem evaluate_throws {d : Host.ClassId} (coherent : s.Coherent) (carrier : s.Carrier d)
    {name expression : String} (admits : w.Admits c ts)
    (named : (w.outside.contextNames.get? name).getD default = c) (levels : Nat)
    (failed : evaluating (machine (levels + 1)) expression (w.memory.interpreter ts).main ts
      (w.withCurrent (some ts)) = .error {} u)
    (struck : u.Struck s c ts T n) (receiver : Option ObjectId) (args : List Host.Value) :
    ∃ o cause v, Host.running
        ((machine (levels + 2)).bodies.method (.evaluate name expression) receiver args) w =
          .error {} v ∧
      Aftermath u v ∧ v.outside.realm.pending = some o ∧
      v.outside.realm.ThrowableOf d o (some cause) ∧ CausedBy v.outside.realm T n cause := by
  obtain ⟨f, v, leaves, after, blames⟩ := within_struck (x := machine (levels + 1)) admits failed struck
  obtain ⟨cause, behind, caused⟩ := blames.cause
  have library := (struck.sound.aftermath after).library
  obtain ⟨o, r, threw, grows, pending, wrapper⟩ := Bridge.throwInto_run (α := Option ObjectId)
    (fun request => callback (machine levels) request) (fun _ => (machine levels).bodies)
    coherent carrier library f
  rw [behind] at wrapper
  have found : (namedContext name : Host.BodyM World ContextId) w = .ok c w := by
    rw [← named]
    rfl
  have evaluated : evalForValue (machine (levels + 1)) c expression none w = .error f v :=
    (evalForValue_run _ expression admits).trans leaves
  have carried : (Host.calling (f.throwInto (machine (levels + 1)).bodies) :
      Host.BodyM World (Option ObjectId)) v = .error .pending (v.onRealm r) := by
    unfold Host.calling
    rw [show f.throwInto (machine (levels + 1)).bodies v = .error {} (v.onRealm r) from threw]
  have gaveUp : (failingBody (machine (levels + 1))
      (evalForValue (machine (levels + 1)) c expression none) : Host.BodyM World _) w =
        .error .pending (v.onRealm r) := by
    unfold failingBody
    rw [bind_ok (Bridge.attempt_error evaluated)]
    exact carried
  have answered : callback (machine (levels + 1)) (.evaluate name expression) w =
      .error .pending (v.onRealm r) := by
    unfold callback
    dsimp only
    rw [bind_ok found]
    exact bind_error gaveUp
  have ran : (machine (levels + 2)).bodies.method (.evaluate name expression) receiver args w =
      .error .pending (v.onRealm r) := answered
  refine ⟨o, cause, v.onRealm r, ?_, after.trans (.of_grows grows), pending, wrapper,
    caused.grows grows⟩
  unfold Host.running
  rw [ran]
  have realm : (Host.getRealm : HostM World Realm) (v.onRealm r) = .ok r (v.onRealm r) := rfl
  dsimp only [Host.raise]
  rw [bind_ok realm, pending]
  rfl

end Context

/-- What a call of a method runs, and on which object. -/
def Bridge.World.chosen (w : World) (target : Option ObjectId) (method : Method) :
    Option (Option ObjectId × Method) :=
  if method.isStatic then some (none, method)
  else target.map fun o =>
    (some o, w.outside.realm.resolveVirtual (w.outside.realm.classIdOf o) method)

theorem Bridge.callMethod_run {bodies : Bodies World} {target receiver : Option ObjectId}
    {method chosen : Method} {args : List Host.Value} {body : Host.Body}
    (arity : args.length = method.arity) (runs : w.chosen target method = some (receiver, chosen))
    (does : chosen.body = .inl body) :
    Host.callMethod bodies target method args w =
      Host.running (bodies.method body receiver args) w := by
  unfold Host.callMethod
  rw [if_neg (not_not_intro arity)]
  unfold Bridge.World.chosen at runs
  by_cases static : method.isStatic = true
  · rw [if_pos static] at runs
    cases runs
    simp only [pure_bind, static, if_true, does]
  · rw [if_neg static] at runs
    cases target with
    | none => cases runs
    | some o =>
      cases runs
      simp only [pure_bind, Bool.eq_false_iff.mpr static, Bool.false_eq_true, if_false]
      rw [bind_ok (Bridge.getRealm_run w)]
      simp only [does]

/-- A throwable that describes itself as throwables do is taken away with its text. -/
theorem capture_described {d : Host.ClassId} (coherent : s.Coherent) (has : s.Has d)
    (describes : s.Describes d) (levels : Nat) {o : ObjectId} {cause : Option ObjectId}
    (sound : u.Sound s c ts) (pending : u.outside.realm.pending = some o)
    (thrown : u.outside.realm.ThrowableOf d o cause) :
    ∃ text v, (Bridge.capture (machine (levels + 1)).bodies ts : BridgeM _) u =
      .ok (some (o, text)) v ∧ Aftermath u v := by
  obtain ⟨v, after, taken⟩ :=
    Bridge.capture_run (ε := Script.Raised) (machine (levels + 1)).bodies ts pending
  obtain ⟨r, told, grows⟩ := Bridge.toText_run
    (fun request => Context.callback (machine levels) request) (fun _ => (machine levels).bodies)
    coherent (sound.aftermath after).library has describes (thrown.grows after.realm)
  have asked : Host.toText (machine (levels + 1)).bodies o v =
      .ok (v.outside.realm.shown o) (v.onRealm r) := told
  refine ⟨v.outside.realm.shown o, v.onRealm r, ?_, after.trans (.of_grows grows)⟩
  rw [taken]
  unfold Bridge.throwableText
  exact bind_ok (bind_ok (Bridge.attempt_ok asked))

/-- The class of a throwable has the name that it has in the library. -/
theorem classNameOf_thrown {d : Host.ClassId} (has : s.Has d) {r : Realm} {o : ObjectId}
    {cause : Option ObjectId} (library : r.Retains s) (thrown : r.ThrowableOf d o cause) :
    r.classNameOf o = s.nameOf d := by
  rw [Realm.classNameOf, thrown.ofClass, Realm.nameOf, library.classes d has]
  rfl

/-- A wrapper that is pending strikes the script that has called the Host, one level higher. -/
theorem wrapper_strikes {d : Host.ClassId} (coherent : s.Coherent) (carrier : s.Carrier d)
    {levels : Nat} {call : HostM World α} {o cause : ObjectId} (thrown : call w = .error {} u)
    (sound : u.Sound s c ts) (pending : u.outside.realm.pending = some o)
    (wrapper : u.outside.realm.ThrowableOf d o (some cause))
    (caused : CausedBy u.outside.realm T n cause) :
    ∃ u' : World, Bridge.hostCall (machine (levels + 1)).bodies ts call w = .error {} u' ∧
      u'.Struck s c ts T (n + 1) := by
  have has := coherent.registered _ d carrier.registered
  obtain ⟨text, v, captured, after⟩ := capture_described coherent has
    carrier.describes levels sound pending wrapper
  have sound' := sound.aftermath after
  have wrapper' := wrapper.grows after.realm
  have named : v.outside.realm.classNameOf o = Host.embedExceptionName :=
    (classNameOf_thrown has sound'.library wrapper').trans carrier.named
  refine Bridge.hostCall_strikes thrown captured sound' ?_
    (.through named wrapper'.cause? (caused.grows after.realm))
  rw [named]
  decide

end ScriptBridge
