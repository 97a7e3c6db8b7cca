import ScriptBridge.Proofs.Causality.Calls
import ScriptBridge.Proofs.Library.Standard

/-!
# Causes of nested failures

A method of the Host may evaluate an expression in the context that calls it, and the expression
may call such a method again. When a method at the bottom throws, every level in between fails: its
evaluation fails with the throwable as the cause, the method wraps that failure into a throwable of
its own, and the script that has called the method fails in turn. The operation at the top then
fails with one such wrapper for every level, each the cause of the one before, and the throwable of
the bottom behind the last.
-/

namespace ScriptBridge

open Host (ClassId ObjectId Realm Method HostM)
open Bridge (World BridgeM ContextId Machine CausedBy HandsOn)
open Script (InterpreterId)
open Context (Operation within machine)

variable {α β : Type} {s : Realm} {w v u : World} {c : ContextId} {ts : InterpreterId} {T : ObjectId}
  {n : Nat}

/-- A script comes down so many methods that evaluate an expression in its own context, each called
by the script of the level above, to a call of the Host that throws. When the throwable has been
taken away, the context is still there. -/
inductive Falls (s : Realm) (c : ContextId) (ts : InterpreterId) (T : ObjectId) :
    Nat → {α : Type} → BridgeM α → World → Prop
  | thrown {α β : Type} {x : Machine} {call : HostM World β} {step : BridgeM α} {v w u : World} :
    HandsOn x.bodies ts call w step v → call w = .error {} u →
    u.outside.realm.pending = some T →
    (World.after ((Bridge.capture x.bodies ts : BridgeM _) u)).Sound s c ts →
    (World.after ((Bridge.capture x.bodies ts : BridgeM _) u)).outside.realm.classNameOf T ≠
      "java.lang.OutOfMemoryError" →
    Falls s c ts T 0 step v
  | evaluates {α : Type} {n levels : Nat} {step : BridgeM α} {v w : World}
      {target receiver : Option ObjectId} {method chosen : Method} {args : List Host.Value}
      {name expression : String} :
    HandsOn (machine (levels + 2)).bodies ts
      (Host.callMethod (machine (levels + 2)).bodies target method args) w step v →
    args.length = method.arity → w.chosen target method = some (receiver, chosen) →
    chosen.body = .inl (.evaluate name expression) →
    (w.outside.contextNames.get? name).getD default = c → w.Admits c ts →
    Falls s c ts T n
      (Context.evaluating (machine (levels + 1)) expression (w.memory.interpreter ts).main ts)
      (w.withCurrent (some ts)) →
    Falls s c ts T (n + 1) step v

/-- An expression that calls a method whose body throws comes down to a new throwable. -/
theorem Falls.throws {d : ClassId} (coherent : s.Coherent) {className name expression : String}
    (has : s.Has d) (registered : w.outside.realm.registry.get? className = some d)
    (describes : s.Describes d)
    (named : s.nameOf d ≠ "java.lang.OutOfMemoryError")
    (looked : ∀ r, Realm.lookupClass? className r = (r.registry.get? className, r))
    {m : Method} {message : Option String} (does : m.body = .inl (.fail className message))
    (plain : m.Plain) (parses : Syntax.readExpr expression = .ok (.call (.name name) []))
    (sees : w.Sees ts name m) (room : (w.memory.interpreter ts).nesting + 1 < Script.maxNesting)
    (sound : w.Sound s c ts) (levels : Nat) :
    ∃ T, Falls s c ts T 0 (Context.evaluating (machine (levels + 1)) expression
      (w.memory.interpreter ts).main ts) w := by
  have inner := sound.aftermath (World.deeper_aftermath ts w)
  obtain ⟨T, r, threw, grows, pending, thrown⟩ := Bridge.throwNew_plain (α := Host.Value)
    (w := w.deeper ts) className (looked _) message
  have found : ((w.deeper ts).outside.realm.registry.get? className).getD
      ((w.deeper ts).outside.realm.require Host.runtimeExceptionName) = d := by
    rw [show (w.deeper ts).outside = w.outside from rfl, registered, Option.getD_some]
  rw [found] at thrown
  have called : Host.callMethod (machine (levels + 1)).bodies none m [] (w.deeper ts) =
      .error {} ((w.deeper ts).onRealm r) := by
    have arity : ([] : List Host.Value).length = m.arity := by simp [Method.arity, plain.params]
    exact (Bridge.callMethod_run arity (World.chosen_plain plain _) does).trans threw
  have left := inner.aftermath (.of_grows grows)
  obtain ⟨text, v, captured, after⟩ := capture_described coherent has describes levels
    left pending thrown
  refine ⟨T, .thrown (.evaluating rfl parses sees plain room sound.runs) called pending ?_ ?_⟩
  · rw [captured]
    exact left.aftermath after
  · rw [captured]
    have class_name := classNameOf_thrown has (left.aftermath after).library (thrown.grows after.realm)
    rwa [← class_name] at named

/-- An expression that calls a method which evaluates another expression comes down to what that
one comes down to. -/
theorem Falls.through {context name expression expression' : String} {m : Method}
    (does : m.body = .inl (.evaluate context expression')) (plain : m.Plain)
    (parses : Syntax.readExpr expression = .ok (.call (.name name) [])) (sees : w.Sees ts name m)
    (room : (w.memory.interpreter ts).nesting + 1 < Script.maxNesting)
    (named : (w.outside.contextNames.get? context).getD default = c) (admits : w.Admits c ts)
    (runs : ts.place < w.memory.interpreters.size) {levels : Nat}
    (falls : Falls s c ts T n (Context.evaluating (machine (levels + 1)) expression'
      ((w.inside ts).memory.interpreter ts).main ts) (w.inside ts)) :
    Falls s c ts T (n + 1) (Context.evaluating (machine (levels + 2)) expression
      (w.memory.interpreter ts).main ts) w := by
  have arity : ([] : List Host.Value).length = m.arity := by simp [Method.arity, plain.params]
  exact .evaluates (.evaluating rfl parses sees plain room runs) arity (World.chosen_plain plain _)
    does named admits.deeper falls

/-- By induction on the levels: the error that reaches the end of the script goes all of them
down. -/
theorem Falls.strikes {d : ClassId} (coherent : s.Coherent) (carrier : s.Carrier d)
    {step : BridgeM α} (falls : Falls s c ts T n step v) :
    ∃ u : World, step v = .error {} u ∧ u.Struck s c ts T n := by
  induction falls with
  | @thrown α β x call step v w u hands thrown pending sound memory =>
    obtain ⟨text, u₁, captured⟩ := Bridge.capture_total (ε := Script.Raised) x.bodies ts pending
    rw [captured] at sound memory
    obtain ⟨u₂, failed, struck⟩ := Bridge.hostCall_strikes thrown captured sound memory .itself
    obtain ⟨u₃, failed, carried⟩ := hands.fails failed
    exact ⟨u₃, failed, struck.carries carried⟩
  | @evaluates α n levels step v w target receiver method chosen args name expression hands arity
      runs does named admits _ ih =>
    obtain ⟨u, failed, struck⟩ := ih
    obtain ⟨o, cause, u₁, threw, after, pending, wrapper, caused⟩ :=
      Context.evaluate_throws coherent carrier admits named levels failed struck receiver args
    have called : Host.callMethod (machine (levels + 2)).bodies target method args w =
        .error {} u₁ := (Bridge.callMethod_run arity runs does).trans threw
    obtain ⟨u₂, failed, struck⟩ := wrapper_strikes coherent carrier called
      (struck.sound.aftermath after) pending wrapper caused
    obtain ⟨u₃, failed, carried⟩ := hands.fails failed
    exact ⟨u₃, failed, struck.carries carried⟩

/-- **Causes survive nested callbacks.** An operation whose script comes down so many methods that
evaluate to a call that throws fails as a script does, and its cause is the first of exactly as many
wrappers, each the cause of the one before, behind the last of which is the throwable itself. -/
theorem causes_survive_nesting {x : Machine} {op : Operation α}
    {work : InterpreterId → BridgeM β} {next : β → Operation α}
    (runs : op v = (within x c work >>= next) v) (admits : v.Admits c ts)
    (falls : Falls .standard c ts T n (work ts) (v.withCurrent (some ts))) :
    ∃ kind message mappedClass o u, op v = .error (.script kind message mappedClass (some o)) u ∧
      CausedBy u.outside.realm T n o := by
  obtain ⟨d, carrier⟩ := Host.standard_carrier
  obtain ⟨u, failed, struck⟩ := falls.strikes Bridge.standard_stocked.coherent carrier
  obtain ⟨f, u', leaves, -, blames⟩ := Context.within_struck (x := x) admits failed struck
  have ended : op v = .error f u' := runs.trans (bind_error leaves)
  cases f with
  | script kind message mappedClass cause =>
    cases cause with
    | none => exact blames.elim
    | some o => exact ⟨kind, message, mappedClass, o, u', ended, blames⟩
  | _ => exact blames.elim

/-! ### Two levels -/

namespace Bridge.World

/-- A method that throws. -/
def failing : Method :=
  { name := "fail", declaringClass := "Calls", params := [], isStatic := true
    body := .inl (.fail "java.lang.ArithmeticException" (some "no")) }

/-- A method that evaluates the call of another one in the context `c`. -/
def calling (name other : String) : Method :=
  { name, declaringClass := "Calls", params := [], isStatic := true
    body := .inl (.evaluate "c" (other ++ "()")) }

/-- A context over a Host, in whose top-level namespace three methods are bound, of which one calls
the next. -/
def chained (r : Realm) : World where
  memory :=
    { namespaces := #[{},
        ⟨[("fail", .foreign ⟨.method, 0⟩), ("inner", .foreign ⟨.method, 1⟩),
          ("outer", .foreign ⟨.method, 2⟩)]⟩, {}]
      interpreters := #[
        { number := 1, runtime := ⟨0⟩, modules := {}, builtins := ⟨0, "builtins", .builtins⟩
          main := ⟨1, "__main__", .main⟩ }]
      runtimes := #[{}] }
  outside :=
    { realm := r
      proxies := #[⟨.method "fail" none [failing], none⟩,
        ⟨.method "inner" none [calling "inner" "fail"], none⟩,
        ⟨.method "outer" none [calling "outer" "inner"], none⟩]
      contexts := #[
        { state := ⟨0⟩, link := ⟨true, ⟨2, "embed", .created⟩, default⟩, loaderRef := none }]
      registry := [⟨1⟩]
      links := [(1, ⟨1⟩)]
      contextNames := ⟨[("c", ⟨1⟩)]⟩ }

variable {r : Realm}

theorem chained_admits (calm : r.pending = none) : (chained r).Admits ⟨1⟩ ⟨0⟩ :=
  ⟨rfl, rfl, rfl, rfl, calm⟩

theorem chained_sound (library : r.Retains s) : (chained r).Sound s ⟨1⟩ ⟨0⟩ := by
  refine ⟨Nat.one_pos, rfl, fun link linked name type bound => ?_, library⟩
  cases linked
  cases bound

end Bridge.World

/-- Checks that a text is read as the call of a name. -/
def namesCall (name : String) : Except Syntax.SyntaxError Syntax.Expr → Bool
  | .ok (.call (.name word) []) => word == name
  | _ => false

theorem parses_of_check {name : String} {read : Except Syntax.SyntaxError Syntax.Expr}
    (h : namesCall name read = true) : read = .ok (.call (.name name) []) := by
  unfold namesCall at h
  split at h
  · rw [beq_iff_eq.mp h]
  · cases h

/-- The call of the outermost method comes down two methods to a throwable. -/
theorem chained_falls {d : ClassId} {r : Realm} (coherent : s.Coherent) (library : r.Retains s)
    (calm : r.pending = none) (has : s.Has d)
    (known : r.registry.get? "java.lang.ArithmeticException" = some d) (describes : s.Describes d)
    (named : s.nameOf d ≠ "java.lang.OutOfMemoryError") :
    ∃ T, Falls s ⟨1⟩ ⟨0⟩ T 2
      (Context.evaluating (machine 3) "outer()" ⟨1, "__main__", .main⟩ ⟨0⟩)
      ((World.chained r).withCurrent (some ⟨0⟩)) := by
  let v := (World.chained r).withCurrent (some ⟨0⟩)
  have fail : v.Sees ⟨0⟩ "fail" World.failing := ⟨⟨.method, 0⟩, rfl, rfl⟩
  have inner : v.Sees ⟨0⟩ "inner" (World.calling "inner" "fail") := ⟨⟨.method, 1⟩, rfl, rfl⟩
  have outer : v.Sees ⟨0⟩ "outer" (World.calling "outer" "inner") := ⟨⟨.method, 2⟩, rfl, rfl⟩
  have admits : v.Admits ⟨1⟩ ⟨0⟩ := (World.chained_admits calm).withCurrent
  have sound : v.Sound s ⟨1⟩ ⟨0⟩ :=
    (World.chained_sound library).aftermath (.of_memory (m := v.memory) rfl rfl)
  have context : (v.outside.contextNames.get? "c").getD default = ⟨1⟩ := rfl
  have room : (v.memory.interpreter ⟨0⟩).nesting = 0 := rfl
  have room₁ : ((v.inside ⟨0⟩).memory.interpreter ⟨0⟩).nesting = 1 := by
    rw [World.inside_nesting sound.runs, room]
  have room₂ : (((v.inside ⟨0⟩).inside ⟨0⟩).memory.interpreter ⟨0⟩).nesting = 2 := by
    rw [World.inside_nesting sound.inside.runs, room₁]
  obtain ⟨T, falls⟩ := Falls.throws (m := World.failing) (w := (v.inside ⟨0⟩).inside ⟨0⟩) coherent
    has known describes named (fun _ => rfl) rfl ⟨rfl, rfl, rfl⟩
    (parses_of_check (by decide +kernel : namesCall "fail" (Syntax.readExpr "fail()") = true))
    fail.inside.inside (by rw [room₂]; decide) sound.inside.inside 0
  have second := Falls.through (m := World.calling "inner" "fail") rfl ⟨rfl, rfl, rfl⟩
    (parses_of_check (by decide +kernel : namesCall "inner" (Syntax.readExpr "inner()") = true))
    inner.inside (by rw [room₁]; decide) context admits.inside sound.inside.runs falls
  exact ⟨T, .through (m := World.calling "outer" "inner") rfl ⟨rfl, rfl, rfl⟩
    (parses_of_check (by decide +kernel : namesCall "outer" (Syntax.readExpr "outer()") = true))
    outer (by rw [room]; decide) context admits sound.runs second⟩

/-- Checks that a name leads to a class whose throwables describe themselves as usual. -/
def Host.Realm.throwsPlainly (s : Realm) (name : String) : Bool :=
  (s.registry.get? name).any fun d =>
    s.describes d && s.nameOf d != "java.lang.OutOfMemoryError"

theorem describes_of_check {name : String} (h : s.throwsPlainly name = true) :
    ∃ d, s.registry.get? name = some d ∧ s.Describes d ∧
      s.nameOf d ≠ "java.lang.OutOfMemoryError" := by
  obtain ⟨d, registered, h⟩ := (Option.any_eq_true _ _).mp h
  rw [Bool.and_eq_true, bne_iff_ne] at h
  exact ⟨d, registered, .of_check h.1, h.2⟩

theorem standard_throws : (Realm.standard.pending.isNone &&
    Realm.standard.throwsPlainly "java.lang.ArithmeticException") = true := by
  decide +kernel

/-- Called through two methods that evaluate expressions, a method throws, and the operation at the
top fails with two wrappers around what was thrown. -/
theorem causes_survive_two_levels : ∃ T kind message mappedClass o u,
    Context.evalForValue (machine 3) ⟨1⟩ "outer()" none (World.chained .standard) =
      .error (.script kind message mappedClass (some o)) u ∧
    CausedBy u.outside.realm T 2 o := by
  have checks := standard_throws
  rw [Bool.and_eq_true, Option.isNone_iff_eq_none] at checks
  obtain ⟨d, known, describes, other⟩ := describes_of_check checks.2
  have coherent := Bridge.standard_stocked.coherent
  obtain ⟨T, falls⟩ := chained_falls coherent (.refl _) checks.1
    (coherent.registered _ d known) known describes other
  have admits := World.chained_admits checks.1
  have runs := Context.evalForValue_run (machine 3) "outer()" admits
  rw [← bind_pure (Context.within _ _ _)] at runs
  exact ⟨T, causes_survive_nesting runs admits falls⟩

end ScriptBridge
