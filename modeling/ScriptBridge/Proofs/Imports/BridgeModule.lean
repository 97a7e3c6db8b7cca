import ScriptBridge.Proofs.Boundary.Naming
import ScriptBridge.Proofs.Causality.Calls
import ScriptBridge.Proofs.Imports.Sources
import ScriptBridge.Proofs.Isolation.Reachable

/-!
# Importing the bridge

In a new context the bridge module stands in the table of modules, in the place of any other module
of its name, so that it is what an import of the name finds first. The import fails only where the
name is a reserved word, as it is for some names that a configuration may have.
-/

namespace ScriptBridge

open Host (ObjectId Realm)
open Bridge (World State BridgeM ContextId Machine Failure Aftermath PlainName)
open Script (InterpreterId ModuleRef)
open Context (Operation within machine)

variable {ε : Type} {config : Config} {w v u : World} {c : ContextId} {ts : InterpreterId}
  {module : ModuleRef}

/-! ### Bridges at rest -/

/-- The bridge was started with these options, nothing is running, and no throwable is pending. -/
structure Bridge.World.AtRest (config : Config) (w : World) : Prop where
  named : w.outside.moduleName = config.bridgeModule
  idle : w.current = none
  calm : w.outside.realm.pending = none

theorem start_atRest (valid : config.validate = .ok ()) (calm : w.outside.realm.pending = none) :
    ∃ u, Context.start config w = .ok () u ∧ u.AtRest config := by
  obtain ⟨v, r, changed, idle, -, made⟩ := newRuntime_eq (fun _ => True) w
  have still : v.outside.realm.pending = none := changed.pending.elim id fun same => same.trans calm
  let u : World := ⟨{ v.memory with runtimes := v.memory.runtimes.push r },
    { v.outside with
      runtime := ⟨v.memory.runtimes.size⟩, mapped := config.mappedExceptions
      printStack := config.printStack, moduleName := config.bridgeModule }⟩
  refine ⟨u, ?_, rfl, ?_, still⟩
  · unfold Context.start
    rw [valid]
    exact bind_ok made
  · simp [u, World.current, Script.Memory.runtime, idle]

/-! ### New contexts -/

/-- The interpreter can import a module that has the functions of the bridge. -/
structure Furnished (ts : InterpreterId) (module : ModuleRef) (m : Script.Memory) : Prop where
  made : ts.place < m.interpreters.size
  created : module.origin = .created
  listed : (m.interpreter ts).modules.get? module.name = some module
  entry : (m.namespaceOf (m.interpreter ts).builtins).get? "__import__" =
    some (.native (.extension .importHook))
  finds : (m.namespaceOf module).get? "findClass" = some (.native (.extension .findClass))
  placed : (m.interpreter ts).main.place < m.namespaces.size

/-- A context in which nothing has happened yet. -/
structure Bridge.World.Fresh (c : ContextId) (ts : InterpreterId) (module : ModuleRef)
    (w : World) : Prop extends w.Admits c ts where
  linked : (w.outside.context c).link.bridgeModule = module
  furnished : Furnished ts module w.memory

theorem loaderName_plain : PlainName Host.loaderName := fun _ => rfl

theorem checkLoader_cases (loader : Option ObjectId) (w : World) :
    (∃ o, Context.checkLoader loader w = .ok o w) ∨
      Context.checkLoader loader w = .error .badLoader w := by
  have looked : (Host.onRealm (Realm.lookupClass? Host.loaderName) : Operation _) w =
      .ok (w.outside.realm.registry.get? Host.loaderName) w :=
    Bridge.onRealm_run (loaderName_plain w.outside.realm)
  unfold Context.checkLoader
  rw [bind_ok looked]
  cases loader with
  | none => exact .inr rfl
  | some o =>
    cases w.outside.realm.registry.get? Host.loaderName with
    | none => exact .inr rfl
    | some d =>
      have realm : (Host.getRealm : Operation Realm) w = .ok w.outside.realm w := rfl
      simp only [bind_ok realm]
      split
      · exact .inl ⟨o, rfl⟩
      · exact .inr rfl

/-- A context is created by opening it over an object. -/
theorem create_ok {loader : Option ObjectId} (created : Context.create loader w = .ok c v) :
    ∃ o, (Context.openOver o : Operation ContextId) w = .ok c v := by
  unfold Context.create at created
  rcases checkLoader_cases loader w with ⟨o, checked⟩ | refused
  · rw [bind_ok checked, bind_ok (getState_run w), bind_ok (getRuntime_run _ w)] at created
    split at created
    · cases created
    · exact ⟨o, created⟩
  · rw [bind_error refused] at created
    cases created

/-- What makes an interpreter see the bridge. -/
theorem furnished_run (made : ts.place < w.memory.interpreters.size)
    (created : module.origin = .created)
    (placed : (w.memory.interpreter ts).builtins.place < w.memory.namespaces.size)
    (placed' : (w.memory.interpreter ts).main.place < w.memory.namespaces.size)
    (apart : module.place ≠ (w.memory.interpreter ts).builtins.place)
    (finds : (w.memory.namespaceOf module).get? "findClass" =
      some (.native (.extension .findClass))) :
    ∃ m, (do
        Script.addModule ts module
        Bridge.installImport ts : Operation Unit) w = .ok () { w with memory := m } ∧
      Furnished ts module m ∧ m.runtimes = w.memory.runtimes := by
  let listing : Script.Interpreter → Script.Interpreter :=
    fun i => { i with modules := i.modules.insert module.name module }
  let w' : World := w.onMemory (·.onInterpreter ts listing)
  have seated : w'.memory.interpreter ts = listing (w.memory.interpreter ts) :=
    Bridge.interpreter_onInterpreter_self made
  obtain ⟨m, bound, size, interpreters, runtimes, own, others⟩ :=
    Bridge.bindName_run (ε := Failure) (w := w') placed "__import__"
      (.native (.extension .importHook))
  have added : (Script.addModule ts module : Operation Unit) w = .ok () w' := rfl
  have read : (Script.getInterpreter ts : Operation Script.Interpreter) w' =
      .ok (listing (w.memory.interpreter ts)) w' := by
    rw [← seated]
    rfl
  have kept : m.interpreter ts = listing (w.memory.interpreter ts) := by
    rw [← seated, Script.Memory.interpreter, interpreters]
    rfl
  have stays : ts.place < m.interpreters.size := by
    rw [interpreters]
    show _ < (w.memory.onInterpreter ts listing).interpreters.size
    rwa [Script.Memory.onInterpreter, Array.size_modify]
  refine ⟨m, ?_, ⟨stays, created, ?_, ?_, ?_, ?_⟩, runtimes⟩
  · rw [bind_ok added]
    exact (bind_ok read).trans bound
  · rw [kept, Table.get?_insert, if_pos rfl]
  · rw [kept]
    show (m.namespaceOf (w.memory.interpreter ts).builtins).get? "__import__" = _
    rw [own, Table.get?_insert, if_pos rfl]
  · rw [others module apart]
    exact finds
  · rw [kept, size]
    exact placed'

/-- What a bridge module has from the beginning. -/
theorem moduleEntries_findClass (name : String) :
    (Table.ofList (Bridge.moduleEntries name)).get? "findClass" =
      some (.native (.extension .findClass)) := by
  simp [Table.ofList, Bridge.moduleEntries, Bridge.kindEntries, Bridge.Kind.all, Bridge.Kind.name,
    Script.Extension.title, Table.get?_insert]

/-- A new interpreter with a new bridge module. -/
theorem furnishing_run (w : World) (name : String) : ∃ ts module w₁ w₂ m,
    (Script.newInterpreter w.outside.runtime : Operation InterpreterId) w = .ok ts w₁ ∧
      w₁.outside = w.outside ∧
      (Bridge.newBridgeModule name : Operation ModuleRef) w₁ = .ok module w₂ ∧
      w₂.outside = w.outside ∧
      (do
        Script.addModule ts module
        Bridge.installImport ts : Operation Unit) w₂ = .ok () { w₂ with memory := m } ∧
      Furnished ts module m ∧ module.name = name ∧
      (m.runtime w.outside.runtime).current = w.current := by
  let ts : InterpreterId := ⟨w.memory.interpreters.size⟩
  obtain ⟨w₁, made, namespaces₁, interpreters₁, runtimes₁, outside₁⟩ :=
    Isolation.newInterpreter_eq (ε := Failure) w.outside.runtime w
  obtain ⟨w₂, filled, namespaces₂, interpreters₂, runtimes₂, outside₂⟩ :=
    Isolation.filledModule_eq (ε := Failure) name .created (Bridge.moduleEntries name) w₁
  let module : ModuleRef := ⟨w₁.memory.namespaces.size, name, .created⟩
  have seated : w₂.memory.interpreter ts = Isolation.newRecord w.outside.runtime
      (w.memory.runtime w.outside.runtime).nextNumber w.memory.namespaces.size := by
    simp [Script.Memory.interpreter, interpreters₂, interpreters₁, ts]
  have size₁ : w₁.memory.namespaces.size = w.memory.namespaces.size + 2 := by
    simp [namespaces₁]
  have size₂ : w₂.memory.namespaces.size = w.memory.namespaces.size + 3 := by
    simp [namespaces₂, size₁]
  have finds : (w₂.memory.namespaceOf module).get? "findClass" =
      some (.native (.extension .findClass)) := by
    have filled : w₂.memory.namespaceOf module = .ofList (Bridge.moduleEntries name) := by
      simp [Script.Memory.namespaceOf, namespaces₂, module]
    rw [filled, moduleEntries_findClass]
  have stands : ts.place < w₂.memory.interpreters.size := by
    simp [interpreters₂, interpreters₁, ts]
  have builtins : (w₂.memory.interpreter ts).builtins.place < w₂.memory.namespaces.size := by
    rw [seated, size₂]
    exact Nat.lt_add_of_pos_right (Nat.succ_pos _)
  have main : (w₂.memory.interpreter ts).main.place < w₂.memory.namespaces.size := by
    rw [seated, size₂]
    exact Nat.add_lt_add_left (by decide) _
  have apart : module.place ≠ (w₂.memory.interpreter ts).builtins.place := by
    rw [seated]
    show w₁.memory.namespaces.size ≠ w.memory.namespaces.size
    omega
  obtain ⟨m, has, furnished, runtimes⟩ := furnished_run stands rfl builtins main apart finds
  have same : (m.runtime w.outside.runtime).current =
      (w₁.memory.runtime w.outside.runtime).current := by
    rw [Script.Memory.runtime, runtimes, runtimes₂]
    rfl
  exact ⟨ts, module, w₁, w₂, m, made, outside₁, filled, outside₂.trans outside₁, has, furnished,
    rfl, same.trans (runtimes₁ _).2⟩

/-- A context is opened in a state where nothing has happened in it. -/
theorem openOver_fresh (idle : w.current = none) (calm : w.outside.realm.pending = none)
    (o : ObjectId) : ∃ c ts module v, (Context.openOver o : Operation ContextId) w = .ok c v ∧
      v.Fresh c ts module ∧ module.name = w.outside.moduleName := by
  obtain ⟨ts, module, w₁, w₂, m, made, outside₁, filled, outside₂, has, furnished, named, current⟩ :=
    furnishing_run w w.outside.moduleName
  let c : ContextId := ⟨w.outside.contexts.size + 1⟩
  let number := (m.interpreter ts).number
  let context : Bridge.Context :=
    { state := ts, link := ⟨w.outside.printStack, module, o⟩
      loaderRef := some (Realm.newGlobalRef o w.outside.realm).1 }
  let v : World := ⟨m, { w.outside with
    realm := (Realm.newGlobalRef o w.outside.realm).2
    contexts := w.outside.contexts.push context
    links := (number, c) :: w.outside.links.filter (·.1 != number)
    registry := w.outside.registry ++ [c] }⟩
  have found : v.outside.context c = context := by
    simp [v, c, Bridge.State.context]
  have still : v.current = none := current.trans idle
  refine ⟨c, ts, module, v, ?_, ⟨⟨?_, ?_, ?_, ?_, calm⟩, ?_, furnished⟩, named⟩
  · unfold Context.openOver
    rw [bind_ok (getState_run w), bind_ok made, bind_ok (getState_run w₁), outside₁]
    dsimp only
    rw [bind_ok filled, ← bind_assoc, bind_ok has, outside₂]
    rfl
  · simp [v]
  · rw [found]
  · rw [found]
  · rw [still]
    rfl
  · rw [found]

/-! ### Statements in a new context -/

section

variable {x : Machine} {bodies : Host.Bodies World}
  {body : InterpreterId → Script.Scope → Syntax.Expr → BridgeM Script.Value}
  (made : x.engine = Bridge.engine bodies body) (furnished : Furnished ts module w.memory)

include made furnished

/-- The module is found before anything else that has its name. -/
theorem importModule_run (globals : ModuleRef) (fromList : Script.Value) :
    Script.importModule x.engine ts globals module.name fromList w = .ok (.module module) w := by
  have known : (Script.lookup? (w.memory.interpreter ts).builtins "__import__" :
      BridgeM (Option Script.Value)) w = .ok (some (.native (.extension .importHook))) w := by
    rw [← furnished.entry]
    rfl
  have interpreter : (Script.getInterpreter ts : BridgeM Script.Interpreter) w =
      .ok (w.memory.interpreter ts) w := rfl
  have memory : (Script.getMemory : BridgeM Script.Memory) w = .ok w.memory w := rfl
  have own : ((w.memory.interpreter ts).modules.get? module.name).filter
      (·.origin != .hostPackage) = some module := by
    rw [furnished.listed, Option.filter_some, furnished.created]
    rfl
  have native : (Script.nativeImport ts module.name : BridgeM Script.Value) w =
      .ok (.module module) w := by
    unfold Script.nativeImport
    rw [bind_ok interpreter, bind_ok memory]
    simp only [own]
    rfl
  unfold Script.importModule
  rw [bind_ok interpreter, bind_ok known, made]
  exact bind_ok (Bridge.attempt_ok native)

theorem import_run (plain : '.' ∉ module.name.toList) : ∃ m,
    Script.execute x.engine ts (w.memory.interpreter ts).main .single
        (.imports module.name none) w = .ok () { w with memory := m } ∧
      m.interpreters = w.memory.interpreters ∧
      (m.namespaceOf (w.memory.interpreter ts).main).get? module.name = some (.module module) := by
  obtain ⟨m, bound, -, interpreters, -, own, -⟩ :=
    Bridge.bindName_run (ε := Script.Raised) furnished.placed module.name (.module module)
  refine ⟨m, (bind_ok (importModule_run made furnished _ _)).trans ?_, interpreters, ?_⟩
  · rw [Option.getD_none, Syntax.lastSegment_of_no_dot plain]
    exact bound
  · rw [own, Table.get?_insert, if_pos rfl]

theorem fromImport_run : ∃ m,
    Script.execute x.engine ts (w.memory.interpreter ts).main .single
        (.fromImport module.name (.listed [("findClass", none)])) w = .ok () { w with memory := m } ∧
      m.interpreters = w.memory.interpreters ∧
      (m.namespaceOf (w.memory.interpreter ts).main).get? "findClass" =
        some (.native (.extension .findClass)) := by
  obtain ⟨m, bound, -, interpreters, -, own, -⟩ :=
    Bridge.bindName_run (ε := Script.Raised) furnished.placed "findClass"
      (.native (.extension .findClass))
  have known : (Script.lookup? module "findClass" : BridgeM (Option Script.Value)) w =
      .ok (some (.native (.extension .findClass))) w := by
    rw [← furnished.finds]
    rfl
  have attr : Script.getAttr x.engine ts (.module module) "findClass" w =
      .ok (.native (.extension .findClass)) w := bind_ok known
  have named : Script.importedName x.engine ts (.module module) "findClass" w =
      .ok (.native (.extension .findClass)) w := bind_ok (Bridge.attempt_ok attr)
  refine ⟨m, (bind_ok (importModule_run made furnished _ _)).trans ?_, interpreters, ?_⟩
  · exact (bind_ok named).trans ((bind_ok bound).trans rfl)
  · rw [own, Table.get?_insert, if_pos rfl]

end

/-- Retiring views keeps what was bound. -/
theorem executeAll_single {e : Script.Engine State} (settles : e.settle = Bridge.reclaim true)
    {globals : ModuleRef} {mode : Script.Mode} (file : String) (line : Nat)
    {statement : Syntax.Statement}
    (done : Script.execute e ts globals mode statement w = .ok () v) :
    ∃ u : World, Script.executeAll e ts globals mode file [(line, statement)] w = .ok () u ∧
      Aftermath v u ∧ u.memory.interpreters = v.memory.interpreters := by
  obtain ⟨_, u, settled, after, same⟩ := Bridge.Tidies.reclaim (ε := Script.Raised) true v
  refine ⟨u, ?_, after, same⟩
  unfold Script.executeAll
  rw [bind_ok (Bridge.attempt_ok done), settles, bind_ok settled]
  rfl

/-- What a name of the top-level namespace of a context stands for. -/
def Bridge.World.global? (w : World) (c : ContextId) (name : String) : Option Script.Value :=
  (w.memory.namespaceOf (w.memory.interpreter (w.outside.context c).state).main).get? name

section

variable {x : Machine} {source name : String} {line : Nat} {statement : Syntax.Statement}

/-- A single statement does what executing it does. -/
theorem eval_statement {m : Script.Memory} (settles : x.engine.settle = Bridge.reclaim true)
    (admits : w.Admits c ts) (read : Syntax.readProgram source = .ok [(line, statement)])
    (done : Script.execute x.engine ts (w.memory.interpreter ts).main .single statement
      (w.withCurrent (some ts)) = .ok () { w with memory := m })
    (interpreters : m.interpreters = w.memory.interpreters) :
    ∃ u, Context.eval x c source w = .ok () u ∧
      (u.outside.context c).link = (w.outside.context c).link ∧
      ∀ name, u.global? c name =
        (m.namespaceOf (w.memory.interpreter ts).main).get? name := by
  obtain ⟨u, ran, after, same⟩ := executeAll_single settles Context.stringFile line done
  have compiled : Script.compile ts source .single Context.stringFile (w.withCurrent (some ts)) =
      .ok (.statements .single Context.stringFile [(line, statement)])
        (w.withCurrent (some ts)) := by
    simp only [Script.compile, read]
    rfl
  have executed : Context.execute x .single Context.stringFile source ts (w.withCurrent (some ts)) =
      .ok .none u := (bind_ok rfl).trans ((bind_ok compiled).trans (bind_ok ran))
  have inside := Context.within_done (x := x) admits executed
  have context : u.outside.context c = w.outside.context c := by
    rw [Bridge.State.context, after.contexts]
    rfl
  have interpreter : u.memory.interpreter ts = w.memory.interpreter ts := by
    rw [Script.Memory.interpreter, same, interpreters]
    rfl
  refine ⟨u.withCurrent w.current, (bind_ok inside).trans rfl, ?_, fun name => ?_⟩
  · rw [← context]
    rfl
  · have main : ((u.withCurrent w.current).memory.interpreter
        ((u.withCurrent w.current).outside.context c).state).main =
          (w.memory.interpreter ts).main := by
      rw [← interpreter, ← admits.context, ← context]
      rfl
    have names : ∀ a, (u.withCurrent w.current).memory.namespaceOf a = m.namespaceOf a := fun a =>
      congrArg (fun ns : Array (Table Script.Value) => ns[a.place]?.getD {}) after.namespaces
    rw [World.global?, main, names]

/-- A text that is refused fails as such. -/
theorem eval_refused {e : Syntax.SyntaxError} (admits : w.Admits c ts)
    (made : ts.place < w.memory.interpreters.size) (read : Syntax.readProgram source = .error e)
    (mistake : e.isSyntax = true) :
    ∃ message u, Context.eval x c source w = .error (.syntaxError message) u := by
  let exception : Script.Exception :=
    (Script.Fault.syntaxError e).exception.pushTrace Context.stringFile e.position.line
  let u := (w.withCurrent (some ts)).withError ts fun _ => some exception
  have failed : Context.execute x .single Context.stringFile source ts (w.withCurrent (some ts)) =
      .error {} u := by
    have refused : Script.compile ts source .single Context.stringFile (w.withCurrent (some ts)) =
        .error {} u := by
      simp only [Script.compile, read, Script.raiseSyntax, mistake, if_true]
      rfl
    exact (bind_ok rfl).trans (bind_error refused)
  have pending : (u.memory.interpreter ts).error = some exception := by
    have self : u.memory.interpreter ts = _ := Bridge.interpreter_onInterpreter_self made
    rw [self]
  obtain ⟨v, leaves, -⟩ := Context.failureOf_run (c := c) (u := u) admits.context pending
  have parsing : Failure.ofException exception = .syntaxError exception.render := by
    refine if_pos ?_
    show (Script.Fault.syntaxError e).exception.isA .parsing = true
    rw [Script.Exception.isA, Script.Fault.exception, Script.Fault.family, mistake]
    rfl
  rw [parsing] at leaves
  exact ⟨_, _, bind_error (Context.within_failed admits failed leaves)⟩

end

/-! ### The bridge module -/

theorem machine_engine (levels : Nat) :
    ∃ bodies body, (machine levels).engine = Bridge.engine bodies body := by
  cases levels <;> exact ⟨_, _, rfl⟩

/-- In a new context the bridge module can be imported under the name that the options give it, and
so can what is in it, unless the name is reserved. Then no import of it compiles. -/
theorem bridge_importable (valid : config.validate = .ok ()) :
    (∀ w : World, w.outside.realm.pending = none →
      ∃ u, Context.start config w = .ok () u ∧ u.AtRest config) ∧
    ∀ (w v : World) loader c levels, w.AtRest config → Context.create loader w = .ok c v →
      (Syntax.Keyword.ofSpelling? config.bridgeModule = none →
        (∃ u, Context.eval (machine levels) c ("import " ++ config.bridgeModule) v = .ok () u ∧
          u.global? c config.bridgeModule =
            some (.module (u.outside.context c).link.bridgeModule)) ∧
        ∃ u, Context.eval (machine levels) c
            ("from " ++ config.bridgeModule ++ " import findClass") v = .ok () u ∧
          u.global? c "findClass" = some (.native (.extension .findClass))) ∧
      (Syntax.Keyword.ofSpelling? config.bridgeModule ≠ none →
        (∃ message u, Context.eval (machine levels) c ("import " ++ config.bridgeModule) v =
          .error (.syntaxError message) u) ∧
        ∃ message u, Context.eval (machine levels) c
            ("from " ++ config.bridgeModule ++ " import findClass") v =
          .error (.syntaxError message) u) := by
  refine ⟨fun w calm => start_atRest valid calm, fun w v loader c levels rests created => ?_⟩
  have identifier : Config.isIdentifier config.bridgeModule = true := by
    unfold Config.validate at valid
    split at valid
    · assumption
    · cases valid
  obtain ⟨o, opened⟩ := create_ok created
  obtain ⟨c', ts, module, v', opened', fresh, named⟩ := openOver_fresh rests.idle rests.calm o
  cases opened.symm.trans opened'
  rw [rests.named] at named
  obtain ⟨bodies, body, made⟩ := machine_engine levels
  have settles : (machine levels).engine.settle = Bridge.reclaim true := by rw [made]; rfl
  have inside : Furnished ts module (v.withCurrent (some ts)).memory := { fresh.furnished with }
  constructor
  · intro free
    obtain ⟨⟨_, read⟩, _, read'⟩ := Syntax.readProgram_imports identifier free
    have plain := Syntax.no_dot_of_isIdentifier identifier
    rw [← named] at read read' plain ⊢
    obtain ⟨m, done, interpreters, bound⟩ := import_run made inside plain
    obtain ⟨m', done', interpreters', bound'⟩ := fromImport_run made inside
    obtain ⟨u, ran, link, globals⟩ :=
      eval_statement settles fresh.toAdmits read done interpreters
    obtain ⟨u', ran', -, globals'⟩ :=
      eval_statement settles fresh.toAdmits read' done' interpreters'
    refine ⟨⟨u, ran, ?_⟩, u', ran', ?_⟩
    · rw [globals, link, fresh.linked]
      exact bound
    · rw [globals']
      exact bound'
  · intro reserved
    obtain ⟨k, reserved⟩ := Option.ne_none_iff_exists'.mp reserved
    obtain ⟨⟨_, read⟩, _, read'⟩ := Syntax.readProgram_reserved reserved
    exact ⟨eval_refused fresh.toAdmits fresh.furnished.made read rfl,
      eval_refused fresh.toAdmits fresh.furnished.made read' rfl⟩

/-- A Host that has nothing but a class loader. -/
def loaderOnly : World :=
  ⟨{}, { realm := {
    classes := #[{ name := Host.loaderName }]
    registry := ({} : Table Host.ClassId).insert Host.loaderName ⟨0⟩
    objects := #[⟨⟨0⟩, .loader none⟩] } }⟩

/-- Checks that a context can be created. -/
def creates (config : Config) : Bool :=
  match Context.create (some ⟨0⟩) (.after (Context.start config loaderOnly)) with
  | .ok _ _ => true
  | .error _ _ => false

theorem create_of_creates (h : creates config = true) :
    ∃ c v, Context.create (some ⟨0⟩) (.after (Context.start config loaderOnly)) = .ok c v := by
  unfold creates at h
  split at h
  · exact ⟨_, _, ‹_›⟩
  · cases h

/-- The name of a native module is as good as any other; a reserved one is not. -/
theorem bridge_importable_math : ∃ w v w' v' : World, ∃ c c',
    Context.start { bridgeModule := "math" } loaderOnly = .ok () w ∧
      Context.create (some ⟨0⟩) w = .ok c v ∧
      (∃ u, Context.eval (machine 1) c "import math" v = .ok () u ∧
        u.global? c "math" = some (.module (u.outside.context c).link.bridgeModule)) ∧
      Context.start { bridgeModule := "lambda" } loaderOnly = .ok () w' ∧
      Context.create (some ⟨0⟩) w' = .ok c' v' ∧
      ∃ message u, Context.eval (machine 1) c' "import lambda" v' =
        .error (.syntaxError message) u := by
  have valid : Config.validate { bridgeModule := "math" } = .ok () := rfl
  have valid' : Config.validate { bridgeModule := "lambda" } = .ok () := rfl
  obtain ⟨begin, use⟩ := bridge_importable valid
  obtain ⟨begin', use'⟩ := bridge_importable valid'
  obtain ⟨w, started, rests⟩ := begin loaderOnly rfl
  obtain ⟨w', started', rests'⟩ := begin' loaderOnly rfl
  have checked : creates { bridgeModule := "math" } = true := by decide +kernel
  have checked' : creates { bridgeModule := "lambda" } = true := by decide +kernel
  obtain ⟨c, v, created⟩ := create_of_creates checked
  obtain ⟨c', v', created'⟩ := create_of_creates checked'
  rw [started] at created
  rw [started'] at created'
  exact ⟨w, v, w', v', c, c', started, created,
    ((use w v (some ⟨0⟩) c 1 rests created).1 (by decide)).1, started', created',
    ((use' w' v' (some ⟨0⟩) c' 1 rests' created').2 (by decide)).1⟩

end ScriptBridge
