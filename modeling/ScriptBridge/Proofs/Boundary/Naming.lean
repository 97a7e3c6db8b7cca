import ScriptBridge.Host.Declaration
import ScriptBridge.Proofs.Boundary.Attribution
import ScriptBridge.Proofs.Imports.Packages
import ScriptBridge.Proofs.Library.Standard

/-!
# Which class a failure names

The exceptions that methods declare are registered in the bridge module under their simple names,
where the first class that has a name keeps it. A failure names the class that is registered under
the name that the text of its cause begins with. It is not necessarily the class of the cause:
another class of that simple name may have been first, and a class may describe its throwables as
it likes.
-/

namespace ScriptBridge.Boundary

open Host (ObjectId Realm)
open Bridge (World Machine)
open Script (InterpreterId ErrorType ModuleRef)
open Context (Operation Offered Procedures machineRunning)
open Bookkeeping (Session)

variable {procedures : Procedures} {ε α : Type} {w v : World} {ts : InterpreterId} {t : ObjectId}
  {c name text : String} {type : ErrorType}

/-! ### Names in a bridge module -/

/-- The error type with a number that stands for a class. -/
def classType (module : String) (entry : Nat × String) : ErrorType :=
  .mapped entry.1 entry.2 module (.builtin .runtime)

/-- The names after a class was registered with the number of its error type. -/
def register (module : String) (names : Table Script.Value) (entry : Nat × String) :
    Table Script.Value :=
  if (names.get? (Host.simpleName entry.2)).isNone then
    names.insert (Host.simpleName entry.2) (.errorType (classType module entry))
  else names

/-- The names of a bridge module in which nothing but these classes were registered. -/
def registering (module : String) (classes : List (Nat × String)) : Table Script.Value :=
  classes.foldl (register module) (.ofList (Bridge.moduleEntries module))

theorem get?_register (module : String) (names : Table Script.Value) (entry : Nat × String) :
    (register module names entry).get? name = (names.get? name).or
      (if Host.simpleName entry.2 = name then some (.errorType (classType module entry))
        else none) := by
  by_cases named : Host.simpleName entry.2 = name
  · subst named
    cases known : names.get? (Host.simpleName entry.2) with
    | none => simp [register, known, Table.get?_insert]
    | some old => simp [register, known]
  · by_cases free : (names.get? (Host.simpleName entry.2)).isNone <;>
      simp [register, free, Table.get?_insert, named]

/-- By induction on the classes: a name stays with the first class that has it. -/
theorem get?_foldl_register (module : String) (classes : List (Nat × String)) :
    ∀ names : Table Script.Value, (classes.foldl (register module) names).get? name =
      (names.get? name).or ((classes.find? fun entry => Host.simpleName entry.2 == name).map
        fun entry => .errorType (classType module entry)) := by
  induction classes with
  | nil => simp
  | cons entry rest ih =>
    intro names
    rw [List.foldl_cons, ih, get?_register, Option.or_assoc, List.find?_cons]
    by_cases named : Host.simpleName entry.2 = name
    · simp [named]
    · simp [named, beq_eq_false_iff_ne.2 named]

theorem get?_foldl_insert {value : Script.Value} (entries : List (String × Script.Value)) :
    ∀ names : Table Script.Value,
      (entries.foldl (fun t (key, value) => t.insert key value) names).get? name = some value →
      names.get? name = some value ∨ (name, value) ∈ entries := by
  induction entries with
  | nil => exact fun _ found => .inl found
  | cons entry rest ih =>
    intro names found
    rcases ih _ found with old | later
    · rw [Table.get?_insert] at old
      split at old
      · next same =>
        cases old
        subst same
        exact .inr List.mem_cons_self
      · exact .inl old
    · exact .inr (List.mem_cons_of_mem _ later)

/-- The bridge module has no error types of its own. -/
theorem get?_moduleEntries (module : String) :
    (Table.ofList (Bridge.moduleEntries module)).get? name ≠ some (.errorType type) := by
  intro found
  rcases get?_foldl_insert _ _ found with empty | listed
  · cases empty
  · simp [Bridge.moduleEntries, Bridge.kindEntries] at listed

/-- What stands for a class in a bridge module was the first to be registered under the name. -/
theorem first_of_registering {module : String} {classes : List (Nat × String)}
    (bound : (registering module classes).get? name = some (.errorType type))
    (mapped : type.hostClass? = some c) :
    (classes.map (·.2)).find? (Host.simpleName · == name) = some c := by
  rw [registering, get?_foldl_register, Option.or_eq_some_iff] at bound
  rcases bound with own | ⟨-, registered⟩
  · exact absurd own (get?_moduleEntries module)
  obtain ⟨entry, found, stands⟩ := Option.map_eq_some_iff.1 registered
  cases stands
  cases mapped
  rw [List.find?_map]
  exact congrArg (Option.map _) found

/-! ### Registering keeps to the rule -/

theorem bindAll_namespaceOf {module : ModuleRef} (entries : List (String × Script.Value)) :
    ∀ {w : World}, module.place < w.memory.namespaces.size →
      ∃ v, (Script.bindAll module entries : EStateM ε World Unit) w = .ok () v ∧
        v.memory.namespaceOf module = entries.foldl (fun t (name, value) => t.insert name value)
          (w.memory.namespaceOf module) := by
  induction entries with
  | nil => exact fun _ => ⟨_, rfl, rfl⟩
  | cons entry rest ih =>
    intro w placed
    let m := w.memory.release ((w.memory.namespaceOf module).get? entry.1)
    have kept : m.namespaces = w.memory.namespaces := (Isolation.Pairing.release_namespaces _ _).1
    have placed' : module.place < m.namespaces.size := by rwa [kept]
    obtain ⟨v, ran, names⟩ := ih (w := ⟨m.onNamespace (·.insert entry.1 entry.2) module, w.outside⟩)
      (by rwa [Script.Memory.onNamespace, Array.size_modify])
    refine ⟨v, ran, names.trans ?_⟩
    rw [Script.Memory.namespaceOf_onNamespace _ _ _ _ placed', if_pos rfl,
      Script.Memory.namespaceOf, kept]
    rfl

/-- A bridge module begins without registered classes. -/
theorem newBridgeModule_registering (name : String) (w : World) :
    ∃ m v, (Bridge.newBridgeModule name : EStateM ε World ModuleRef) w = .ok m v ∧
      m.name = name ∧ v.memory.namespaceOf m = registering name [] := by
  let m : ModuleRef := ⟨w.memory.namespaces.size, name, .created⟩
  let w' : World := w.onMemory fun m => { m with namespaces := m.namespaces.push {} }
  have placed : m.place < w'.memory.namespaces.size := by simp [w', m, Script.World.onMemory]
  obtain ⟨v, ran, names⟩ := bindAll_namespaceOf (ε := ε) (Bridge.moduleEntries name) placed
  refine ⟨m, v, ?_, rfl, names.trans ?_⟩
  · have made : (Script.newModule name .created : EStateM ε World ModuleRef) w = .ok m w' := rfl
    unfold Bridge.newBridgeModule
    rw [bind_ok made, bind_ok ran]
    rfl
  · have empty : w'.memory.namespaceOf m = {} := by
      simp [w', m, Script.World.onMemory, Script.Memory.namespaceOf]
    rw [empty, registering, List.foldl_nil, Table.ofList]

/-- The first class is registered if nothing stands under its simple name; other modules keep their
names. -/
theorem registerAll_first {module : ModuleRef} {before : List (Nat × String)} (name : String)
    (rest : List String) (placed : module.place < w.memory.namespaces.size)
    (names : w.memory.namespaceOf module = registering module.name before) :
    ∃ (v : World) (number : Nat),
      (Bridge.registerAll module (name :: rest) : EStateM ε World Unit) w =
        Bridge.registerAll module rest v ∧
      module.place < v.memory.namespaces.size ∧
      v.memory.namespaceOf module = registering module.name (before ++ [(number, name)]) ∧
      ∀ other : ModuleRef, other.place ≠ module.place →
        v.memory.namespaceOf other = w.memory.namespaceOf other := by
  have looked : (Script.lookup? module (Host.simpleName name) : EStateM ε World _) w =
      .ok ((w.memory.namespaceOf module).get? (Host.simpleName name)) w := rfl
  let number := w.memory.errorTypes
  have begun : registering module.name (before ++ [(number, name)]) =
      register module.name (registering module.name before) (number, name) := by
    rw [registering, List.foldl_append]
    rfl
  rw [Bridge.registerAll, bind_ok looked]
  by_cases free : (w.memory.namespaceOf module).get? (Host.simpleName name) = none
  · let w' : World := w.onMemory fun m => { m with errorTypes := m.errorTypes + 1 }
    have made : (Bridge.newMappedType name module.name : EStateM ε World ErrorType) w =
        .ok (classType module.name (number, name)) w' := rfl
    have placed' : module.place < w'.memory.namespaces.size := placed
    obtain ⟨m, bound, size, -, -, own, others⟩ := Bridge.bindName_run (ε := ε) placed'
      (Host.simpleName name) (.errorType (classType module.name (number, name)))
    have same : w'.memory.namespaceOf module = w.memory.namespaceOf module := rfl
    refine ⟨{ w' with memory := m }, number, ?_, lt_of_lt_of_eq placed size.symm, ?_, others⟩
    · rw [if_pos (by rw [free]; rfl), bind_ok made, bind_ok bound]
    · rw [begun, ← names, register, if_pos (by rw [free]; rfl)]
      exact own.trans (by rw [same])
  · refine ⟨w, number, ?_, placed, ?_, fun _ _ => rfl⟩
    · rw [if_neg (by rwa [Option.isNone_iff_eq_none])]
    · rw [begun, ← names, register, if_neg (by rwa [Option.isNone_iff_eq_none])]

/-- By induction on the classes: the names stay those of registered classes. -/
theorem registerAll_registering {module : ModuleRef} (classes : List String) :
    ∀ {w : World} {before : List (Nat × String)}, module.place < w.memory.namespaces.size →
      w.memory.namespaceOf module = registering module.name before →
      ∃ v more, (Bridge.registerAll module classes : EStateM ε World Unit) w = .ok () v ∧
        more.map (·.2) = classes ∧
        v.memory.namespaceOf module = registering module.name (before ++ more) ∧
        ∀ other : ModuleRef, other.place ≠ module.place →
          v.memory.namespaceOf other = w.memory.namespaceOf other := by
  induction classes with
  | nil => exact fun _ names => ⟨_, [], rfl, rfl, by rw [names, List.append_nil], fun _ _ => rfl⟩
  | cons name rest ih =>
    intro w before placed names
    obtain ⟨u, number, first, placed', names', apart⟩ :=
      registerAll_first (ε := ε) name rest placed names
    obtain ⟨v, more, ran, listed, ends, apart'⟩ := ih placed' names'
    refine ⟨v, (number, name) :: more, first.trans ran, congrArg _ listed, ?_, fun other h => ?_⟩
    · rw [ends, List.append_assoc]
      rfl
    · rw [apart' other h, apart other h]

/-! ### The class that is named -/

/-- Nothing but registering has changed the names in the bridge modules of linked contexts. -/
def OnlyRegistered (w : World) : Prop :=
  ∀ entry ∈ w.outside.links, ∃ classes,
    w.memory.namespaceOf (w.outside.context entry.2).link.bridgeModule =
      registering (w.outside.context entry.2).link.bridgeModule.name classes

/-- The class was the first of its simple name to be registered in the bridge module of a context
that is linked. -/
def FirstNamed (w : World) (simple c : String) : Prop :=
  ∃ entry ∈ w.outside.links, ∃ classes,
    w.memory.namespaceOf (w.outside.context entry.2).link.bridgeModule =
      registering (w.outside.context entry.2).link.bridgeModule.name classes ∧
    (classes.map (·.2)).find? (Host.simpleName · == simple) = some c

theorem FirstNamed.simpleName (h : FirstNamed w name c) : Host.simpleName c = name := by
  obtain ⟨-, -, classes, -, first⟩ := h
  simpa using List.find?_some first

theorem OnlyRegistered.first (h : OnlyRegistered w) (finds : w.Finds ts text type)
    (mapped : type.hostClass? = some c) : FirstNamed w (Bridge.namedBy text) c := by
  obtain ⟨link, linked, bound⟩ := finds
  obtain ⟨context, known, rfl⟩ := Option.map_eq_some_iff.1 linked
  have listed := mem_of_lookup known
  obtain ⟨classes, names⟩ := h _ listed
  rw [names] at bound
  exact ⟨_, listed, classes, names, first_of_registering bound mapped⟩

/-- A name of a class as texts of throwables begin with. -/
def Plain (name : String) : Prop := ∀ ch ∈ name.toList, ch ≠ ':' ∧ Text.isBlank ch = false

/-- Two exceptions of one simple name, and two methods of which each declares one of them. -/
def twins : List Host.Declaration :=
  [{ name := "p.Boom", superclass := some "java.lang.RuntimeException",
     constructors := [([Host.stringName], .throwable)] },
   { name := "q.Boom", superclass := some "java.lang.RuntimeException",
     constructors := [([Host.stringName], .throwable)] },
   { name := "demo.Calls", superclass := some Host.objectName,
     methods :=
      [{ name := "first", isStatic := true, throws := ["p.Boom"], body := .constant (.plain .void) },
       { name := "second", isStatic := true, throws := ["q.Boom"],
         body := .fail "q.Boom" (some "second") }] }]

def twinned : Realm := (World.after (Host.Declaration.declareAll .none twins .fresh)).outside.realm

def begun : World := .after (Context.start {} ⟨{}, { realm := twinned }⟩)

end ScriptBridge.Boundary
