import ScriptBridge.Proofs.Imports.Packages
import ScriptBridge.Proofs.Isolation.Modules

/-!
# Outcomes of imports

An import from the Host fills a module, shows one class, or does not know the path; which of them it
is is told by what the package offers and what its parent package lists. Whatever it is, imports may
follow one another.
-/

namespace ScriptBridge.Bridge

open Host (ClassId ObjectId Realm Method HostM BodyM Bodies onRealm)
open Script (InterpreterId ModuleRef)

variable {ε α : Type} {w v u : World} {r : Realm} {ts : InterpreterId} {link : Link}
  {packages : Option (List String)} {t : ClassId × Nat} {value : Script.Value}

/-! ### What an import does -/

/-- What is bound in the module that a path is registered with. -/
def World.bindingsOf (w : World) (ts : InterpreterId) (path : String) : Table Script.Value :=
  (((w.memory.interpreter ts).modules.get? path).map w.memory.namespaceOf).getD {}

/-- The module of a package holds what it held, and views of the classes that were offered. -/
structure Fills (ts : InterpreterId) (path : String) (packages : Option (List String))
    (names : List String) (w v : World) (module : ModuleRef) : Prop where
  registered : (v.memory.interpreter ts).modules.get? path = some module
  package : module.origin = .hostPackage
  before : ∀ old, (w.memory.interpreter ts).modules.get? path = some old → module = old
  kept : ∀ name value, (w.bindingsOf ts path).get? name = some value →
    (v.memory.namespaceOf module).get? name = some value
  added : ∀ name member, (w.bindingsOf ts path).get? name = none →
    (offered w.outside.realm packages names path).find? (Host.simpleName · == name) = some member →
    ∃ value t, (v.memory.namespaceOf module).get? name = some value ∧ v.ShowsClass value t ∧
      w.outside.realm.loads packages member = some t
  absent : ∀ name, (w.bindingsOf ts path).get? name = none →
    (offered w.outside.realm packages names path).find? (Host.simpleName · == name) = none →
    (v.memory.namespaceOf module).get? name = none
  others : ∀ other : ModuleRef, other.place ≠ module.place →
    v.memory.namespaceOf other = w.memory.namespaceOf other
  table : ∀ other, other ≠ path →
    (v.memory.interpreter ts).modules.get? other = (w.memory.interpreter ts).modules.get? other
  interpreters : ∀ other, other ≠ ts → v.memory.interpreter other = w.memory.interpreter other

/-- No module has changed, and no table of modules. -/
structure ModulesKept (w v : World) : Prop where
  namespaces : v.memory.namespaces = w.memory.namespaces
  modules : ∀ other, (v.memory.interpreter other).modules = (w.memory.interpreter other).modules
  runtimes : v.memory.runtimes = w.memory.runtimes

/-- The module that a path is registered with is one of a Host package, if there is any. -/
def World.Packaged (w : World) (ts : InterpreterId) (path : String) : Prop :=
  ∀ module, (w.memory.interpreter ts).modules.get? path = some module →
    module.origin = .hostPackage ∧ module.place < w.memory.namespaces.size

/-- An interpreter that can import from the Host: it is linked to a context whose loader loads these
packages, its modules are in the memory, and the Host is calm. -/
structure World.Importing (ts : InterpreterId) (link : Link) (packages : Option (List String))
    (w : World) : Prop where
  linked : w.linkOf ts = some link
  searchable : w.Searchable ts link.loader packages
  calm : w.outside.realm.pending = none
  made : ts.place < w.memory.interpreters.size
  placed : ∀ path module, (w.memory.interpreter ts).modules.get? path = some module →
    module.place < w.memory.namespaces.size

/-- The module of a package is in the table, as it was or without bindings. -/
structure Registers (ts : InterpreterId) (path : String) (w : World) (module : ModuleRef)
    (m : Script.Memory) : Prop where
  registered : (m.interpreter ts).modules.get? path = some module
  package : module.origin = .hostPackage
  placed : module.place < m.namespaces.size
  before : ∀ old, (w.memory.interpreter ts).modules.get? path = some old → module = old
  bindings : m.namespaceOf module = w.bindingsOf ts path
  others : ∀ other : ModuleRef, other.place ≠ module.place →
    m.namespaceOf other = w.memory.namespaceOf other
  table : ∀ other, other ≠ path →
    (m.interpreter ts).modules.get? other = (w.memory.interpreter ts).modules.get? other
  interpreters : ∀ other, other ≠ ts → m.interpreter other = w.memory.interpreter other
  record : m.interpreter ts =
    { w.memory.interpreter ts with modules := (m.interpreter ts).modules }
  made : m.interpreters.size = w.memory.interpreters.size
  more : w.memory.namespaces.size ≤ m.namespaces.size

theorem withModule_interpreter {m : Script.Memory} (made : ts.place < m.interpreters.size)
    (name : String) (origin : Script.Origin) (other : InterpreterId) :
    (Isolation.Pairing.withModule ts name origin m).interpreter other =
      if other = ts then
        { m.interpreter ts with
          modules := (m.interpreter ts).modules.insert name ⟨m.namespaces.size, name, origin⟩ }
      else m.interpreter other :=
  Script.Memory.interpreter_at _ _ ts other made

theorem withModule_namespaceOf (ts : InterpreterId) (m : Script.Memory) (name : String)
    (origin : Script.Origin)
    (module : ModuleRef) :
    (Isolation.Pairing.withModule ts name origin m).namespaceOf module =
      if module.place = m.namespaces.size then {} else m.namespaceOf module :=
  Isolation.Pairing.namespaceOf_push m {} module

theorem packageModule_run (made : ts.place < w.memory.interpreters.size) {path : String}
    (packaged : w.Packaged ts path) :
    ∃ module m, (Script.moduleOrNew ts path .hostPackage : EStateM ε World ModuleRef) w =
        .ok module { w with memory := m } ∧ Registers ts path w module m := by
  have ran : (Script.moduleOrNew ts path .hostPackage : EStateM ε World ModuleRef) w = _ :=
    Isolation.Pairing.moduleOrNew_eq path .hostPackage w
  cases known : (w.memory.interpreter ts).modules.get? path with
  | some module =>
    obtain ⟨origin, placed⟩ := packaged module known
    refine ⟨module, w.memory, by rw [ran, known],
      { registered := known, package := origin, placed
        before := fun old same => Option.some.inj (known.symm.trans same)
        bindings := ?_, others := fun _ _ => rfl, table := fun _ _ => rfl
        interpreters := fun _ _ => rfl, record := rfl, made := rfl, more := Nat.le_refl _ }⟩
    rw [World.bindingsOf, known]
    rfl
  | none =>
    rw [known] at ran
    have record := withModule_interpreter made path .hostPackage
    have spaces := withModule_namespaceOf ts w.memory path .hostPackage
    refine ⟨_, _, ran,
      { registered := ?_, package := rfl, placed := ?_, before := fun old same => ?_, bindings := ?_
        others := fun other apart => ?_, table := fun other apart => ?_
        interpreters := fun other apart => ?_, record := ?_, made := ?_, more := ?_ }⟩
    · rw [record, if_pos rfl]
      exact (Table.get?_insert _ _ _ _).trans (if_pos rfl)
    · simp [Isolation.Pairing.withModule, Script.Memory.onInterpreter]
    · rw [known] at same
      cases same
    · rw [spaces, if_pos rfl, World.bindingsOf, known]
      rfl
    · exact (spaces other).trans (if_neg apart)
    · rw [record, if_pos rfl]
      exact (Table.get?_insert _ _ _ _).trans (if_neg apart.symm)
    · exact (record other).trans (if_neg apart)
    · rw [record, if_pos rfl]
    · simp [Isolation.Pairing.withModule, Script.Memory.onInterpreter]
    · simp [Isolation.Pairing.withModule, Script.Memory.onInterpreter]

/-- It is memory alone that registers modules. -/
theorem Registers.of_memory {path : String} {module : ModuleRef} {m : Script.Memory}
    (h : Registers ts path u module m) (same : u.memory = w.memory) :
    Registers ts path w module m := by
  obtain ⟨memory, outside⟩ := u
  subst same
  exact { h with }

/-- Imports can go on when the Host was searched and modules were added. -/
theorem World.Importing.follows (h : w.Importing ts link packages) (f : Follows w v)
    (searchable : v.Searchable ts link.loader packages)
    (number : (v.memory.interpreter ts).number = (w.memory.interpreter ts).number)
    (made : v.memory.interpreters.size = w.memory.interpreters.size)
    (placed : ∀ path module, (v.memory.interpreter ts).modules.get? path = some module →
      module.place < v.memory.namespaces.size) : v.Importing ts link packages := by
  refine ⟨?_, searchable, f.realm.pending.trans h.calm, made ▸ h.made, placed⟩
  refine Eq.trans ?_ h.linked
  rw [World.linkOf, World.linkOf, number, f.outside]
  rfl

theorem World.Importing.remembers (h : w.Importing ts link packages) (f : Follows w v)
    (searchable : v.Searchable ts link.loader packages) (memory : v.memory = w.memory) :
    v.Importing ts link packages :=
  h.follows f searchable (by rw [memory]) (by rw [memory]) (by rw [memory]; exact h.placed)

/-! ### Filling the module of a package -/

section Filling

variable {found : List (String × ClassId)} {names : List String} {path : String}
  {module : ModuleRef} {m : Script.Memory}

/-- An interpreter has the same record as long as no interpreter changes. -/
theorem Binds.interpreter (binds : Binds module found w v) (other : InterpreterId) :
    v.memory.interpreter other = w.memory.interpreter other :=
  congrArg (·[other.place]?.getD default) binds.interpreters

/-- The module of a package is filled with what was found. -/
theorem Registers.fills (registers : Registers ts path w module m)
    (shapes : FoundAs found packages names path w u)
    (binds : Binds module found { u with memory := m } v) :
    Fills ts path packages names w v module where
  registered := by rw [binds.interpreter, registers.registered]
  package := registers.package
  before := registers.before
  kept name value held := binds.kept name value (registers.bindings ▸ held)
  added name member free chosen := by
    obtain ⟨t, loaded⟩ := loads_of_offered (List.mem_of_find?_eq_some chosen)
    have which := shapes.find name
    rw [chosen, Option.bind_some, loaded, Option.map_some, Option.map_eq_some_iff] at which
    obtain ⟨entry, chosen_entry, shown⟩ := which
    obtain ⟨value, held, shows⟩ := binds.added name entry (registers.bindings ▸ free) chosen_entry
    refine ⟨value, t, held, ?_, loaded⟩
    rwa [show u.outside.realm.shape entry.2 = t from (Prod.ext_iff.mp shown).2] at shows
  absent name free none_chosen := by
    have which := shapes.find name
    rw [none_chosen, Option.bind_none, Option.map_eq_none_iff] at which
    exact binds.absent name (registers.bindings ▸ free) which
  others other apart := (binds.others other apart).trans (registers.others other apart)
  table other apart := by rw [binds.interpreter, registers.table other apart]
  interpreters other apart := by rw [binds.interpreter, registers.interpreters other apart]

/-- Imports can go on once the module of a package is filled. -/
theorem World.Importing.fills (h : w.Importing ts link packages)
    (searches : Searches ts link.loader packages w u) (registers : Registers ts path w module m)
    (binds : Binds module found { u with memory := m } v) : v.Importing ts link packages := by
  have follows := searches.follows.trans ((Follows.of_memory m).trans binds.follows)
  refine h.follows follows ?_ ?_ ?_ fun other old known => ?_
  · refine searches.searchable.grown (v := v) binds.follows.realm binds.listings binds.loadClass ?_
    rw [binds.interpreter, registers.record, searches.memory]
  · rw [binds.interpreter, registers.record]
  · rw [binds.interpreters]
    exact registers.made
  · rw [binds.size]
    rw [binds.interpreter] at known
    by_cases this : other = path
    · rw [this, registers.registered] at known
      cases known
      exact registers.placed
    · rw [registers.table other this] at known
      exact Nat.lt_of_lt_of_le (h.placed other old known) registers.more

end Filling

section Outcomes

variable (callback : Host.Callback → BodyM World Host.Value) (below : Unit → Bodies World)
  {path : String} {fromList : Option Script.Value}

/-- When members are offered, the module of the package is filled with them. -/
theorem importHostPath_fills (h : w.Importing ts link packages) (packaged : w.Packaged ts path)
    (any : offered w.outside.realm packages (askedNames fromList) path ≠ []) :
    ∃ (module : ModuleRef) (v : World),
      importHostPath (.over callback below) ts link.loader path (wantedNames fromList) w =
        .ok (.module module) v ∧
      Fills ts path packages (askedNames fromList) w v module ∧ v.Importing ts link packages := by
  obtain ⟨found, u, ran, searches, has, shapes⟩ :=
    search_run callback below path fromList h.searchable h.calm
  have memory := searches.memory
  have still : u.Packaged ts path := by rwa [World.Packaged, memory]
  obtain ⟨module, m, opened, registered⟩ :=
    packageModule_run (ε := Script.Raised) (memory ▸ h.made) still
  have registers := registered.of_memory memory
  obtain ⟨v, bound, binds⟩ := bindClasses_run (w := { u with memory := m })
    found searches.searchable.named registers.placed has
  refine ⟨module, v, ?_, registers.fills shapes binds,
    h.fills searches registers binds⟩
  unfold importHostPath
  rw [← bind_assoc, bind_ok ran, if_neg (shapes.isEmpty_iff.not.mpr any)]
  exact (bind_ok opened).trans (bind_ok bound)

/-- When no member is offered, the parent package is asked. -/
theorem importHostPath_nothing (h : w.Importing ts link packages)
    (nothing : offered w.outside.realm packages (askedNames fromList) path = []) :
    ∃ (found : Option ClassId) (v : World),
      importHostPath (.over callback below) ts link.loader path (wantedNames fromList) w =
        (found.elim (Script.raiseException ts (unresolved path)) viewClass : BridgeM _) v ∧
      Searches ts link.loader packages w v ∧ (∀ c ∈ found, v.outside.realm.Has c) ∧
      found.map v.outside.realm.shape = listedAlone w.outside.realm packages path := by
  obtain ⟨members, u, ran, first, -, shapes⟩ :=
    search_run callback below path fromList h.searchable h.calm
  obtain ⟨found, v, listed, second, has, shape⟩ := listedClass?_run callback below path
    first.searchable (first.realm.pending.trans h.calm)
  have grows := first.realm.grows
  have coherent := h.searchable.named.toCoherent
  have same : listedAlone u.outside.realm packages path =
      listedAlone w.outside.realm packages path := by
    have listed : u.outside.realm.listed = w.outside.realm.listed := by
      funext package
      rw [Realm.listed, Realm.listed, first.realm.packages]
    rw [listedAlone, listedAlone, listed, grows.loads coherent]
  refine ⟨found, v, ?_, first.trans second, has, shape.trans same⟩
  unfold importHostPath
  rw [← bind_assoc, bind_ok ran, if_pos (shapes.isEmpty_iff.mpr nothing),
    bind_ok listed]
  cases found <;> rfl

/-- When no member is offered, the class that the path names in its parent package is it. -/
theorem importHostPath_alone (h : w.Importing ts link packages)
    (nothing : offered w.outside.realm packages (askedNames fromList) path = [])
    (alone : listedAlone w.outside.realm packages path = some t) :
    ∃ (value : Script.Value) (v : World),
      importHostPath (.over callback below) ts link.loader path (wantedNames fromList) w = .ok value v ∧
      v.ShowsClass value t ∧ v.memory = w.memory ∧ v.Importing ts link packages := by
  obtain ⟨found, u, ran, searches, has, shape⟩ :=
    importHostPath_nothing callback below h nothing
  rw [alone, Option.map_eq_some_iff] at shape
  obtain ⟨c, rfl, rfl⟩ := shape
  obtain ⟨value, v, viewed, follows, memory, listings, loadClass, shows⟩ :=
    viewClass_shows (ε := Script.Raised) searches.searchable.named (has c rfl)
  have same : v.memory = w.memory := memory.trans searches.memory
  have searchable : v.Searchable ts link.loader packages :=
    searches.searchable.grown follows.realm listings loadClass (by rw [memory])
  exact ⟨value, v, ran.trans viewed, shows, same, h.remembers (searches.follows.trans follows)
    searchable same⟩

/-- When there is no such class either, nothing answers to the path. -/
theorem importHostPath_unresolved (h : w.Importing ts link packages)
    (nothing : offered w.outside.realm packages (askedNames fromList) path = [])
    (alone : listedAlone w.outside.realm packages path = none) :
    ∃ v : World, importHostPath (.over callback below) ts link.loader path (wantedNames fromList) w =
        (Script.raiseException ts (unresolved path) : BridgeM _) v ∧
      v.memory = w.memory ∧ v.Importing ts link packages := by
  obtain ⟨found, v, ran, searches, -, shape⟩ :=
    importHostPath_nothing callback below h nothing
  rw [alone, Option.map_eq_none_iff] at shape
  subst shape
  exact ⟨v, ran, searches.memory, h.remembers searches.follows searches.searchable searches.memory⟩

end Outcomes

end ScriptBridge.Bridge
