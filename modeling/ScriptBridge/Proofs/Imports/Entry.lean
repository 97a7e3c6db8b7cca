import ScriptBridge.Proofs.Imports.Outcomes
import ScriptBridge.Proofs.Library.Formed

/-!
# The import entry

Scripts import through an entry that asks the Host for what they do not have themselves. What comes
of an import is told by what the path's package offers and what its parent package lists: a module
that goes on being filled, one class, or an error that tells the path.
-/

namespace ScriptBridge

open Host (ClassId ObjectId Realm Method BodyM Bodies)
open Script (InterpreterId ModuleRef)

/-! ### Hosts that can be asked -/

namespace Host.Realm

/-- Checks that array classes are named after their components, and that class objects describe
their classes. -/
def isNamed (r : Realm) : Bool :=
  r.isCoherent &&
    ((List.range r.classes.size).all fun i =>
      (r.classOf ⟨i⟩).component?.all fun b => r.nameOf ⟨i⟩ == r.nameOf b ++ "[]") &&
    r.mirrors.all fun entry => r.Holds entry.2 && r.mirrored? entry.2 == some entry.1

/-- Checks that a method lists classes. -/
def lists (m : Method) : Bool :=
  match m.body with
  | .inl (.library .listClasses) => m.isStatic
  | _ => false

/-- Checks that a method loads classes. -/
def loadsClasses (m : Method) : Bool :=
  match m.body with
  | .inl (.library .loadClass) => true
  | _ => false

/-- Checks that packages are listed as the library does. -/
def isListing (r : Realm) : Bool :=
  (r.registry.get? classListName).any fun c =>
    ((r.methods c).find? fun m => m.name == "get" && m.params == [stringName]).any lists

/-- Checks that a loader loads classes as the library does. -/
def isLoading (r : Realm) (loader : ObjectId) : Bool :=
  (r.registry.get? loaderName).any fun c =>
    ((r.methods c).find? fun m => m.name == "loadClass" && m.params == [stringName]).any fun m =>
      !m.isStatic && loadsClasses (r.resolveVirtual (r.classIdOf loader) m)

variable {r : Realm}

theorem named_of_isNamed (h : r.isNamed = true) : r.Named := by
  rw [isNamed, Bool.and_eq_true, Bool.and_eq_true] at h
  obtain ⟨⟨coherent, arrays⟩, mirrors⟩ := h
  refine ⟨coherent_of_isCoherent coherent, fun c b component => ?_, fun c o known => ?_⟩
  · have checked := List.all_eq_true.mp arrays c.index (List.mem_range.mpr (has_of_component component))
    rw [component] at checked
    exact beq_iff_eq.mp checked
  · have checked := List.all_eq_true.mp mirrors _ (mem_of_lookup known)
    simpa using checked

theorem listsBy_of_isListing (h : r.isListing = true) : ∃ m, r.ListsBy m := by
  obtain ⟨c, known, h⟩ := (Option.any_eq_true _ _).mp h
  obtain ⟨m, found, h⟩ := (Option.any_eq_true _ _).mp h
  unfold lists at h
  split at h
  · exact ⟨m, c, known, found, h, ‹_›⟩
  · cases h

theorem loadsBy_of_isLoading {loader : ObjectId} (h : r.isLoading loader = true) :
    ∃ m, r.LoadsBy loader m := by
  obtain ⟨c, known, h⟩ := (Option.any_eq_true _ _).mp h
  obtain ⟨m, found, h⟩ := (Option.any_eq_true _ _).mp h
  rw [Bool.and_eq_true, Bool.not_eq_true'] at h
  obtain ⟨virtual, h⟩ := h
  unfold loadsClasses at h
  split at h
  · exact ⟨m, c, known, found, virtual, ‹_›⟩
  · cases h

end Host.Realm

namespace Bridge

variable {ε : Type} {w v : World} {ts : InterpreterId} {link : Link}
  {packages : Option (List String)} {path : String} {e : Option Script.Exception}

/-- Checks that an interpreter can import from the Host, and that nothing is remembered yet. -/
def World.isImporting (w : World) (ts : InterpreterId) (packages : Option (List String)) : Bool :=
  ((w.linkOf ts).any fun link =>
    w.holdsObject link.loader && w.outside.realm.isLoading link.loader &&
      (w.outside.realm.payload link.loader).packages? == some packages) &&
    (w.outside.realm.isNamed && (w.outside.realm.registry.get? Host.stringName).isSome &&
      w.outside.realm.isListing && w.outside.listings.isEmpty && w.outside.loadClass.isNone) &&
    (w.outside.realm.pending.isNone && ts.place < w.memory.interpreters.size &&
      (w.memory.interpreter ts).modules.entries.all fun entry =>
        entry.2.place < w.memory.namespaces.size)

theorem World.importing_of_isImporting (h : w.isImporting ts packages = true) :
    ∃ link, w.Importing ts link packages := by
  simp only [isImporting, Bool.and_eq_true] at h
  obtain ⟨⟨link, host⟩, script⟩ := h
  obtain ⟨⟨⟨⟨named, strings⟩, listing⟩, fresh⟩, unloaded⟩ := host
  obtain ⟨⟨calm, made⟩, placed⟩ := script
  obtain ⟨link, linked, loader⟩ := (Option.any_eq_true _ _).mp link
  simp only [Bool.and_eq_true, holdsObject, decide_eq_true_iff, beq_iff_eq] at loader
  obtain ⟨⟨⟨held, ofClass⟩, loading⟩, spec⟩ := loader
  obtain ⟨m, lists⟩ := Realm.listsBy_of_isListing listing
  obtain ⟨n, loads⟩ := Realm.loadsBy_of_isLoading loading
  have searchable : w.Searchable ts link.loader packages := by
    refine ⟨Realm.named_of_isNamed named, Option.isSome_iff_exists.mp strings, held, ofClass, ?_,
      ⟨m, lists, fun m' remembered => ?_⟩, ⟨n, loads, fun m' remembered => ?_⟩⟩
    · revert spec
      cases w.outside.realm.payload link.loader <;> simp [Host.Payload.packages?]
    · rw [List.isEmpty_iff.mp fresh] at remembered
      cases remembered
    · rw [Option.isNone_iff_eq_none.mp unloaded] at remembered
      cases remembered
  refine ⟨link, linked, searchable, Option.isNone_iff_eq_none.mp calm, of_decide_eq_true made,
    fun path module known => ?_⟩
  exact of_decide_eq_true (List.all_eq_true.mp placed _ (Table.mem_findEntry known))

/-! ### The import entry -/

theorem withError_interpreter (made : ts.place < w.memory.interpreters.size)
    (other : InterpreterId) :
    (w.withError ts fun _ => e).memory.interpreter other =
      if other = ts then { w.memory.interpreter ts with error := e }
      else w.memory.interpreter other :=
  Script.Memory.interpreter_at _ _ ts other made

theorem withError_modules (made : ts.place < w.memory.interpreters.size) (other : InterpreterId) :
    ((w.withError ts fun _ => e).memory.interpreter other).modules =
      (w.memory.interpreter other).modules := by
  rw [withError_interpreter made]
  split
  next same => rw [same]
  · rfl

theorem setError_run (e : Option Script.Exception) :
    (Script.setError ts e : EStateM ε World Unit) w = .ok () (w.withError ts fun _ => e) := rfl

theorem clearError_run :
    (Script.clearError ts : EStateM ε World Unit) (w.withError ts fun _ => e) =
      .ok () (w.withError ts fun _ => none) := by
  have twice : (w.withError ts fun _ => e).withError ts (fun _ => none) =
      w.withError ts fun _ => none := by
    simp only [World.withError, Script.World.onMemory,
      Script.Memory.onInterpreter_onInterpreter, Function.comp_def]
  exact (setError_run none).trans (congrArg _ twice)

/-- The loss of an error does not hinder imports. -/
theorem World.Importing.withError (h : w.Importing ts link packages) :
    (w.withError ts fun _ => e).Importing ts link packages := by
  have record := (withError_interpreter (e := e) h.made ts).trans (if_pos rfl)
  refine ⟨?_, h.searchable.grown (.refl _) rfl rfl (by rw [record]), h.calm, ?_, ?_⟩
  · refine Eq.trans ?_ h.linked
    rw [World.linkOf, World.linkOf, record]
    rfl
  · simpa [World.withError, Script.World.onMemory, Script.Memory.onInterpreter] using h.made
  · intro path module known
    rw [withError_modules h.made] at known
    exact h.placed path module known

/-- What scripts themselves do not resolve is no module of theirs, and none of the runtime. -/
theorem nativeImport_fails_iff :
    (∀ value v, (Script.nativeImport ts path : BridgeM _) w ≠ .ok value v) ↔
      ((w.memory.interpreter ts).modules.get? path).filter (·.origin != .hostPackage) = none ∧
        (w.memory.runtime (w.memory.interpreter ts).runtime).extensions.get? path = none := by
  have interpreter : (Script.getInterpreter ts : BridgeM _) w =
      .ok (w.memory.interpreter ts) w := rfl
  have memory : (Script.getMemory : BridgeM _) w = .ok w.memory w := rfl
  unfold Script.nativeImport
  rw [bind_ok interpreter, bind_ok memory]
  cases own : ((w.memory.interpreter ts).modules.get? path).filter (·.origin != .hostPackage) with
  | some module => exact ⟨fun unknown => absurd rfl (unknown _ _), fun none_own => nomatch none_own.1⟩
  | none =>
    cases shared : (w.memory.runtime (w.memory.interpreter ts).runtime).extensions.get? path with
    | some module =>
      exact ⟨fun unknown => absurd rfl (unknown _ _), fun none_shared => nomatch none_shared.2⟩
    | none =>
      refine ⟨fun _ => ⟨rfl, rfl⟩, fun _ value v => ?_⟩
      exact nofun

/-- A module under the path is then one of a package. -/
theorem packaged_of_unknown (h : w.Importing ts link packages)
    (unknown : ∀ value v, (Script.nativeImport ts path : BridgeM _) w ≠ .ok value v) :
    w.Packaged ts path := by
  intro module known
  have left := (nativeImport_fails_iff.mp unknown).1
  rw [known, Option.filter] at left
  by_cases package : module.origin = .hostPackage
  · exact ⟨package, h.placed path module known⟩
  · rw [if_pos (bne_iff_ne.mpr package)] at left
    cases left

/-- When scripts themselves have no such module, the Host is asked. -/
theorem importEntry_host {bodies : Bodies World} {args : List Script.Value}
    (h : w.Importing ts link packages) (asked : Script.importPath args = .ok path)
    (unknown : ∀ value v, (Script.nativeImport ts path : BridgeM _) w ≠ .ok value v) :
    importEntry bodies ts args w =
      importHostPath bodies ts link.loader path (wantedNames args[3]?) (w.withError ts fun _ => none) := by
  have interpreter : (Script.getInterpreter ts : BridgeM _) w =
      .ok (w.memory.interpreter ts) w := rfl
  have memory : (Script.getMemory : BridgeM _) w = .ok w.memory w := rfl
  obtain ⟨own, shared⟩ := nativeImport_fails_iff.mp unknown
  have told : (Script.orRaise ts (Script.importPath args) : BridgeM String) = pure path := by
    rw [asked]
    rfl
  have failed : (Script.defaultImport ts args : BridgeM _) w =
      .error {} (w.withError ts fun _ => some (unresolved path)) := by
    unfold Script.defaultImport Script.nativeImport
    rw [told, pure_bind, bind_ok interpreter, bind_ok memory]
    simp only [own, shared]
    rfl
  have missing : (Script.errorIsA ts .importing : BridgeM Bool)
      (w.withError ts fun _ => some (unresolved path)) =
        .ok true (w.withError ts fun _ => some (unresolved path)) := by
    have record := (withError_interpreter (e := some (unresolved path)) h.made ts).trans (if_pos rfl)
    have importing : ((w.withError ts fun _ => some (unresolved path)).memory.interpreter ts).error.any
        (·.isA .importing) = true := by
      rw [record]
      rfl
    exact congrArg (EStateM.Result.ok · _) importing
  have linked : (link? ts : BridgeM _) (w.withError ts fun _ => none) =
      .ok (some link) (w.withError ts fun _ => none) :=
    congrArg (EStateM.Result.ok · _) (World.Importing.withError h).linked
  unfold importEntry
  rw [bind_ok (attempt_error failed)]
  simp only
  rw [bind_ok missing, told]
  simp only [Bool.not_true, Bool.false_eq_true, if_false, pure_bind]
  rw [bind_ok clearError_run, bind_ok linked]

/-- The tables of modules do not tell whether an error was pending. -/
theorem Fills.of_withError {names : List String} {module : ModuleRef}
    (made : ts.place < w.memory.interpreters.size)
    (h : Fills ts path packages names (w.withError ts fun _ => e) v module) :
    Fills ts path packages names w v module := by
  have modules := withError_modules (e := e) made ts
  have bindings : (w.withError ts fun _ => e).bindingsOf ts path = w.bindingsOf ts path := by
    rw [World.bindingsOf, World.bindingsOf, modules]
    rfl
  refine
    { registered := h.registered, package := h.package
      before := fun old known => h.before old (modules ▸ known)
      kept := bindings ▸ h.kept, added := bindings ▸ h.added, absent := bindings ▸ h.absent
      others := h.others, table := fun other apart => by rw [h.table other apart, modules]
      interpreters := fun other apart => ?_ }
  rw [h.interpreters other apart, withError_interpreter made, if_neg apart]

/-- What an import from the Host comes to. When the package offers members, the module of the
package is returned, and holds views of them under the names that were free. Otherwise a view of the
class that the path names in its parent package is returned; if there is none, an import error tells
the path, and in both cases no module has changed. No throwable is left, and imports can go on. -/
theorem importEntry_specified (callback : Host.Callback → BodyM World Host.Value)
    (below : Unit → Bodies World) {args : List Script.Value} (h : w.Importing ts link packages)
    (asked : Script.importPath args = .ok path)
    (unknown : ∀ value v, (Script.nativeImport ts path : BridgeM _) w ≠ .ok value v) :
    ∃ v : World, v.outside.realm.pending = none ∧ v.Importing ts link packages ∧
      (offered w.outside.realm packages (askedNames args[3]?) path ≠ [] →
        ∃ module, importEntry (.over callback below) ts args w = .ok (.module module) v ∧
          Fills ts path packages (askedNames args[3]?) w v module) ∧
      (offered w.outside.realm packages (askedNames args[3]?) path = [] →
        ∀ t, listedAlone w.outside.realm packages path = some t →
          ∃ value, importEntry (.over callback below) ts args w = .ok value v ∧
            v.ShowsClass value t ∧ ModulesKept w v) ∧
      (offered w.outside.realm packages (askedNames args[3]?) path = [] →
        listedAlone w.outside.realm packages path = none →
          importEntry (.over callback below) ts args w = .error {} v ∧
            (∃ e, (v.memory.interpreter ts).error = some e ∧ e.isA .importing = true ∧
              e.detail = some (.importPath path)) ∧ ModulesKept w v) := by
  rw [importEntry_host h asked unknown]
  have cleared := World.Importing.withError (e := none) h
  by_cases nothing : offered w.outside.realm packages (askedNames args[3]?) path = []
  · cases alone : listedAlone w.outside.realm packages path with
    | some t =>
      obtain ⟨value, v, ran, shows, memory, importing⟩ :=
        importHostPath_alone callback below cleared nothing alone
      refine ⟨v, importing.calm, importing, fun some_offered => absurd nothing some_offered,
        fun _ t' same => ⟨value, ran, ?_, ?_⟩, fun _ none_alone => (by cases none_alone)⟩
      · exact Option.some.inj same ▸ shows
      · exact ⟨congrArg (·.namespaces) memory,
          fun other => by rw [memory, withError_modules h.made], congrArg (·.runtimes) memory⟩
    | none =>
      obtain ⟨v, ran, memory, importing⟩ :=
        importHostPath_unresolved callback below cleared nothing alone
      have raised : (Script.raiseException ts (unresolved path) : BridgeM Script.Value) v =
          .error {} (v.withError ts fun _ => some (unresolved path)) :=
        bind_ok (setError_run (some (unresolved path)))
      have again := World.Importing.withError (e := some (unresolved path)) importing
      have record := withError_interpreter (e := some (unresolved path)) importing.made ts
      refine ⟨v.withError ts fun _ => some (unresolved path), again.calm, again,
        fun some_offered => absurd nothing some_offered, fun _ t some_alone => (by cases some_alone),
        fun _ _ => ⟨ran.trans raised, ⟨unresolved path, ?_, rfl, rfl⟩, ?_⟩⟩
      · rw [record, if_pos rfl]
      · refine ⟨congrArg (·.namespaces) memory, fun other => ?_, congrArg (·.runtimes) memory⟩
        rw [withError_modules importing.made, memory, withError_modules h.made]
  · have packaged : (w.withError ts fun _ => none).Packaged ts path := by
      intro module known
      rw [withError_modules h.made] at known
      exact packaged_of_unknown h unknown module known
    obtain ⟨module, v, ran, fills, importing⟩ :=
      importHostPath_fills callback below cleared packaged nothing
    exact ⟨v, importing.calm, importing, fun _ => ⟨module, ran, .of_withError h.made fills⟩,
      fun none_offered => absurd none_offered nothing, fun none_offered => absurd none_offered nothing⟩

/-- Checks that an interpreter has no module for a path, and that its package offers a class. -/
def World.isOffering (w : World) (ts : InterpreterId) (path simple member : String) : Bool :=
  w.isImporting ts none && ((w.memory.interpreter ts).modules.get? path).isNone &&
    ((w.memory.runtime (w.memory.interpreter ts).runtime).extensions.get? path).isNone &&
    (offered w.outside.realm none [] path).find? (Host.simpleName · == simple) == some member

theorem opened_offering :
    World.opened.isOffering ⟨0⟩ "java.util" "HashMap" "java.util.HashMap" = true := by
  decide +kernel

/-- What a script without a module for a path finds in the module of the package. -/
theorem offering_unfolds {ts : InterpreterId} {path simple member : String}
    (h : w.isOffering ts path simple member = true) :
    (∃ link, w.Importing ts link none) ∧
      (∀ value v, (Script.nativeImport ts path : BridgeM _) w ≠ .ok value v) ∧
      (w.bindingsOf ts path).get? simple = none ∧
      (offered w.outside.realm none [] path).find? (Host.simpleName · == simple) = some member := by
  rw [World.isOffering, Bool.and_eq_true, Bool.and_eq_true, Bool.and_eq_true,
    Option.isNone_iff_eq_none, Option.isNone_iff_eq_none, beq_iff_eq] at h
  obtain ⟨⟨⟨importing, own⟩, shared⟩, first⟩ := h
  refine ⟨World.importing_of_isImporting importing, nativeImport_fails_iff.mpr ⟨?_, shared⟩, ?_, first⟩
  · rw [own]
    rfl
  · rw [World.bindingsOf, own]
    rfl

/-- A script imports a package of the library and finds a class in it. -/
theorem package_found : ∃ (v : World) (module : ModuleRef) (value : Script.Value) (t : ClassId × Nat),
    importEntry (Context.machine 1).bodies ⟨0⟩ [.text "java.util"] World.opened =
      .ok (.module module) v ∧
    (v.memory.namespaceOf module).get? "HashMap" = some value ∧ v.ShowsClass value t ∧
    World.opened.outside.realm.loads none "java.util.HashMap" = some t := by
  obtain ⟨⟨link, importing⟩, unknown, free, first⟩ := offering_unfolds opened_offering
  generalize World.opened = w at *
  have asked : Script.importPath [.text "java.util"] = .ok "java.util" := rfl
  obtain ⟨v, -, -, fills, -, -⟩ := importEntry_specified
    (fun request => Context.callback Context.noMachine request) (fun _ => Context.noMachine.bodies)
    importing asked unknown
  obtain ⟨module, ran, filled⟩ := fills fun nothing => by
    rw [show offered w.outside.realm none [] "java.util" = [] from nothing] at first
    cases first
  obtain ⟨value, t, held, shows, loaded⟩ := filled.added "HashMap" _ free first
  exact ⟨v, module, value, t, ran, held, shows, loaded⟩

end Bridge
end ScriptBridge
