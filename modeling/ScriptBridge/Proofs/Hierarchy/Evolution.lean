import ScriptBridge.Host.Declaration
import ScriptBridge.Proofs.Conversions.Stock

/-!
# How hierarchies come about

A Host starts with the class library. From then on classes are made over classes that are there,
classes are registered under their names, and array classes are made when they are asked for. What
holds of the hierarchy of every Host follows from these steps. Declaring a class consists of them.
-/

namespace ScriptBridge.Host

variable {r v u : Realm} {c b : ClassId} {cls : Class}

/-! ### Steps -/

/-- A class that can be made: a concrete class or an interface over classes that are there, with
methods that can be called. -/
structure Class.Founded (r : Realm) (cls : Class) : Prop where
  kind : cls.kind = .concrete ∨ cls.kind = .interface
  superclass : ∀ s ∈ cls.superclass, r.Has s
  interfaces : ∀ i ∈ cls.interfaces, r.Has i
  callable : ∀ m ∈ cls.methods, m.isConstructor = false

/-- The realm may become the other one, as far as its classes go. -/
inductive Realm.Evolves (r : Realm) : Realm → Prop where
  | here : Evolves r r
  | made {v : Realm} {cls : Class} : Evolves r v → cls.Founded v →
    Evolves r (Realm.allocateClass cls v).2
  | registered {v : Realm} {c : ClassId} : Evolves r v → v.Has c →
    Evolves r (Realm.register c v).2
  | array {v : Realm} {b : ClassId} : Evolves r v → v.Has b → Evolves r (Realm.arrayClass b v).2
  /-- Something else happens: objects, static fields, references or the pending throwable change. -/
  | elsewhere {v u : Realm} : Evolves r v → u.classes = v.classes → u.arrays = v.arrays →
    u.registry = v.registry → Evolves r u

namespace Realm

theorem Evolves.trans (h : r.Evolves v) (h' : v.Evolves u) : r.Evolves u := by
  induction h' with
  | here => exact h
  | made _ founded ih => exact .made ih founded
  | registered _ has ih => exact .registered ih has
  | array _ has ih => exact .array ih has
  | elsewhere _ classes arrays registry ih => exact .elsewhere ih classes arrays registry

/-! ### What holds of every hierarchy -/

/-- Classes come after the classes that they build on, a name leads to a class of that name, and
array classes stand below the top class and have no members. -/
structure Ranked (r : Realm) : Prop extends r.Coherent where
  superclass_lt : ∀ c s, (r.classOf c).superclass = some s → s.index < c.index
  interface_lt : ∀ c, ∀ i ∈ (r.classOf c).interfaces, i.index < c.index
  known : ∀ name c, r.registry.get? name = some c → r.nameOf c = name
  top : ∃ c, r.registry.get? objectName = some c
  array_interfaces : ∀ c, (r.classOf c).isArray = true → (r.classOf c).interfaces = []
  array_superclass : ∀ c, (r.classOf c).isArray = true →
    ∃ s, (r.classOf c).superclass = some s ∧ r.nameOf s = objectName
  primitive : ∀ c, (r.classOf c).isPrimitive = true →
    (r.classOf c).superclass = none ∧ (r.classOf c).interfaces = []
  callable : ∀ c, ∀ m ∈ (r.classOf c).methods, m.isConstructor = false

/-- A class that exists builds on classes that exist. -/
theorem Ranked.has_superclass (ranked : r.Ranked) {s : ClassId} (has : r.Has c)
    (h : (r.classOf c).superclass = some s) : r.Has s :=
  Nat.lt_trans (ranked.superclass_lt c s h) has

end Realm

theorem Class.Founded.not_array (founded : cls.Founded r) : cls.component? = none := by
  rcases founded.kind with kind | kind <;> simp [Class.component?, kind]

theorem Class.Founded.not_primitive (founded : cls.Founded r) : cls.isPrimitive = false := by
  rcases founded.kind with kind | kind <;> simp [Class.isPrimitive, kind]

namespace Realm

theorem coherent_made (coherent : r.Coherent) (founded : cls.Founded r) :
    (Realm.allocateClass cls r).2.Coherent := by
  have pushed : (Realm.allocateClass cls r).2.classes = r.classes.push cls := rfl
  have kept := (includes_pushed pushed).kept
  refine ⟨fun name c found => kept c (coherent.registered name c found), ?_, ?_, ?_, ?_⟩
  · exact classOf_pushed pushed (P := fun _ d => ∀ i ∈ d.interfaces, Realm.Has _ i)
      (fun c i hi => kept i (coherent.interfaces c i hi)) fun i hi => kept i (founded.interfaces i hi)
  · refine classOf_pushed pushed (P := fun c d => ∀ b, d.component? = some b →
      b.index < c.index ∧ r.arrays.lookup b = some c) coherent.component fun b hb => ?_
    rw [founded.not_array] at hb
    cases hb
  · intro b c found
    have component := coherent.array b c found
    rwa [classOf_pushed_old pushed (has_of_component component)]
  · have named : ∀ c, ((Realm.allocateClass cls r).2.classOf c).isArray = true →
        ((Realm.allocateClass cls r).2.classOf c).name ≠ objectName := by
      refine classOf_pushed pushed (P := fun _ d => d.isArray = true → d.name ≠ objectName)
        coherent.named fun array => ?_
      rw [Class.isArray, founded.not_array] at array
      cases array
    exact named

theorem has_of_isArray (array : (r.classOf c).isArray = true) : r.Has c := by
  obtain ⟨b, component⟩ := Option.isSome_iff_exists.mp array
  exact has_of_component component

theorem Ranked.made (ranked : r.Ranked) (founded : cls.Founded r) :
    (Realm.allocateClass cls r).2.Ranked := by
  have pushed : (Realm.allocateClass cls r).2.classes = r.classes.push cls := rfl
  have includes := includes_pushed pushed
  have no_array : ¬cls.isArray = true := by
    rw [Class.isArray, founded.not_array]
    exact Bool.false_ne_true
  refine ⟨coherent_made ranked.toCoherent founded, ?_, ?_, fun name c found => ?_, ranked.top,
    ?_, fun c array => ?_, ?_, ?_⟩
  · exact classOf_pushed pushed (P := fun c d => ∀ s, d.superclass = some s → s.index < c.index)
      ranked.superclass_lt founded.superclass
  · exact classOf_pushed pushed (P := fun c d => ∀ i ∈ d.interfaces, i.index < c.index)
      ranked.interface_lt founded.interfaces
  · rw [nameOf, includes.classes c (ranked.registered name c found)]
    exact ranked.known name c found
  · exact classOf_pushed pushed (P := fun _ d => d.isArray = true → d.interfaces = [])
      ranked.array_interfaces fun array => absurd array no_array
  · have old : r.Has c := by
      rcases (has_pushed pushed).mp (has_of_isArray array) with has | rfl
      · exact has
      · rw [classOf_pushed_new pushed] at array
        exact absurd array no_array
    rw [classOf_pushed_old pushed old] at array ⊢
    obtain ⟨s, parent, named⟩ := ranked.array_superclass c array
    refine ⟨s, parent, ?_⟩
    rwa [nameOf, includes.classes s (ranked.has_superclass old parent)]
  · refine classOf_pushed pushed (P := fun _ d => d.isPrimitive = true →
      d.superclass = none ∧ d.interfaces = []) ranked.primitive fun primitive => ?_
    rw [founded.not_primitive] at primitive
    cases primitive
  · exact classOf_pushed pushed (P := fun _ d => ∀ m ∈ d.methods, m.isConstructor = false)
      ranked.callable founded.callable

/-- The top class that the realm knows is called so and exists. -/
theorem Ranked.require_top (ranked : r.Ranked) :
    r.Has (r.require objectName) ∧ r.nameOf (r.require objectName) = objectName := by
  obtain ⟨c, found⟩ := ranked.top
  rw [require, found, Option.getD_some]
  exact ⟨ranked.registered _ c found, ranked.known _ c found⟩

theorem Ranked.withArray (ranked : r.Ranked) (has : r.Has b) (fresh : r.arrays.lookup b = none) :
    (r.withArray b).Ranked := by
  have pushed : (r.withArray b).classes = r.classes.push (r.arrayOf b) := rfl
  have includes := includes_pushed pushed
  obtain ⟨top, named⟩ := ranked.require_top
  refine ⟨withArray_coherent ranked.toCoherent has fresh, ?_, ?_, fun name c found => ?_,
    ranked.top, ?_, fun c array => ?_, ?_, ?_⟩
  · refine classOf_pushed pushed (P := fun c d => ∀ s, d.superclass = some s → s.index < c.index)
      ranked.superclass_lt fun s parent => ?_
    cases parent
    exact top
  · exact classOf_pushed pushed (P := fun c d => ∀ i ∈ d.interfaces, i.index < c.index)
      ranked.interface_lt fun _ listed => absurd listed List.not_mem_nil
  · rw [nameOf, includes.classes c (ranked.registered name c found)]
    exact ranked.known name c found
  · exact classOf_pushed pushed (P := fun _ d => d.isArray = true → d.interfaces = [])
      ranked.array_interfaces fun _ => rfl
  · rcases (has_pushed pushed).mp (has_of_isArray array) with old | rfl
    · rw [classOf_pushed_old pushed old] at array ⊢
      obtain ⟨s, parent, named⟩ := ranked.array_superclass c array
      refine ⟨s, parent, ?_⟩
      rwa [nameOf, includes.classes s (ranked.has_superclass old parent)]
    · rw [classOf_pushed_new pushed]
      refine ⟨r.require objectName, rfl, ?_⟩
      rwa [nameOf, includes.classes _ top]
  · exact classOf_pushed pushed (P := fun _ d => d.isPrimitive = true →
      d.superclass = none ∧ d.interfaces = []) ranked.primitive
      fun primitive => absurd primitive Bool.false_ne_true
  · exact classOf_pushed pushed (P := fun _ d => ∀ m ∈ d.methods, m.isConstructor = false)
      ranked.callable fun _ listed => absurd listed List.not_mem_nil

/-- Registering a class puts it under its name. -/
theorem register_registry (c : ClassId) (r : Realm) :
    (Realm.register c r).2.classes = r.classes ∧ (Realm.register c r).2.arrays = r.arrays ∧
      (Realm.register c r).2.registry = r.registry.insert (r.nameOf c) c := by
  simp only [Realm.register, Bind.bind, StateT.bind, MonadState.get, getThe, MonadStateOf.get,
    StateT.get, Pure.pure]
  cases (r.classOf c).isPrimitive <;> cases packageName? (r.classOf c).name <;>
    exact ⟨rfl, rfl, rfl⟩

/-- The hierarchy is as before, except for what names lead to. -/
theorem Ranked.of_classes (ranked : r.Ranked) (classes : v.classes = r.classes)
    (arrays : v.arrays = r.arrays)
    (known : ∀ name c, v.registry.get? name = some c → r.Has c ∧ r.nameOf c = name)
    (top : ∃ c, v.registry.get? objectName = some c) : v.Ranked := by
  have same : v.classOf = r.classOf := by
    funext c
    simp only [classOf, classes]
  have has : v.Has = r.Has := by
    funext c
    simp only [Has, classes]
  have names : v.nameOf = r.nameOf := by
    funext c
    simp only [nameOf, same]
  have coherent : v.Coherent := by
    refine ⟨fun name c found => has ▸ (known name c found).1, ?_, ?_, ?_, ?_⟩
    · rw [same, has]
      exact ranked.interfaces
    · rw [same, arrays]
      exact ranked.component
    · rw [same, arrays]
      exact ranked.array
    · rw [same, names]
      exact ranked.named
  refine ⟨coherent, ?_, ?_, fun name c found => names ▸ (known name c found).2, top, ?_, ?_, ?_, ?_⟩
  · exact same ▸ ranked.superclass_lt
  · exact same ▸ ranked.interface_lt
  · exact same ▸ ranked.array_interfaces
  · rw [same, names]
    exact ranked.array_superclass
  · exact same ▸ ranked.primitive
  · exact same ▸ ranked.callable

theorem Ranked.register (ranked : r.Ranked) (has : r.Has c) : (Realm.register c r).2.Ranked := by
  obtain ⟨classes, arrays, registry⟩ := register_registry c r
  refine ranked.of_classes classes arrays (fun name d found => ?_) ?_
  · rw [registry, Table.get?_insert] at found
    split at found
    · rename_i same
      cases found
      exact ⟨has, same⟩
    · exact ⟨ranked.registered name d found, ranked.known name d found⟩
  · obtain ⟨top, found⟩ := ranked.top
    rw [registry, Table.get?_insert]
    split
    · exact ⟨c, rfl⟩
    · exact ⟨top, found⟩

/-- Whatever a realm becomes, its hierarchy stays in order and its classes stay what they are. -/
theorem Evolves.ranked (h : r.Evolves v) (ranked : r.Ranked) : v.Ranked := by
  induction h with
  | here => exact ranked
  | made _ founded ih => exact ih.made founded
  | registered _ has ih => exact ih.register has
  | @array v b _ has ih =>
    cases known : v.arrays.lookup b with
    | some c => rwa [arrayClass_known known]
    | none =>
      rw [arrayClass_new known]
      exact ih.withArray has known
  | elsewhere _ classes arrays registry ih =>
    exact ih.of_classes classes arrays
      (fun name c found => by
        rw [registry] at found
        exact ⟨ih.registered name c found, ih.known name c found⟩)
      (registry ▸ ih.top)

theorem Evolves.includes (h : r.Evolves v) : r.Includes v := by
  have same : ∀ {v u : Realm}, r.Includes v → u.classes = v.classes → r.Includes u := by
    intro v u includes classes
    have has : u.Has = v.Has := by
      funext c
      simp only [Has, classes]
    have of : u.classOf = v.classOf := by
      funext c
      simp only [classOf, classes]
    exact ⟨has ▸ includes.kept, of ▸ includes.classes⟩
  have more : ∀ {v u : Realm} {cls : Class}, r.Includes v → u.classes = v.classes.push cls →
      r.Includes u := fun includes pushed =>
    let later := includes_pushed pushed
    ⟨fun c has => later.kept c (includes.kept c has),
      fun c has => (later.classes c (includes.kept c has)).trans (includes.classes c has)⟩
  induction h with
  | here => exact ⟨fun _ has => has, fun _ _ => rfl⟩
  | made _ _ ih => exact more ih rfl
  | registered _ _ ih => exact same ih (register_registry _ _).1
  | @array v b _ _ ih =>
    cases known : v.arrays.lookup b with
    | some c => rwa [arrayClass_known known]
    | none =>
      rw [arrayClass_new known]
      exact more ih rfl
  | elsewhere _ classes _ _ ih => exact same ih classes

/-! ### Checking -/

/-- Checks what a class says of others. -/
def rankChecks (r : Realm) (c : ClassId) : Bool :=
  let cls := r.classOf c
  (cls.superclass.all fun s => decide (s.index < c.index)) &&
    (cls.interfaces.all fun i => decide (i.index < c.index)) &&
    (!cls.isArray || cls.interfaces.isEmpty && cls.superclass.any fun s => r.nameOf s == objectName) &&
    (!cls.isPrimitive || cls.superclass.isNone && cls.interfaces.isEmpty) &&
    cls.methods.all fun m => !m.isConstructor

/-- Checks that a hierarchy is in order. -/
def isRanked (r : Realm) : Bool :=
  ((List.range r.classes.size).all fun i => r.rankChecks ⟨i⟩) &&
    (r.registry.entries.all fun entry => r.nameOf entry.2 == entry.1) &&
    (r.registry.get? objectName).isSome

theorem rankChecks_of_isRanked (h : r.isRanked = true) (c : ClassId) : r.rankChecks c = true := by
  by_cases has : r.Has c
  · rw [isRanked, Bool.and_eq_true, Bool.and_eq_true] at h
    exact List.all_eq_true.mp h.1.1 c.index (List.mem_range.mpr has)
  · rw [rankChecks, classOf_missing has]
    rfl

theorem ranked_of_isRanked (coherent : r.Coherent) (h : r.isRanked = true) : r.Ranked := by
  have classes := rankChecks_of_isRanked h
  simp only [rankChecks, Bool.and_eq_true, Bool.or_eq_true, Bool.not_eq_true',
    ← Bool.not_eq_true] at classes
  rw [isRanked, Bool.and_eq_true, Bool.and_eq_true] at h
  obtain ⟨⟨-, known⟩, top⟩ := h
  refine ⟨coherent, fun c s parent => ?_, fun c i implemented => ?_, fun name c found => ?_,
    Option.isSome_iff_exists.mp top, fun c array => ?_, fun c array => ?_, fun c primitive => ?_,
    fun c m declared => ?_⟩
  · exact of_decide_eq_true ((Option.all_eq_true _ _).mp (classes c).1.1.1.1 s parent)
  · exact of_decide_eq_true (List.all_eq_true.mp (classes c).1.1.1.2 i implemented)
  · exact beq_iff_eq.mp (List.all_eq_true.mp known _ (Table.mem_findEntry found))
  · exact List.isEmpty_iff.mp ((classes c).1.1.2.resolve_left (absurd array)).1
  · obtain ⟨s, parent, named⟩ :=
      (Option.any_eq_true _ _).mp ((classes c).1.1.2.resolve_left (absurd array)).2
    exact ⟨s, parent, beq_iff_eq.mp named⟩
  · obtain ⟨parent, interfaces⟩ := (classes c).1.2.resolve_left (absurd primitive)
    exact ⟨Option.isNone_iff_eq_none.mp parent, List.isEmpty_iff.mp interfaces⟩
  · exact (Bool.not_eq_true' _).mp (List.all_eq_true.mp (classes c).2 m declared)

theorem standard_ranked : Realm.standard.Ranked :=
  ranked_of_isRanked Bridge.standard_stocked.coherent (by decide +kernel)

end Realm
end ScriptBridge.Host

/-! ## Declaring classes

Declaring a class finds the classes that it builds on, makes it, makes the values of its static
fields and registers it. However that ends, the hierarchy has come about by the steps by which
hierarchies do.
-/

namespace ScriptBridge.Host

open Bridge (World)

variable {ε α β : Type} {r v : Realm} {c b : ClassId} {w : World} {P : α → World → Prop}
  {Q : β → World → Prop}

/-! ### Steps of the Host -/

/-- However the step ends, the Host has evolved; what it gives is as described. -/
def Evolving (w : World) (step : EStateM ε World α) (P : α → World → Prop) : Prop :=
  match step w with
  | .ok a v => w.outside.realm.Evolves v.outside.realm ∧ P a v
  | .error _ v => w.outside.realm.Evolves v.outside.realm

namespace Evolving

theorem pure {a : α} (given : P a w) : Evolving w (Pure.pure a : EStateM ε World α) P :=
  ⟨.here, given⟩

theorem throw (e : ε) : Evolving w (MonadExcept.throw e : EStateM ε World α) P := .here

theorem bind {step : EStateM ε World α} {next : α → EStateM ε World β} (h : Evolving w step P)
    (h' : ∀ a v, w.outside.realm.Evolves v.outside.realm → P a v → Evolving v (next a) Q) :
    Evolving w (step >>= next) Q := by
  unfold Evolving at h
  cases ended : step w with
  | error e v =>
    rw [ended] at h
    simpa only [Evolving, bind_error ended] using h
  | ok a v =>
    rw [ended] at h
    have rest := h' a v h.1 h.2
    unfold Evolving at rest ⊢
    rw [bind_ok ended]
    cases last : next a v with
    | error e u =>
      rw [last] at rest
      exact h.1.trans rest
    | ok b u =>
      rw [last] at rest
      exact ⟨h.1.trans rest.1, rest.2⟩

/-- What comes after a step that always fails does not matter. -/
theorem abort {step : EStateM ε World α} {next : α → EStateM ε World β}
    (h : Evolving w step fun _ _ => False) : Evolving w (step >>= next) Q :=
  .bind h fun _ _ _ never => never.elim

theorem onRealm {step : StateM Realm α} (h : w.outside.realm.Evolves (step w.outside.realm).2)
    (given : P (step w.outside.realm).1 (w.onRealm (step w.outside.realm).2)) :
    Evolving w (Host.onRealm step : EStateM ε World α) P := ⟨h, given⟩

theorem read {next : Realm → EStateM ε World α} (h : Evolving w (next w.outside.realm) P) :
    Evolving w (Host.getRealm >>= next) P := h

/-- A step on the realm comes first. -/
theorem step {first : StateM Realm α} {next : α → EStateM ε World β}
    (h : w.outside.realm.Evolves (first w.outside.realm).2)
    (h' : ∀ v, w.outside.realm.Evolves v.outside.realm → v.outside.realm =
      (first w.outside.realm).2 → Evolving v (next (first w.outside.realm).1) Q) :
    Evolving w (Host.onRealm first >>= next) Q :=
  .bind (P := fun a v => a = (first w.outside.realm).1 ∧ v.outside.realm =
    (first w.outside.realm).2) (.onRealm h ⟨rfl, rfl⟩) fun _ v later ⟨given, realm⟩ =>
      given ▸ h' v later realm

end Evolving

/-! ### Finding classes -/

namespace Realm

/-- Nothing but objects and what is kept beside the classes changes. -/
theorem Evolves.of_same (classes : v.classes = r.classes) (arrays : v.arrays = r.arrays)
    (registry : v.registry = r.registry) : r.Evolves v := .elsewhere .here classes arrays registry

theorem arrayClass_has (ranked : r.Ranked) (has : r.Has b) :
    (arrayClass b r).2.Has (arrayClass b r).1 := by
  obtain ⟨c, v, made, -, exists_c, -⟩ := arrayClass_grows ranked.toCoherent has
  rwa [made]

/-- By induction on the brackets at the end of the name: each asks for an array class. -/
theorem lookupReversed?_evolves (ranked : r.Ranked) (name : List Char) :
    r.Evolves (lookupReversed? name r).2 ∧
      ∀ c ∈ (lookupReversed? name r).1, (lookupReversed? name r).2.Has c := by
  induction name using Realm.typeReversed?.induct with
  | case1 rest ih =>
    simp only [lookupReversed?, Bind.bind, StateT.bind]
    generalize lookupReversed? rest r = looked at ih ⊢
    obtain ⟨found, v⟩ := looked
    obtain ⟨evolves, has⟩ := ih
    cases found with
    | none => exact ⟨evolves, fun c found => absurd found (Option.not_mem_none c)⟩
    | some b =>
      refine ⟨.array evolves (has b rfl), ?_⟩
      rintro _ ⟨⟩
      exact arrayClass_has (evolves.ranked ranked) (has b rfl)
  | case2 name plain =>
    rw [lookupReversed?_plain plain]
    exact ⟨.here, fun c found => ranked.registered _ c found⟩

theorem lookupClass?_evolves (ranked : r.Ranked) (name : String) :
    r.Evolves (lookupClass? name r).2 ∧
      ∀ c ∈ (lookupClass? name r).1, (lookupClass? name r).2.Has c :=
  lookupReversed?_evolves ranked _

theorem allocate_evolves (c : ClassId) (payload : Payload) (r : Realm) :
    r.Evolves (allocate c payload r).2 := .of_same rfl rfl rfl

theorem newThrowable_evolves (ranked : r.Ranked) (name : String) (message : Option String)
    (cause : Option ObjectId) : r.Evolves (newThrowable name message cause r).2 :=
  (lookupClass?_evolves ranked name).1.trans (.of_same rfl rfl rfl)

theorem newBoxed?_evolves (value : Value) (r : Realm) : r.Evolves (newBoxed? value r).2 := by
  unfold newBoxed?
  cases value.primitive? with
  | some p => exact .of_same rfl rfl rfl
  | none => exact .here

theorem mirror_evolves (c : ClassId) (r : Realm) : r.Evolves (mirror c r).2 := by
  simp only [mirror, Bind.bind, StateT.bind, MonadState.get, getThe, MonadStateOf.get, StateT.get,
    Pure.pure]
  cases r.mirrors.lookup c with
  | some o => exact .here
  | none => exact .of_same rfl rfl rfl

end Realm

namespace Evolving

variable {bodies : Bodies World}

theorem throwNew (ranked : w.outside.realm.Ranked) (name : String) (message : Option String) :
    Evolving w (Host.throwNew name message : HostM World α) P :=
  .step (Realm.newThrowable_evolves ranked name message none) fun _ _ _ =>
    .step (.of_same rfl rfl rfl) fun _ _ _ => .throw _

/-- A class that is found exists. -/
theorem findClass (ranked : w.outside.realm.Ranked) (name : String) :
    Evolving w (Host.findClass name) fun c v => v.outside.realm.Has c := by
  obtain ⟨evolves, has⟩ := Realm.lookupClass?_evolves ranked name
  refine .step evolves fun v later realm => ?_
  cases found : (Realm.lookupClass? name w.outside.realm).1 with
  | some c =>
    refine .pure ?_
    rw [realm]
    exact has c found
  | none => exact throwNew (later.ranked ranked) _ _

theorem findClasses (ranked : w.outside.realm.Ranked) (names : List String) :
    Evolving w (Host.findClasses names) fun classes v => ∀ c ∈ classes, v.outside.realm.Has c := by
  induction names generalizing w with
  | nil => exact .pure nofun
  | cons name rest ih =>
    refine .bind (findClass ranked name) fun c v later has => ?_
    refine .bind (ih (later.ranked ranked)) fun classes u further hold => .pure ?_
    rintro d (_ | ⟨_, mem⟩)
    · exact further.includes.kept c has
    · exact hold d mem

theorem getConstructor (ranked : w.outside.realm.Ranked) (c : ClassId) (params : List String) :
    Evolving w (Host.getConstructor c params) fun _ _ => True := by
  refine .read ?_
  unfold Host.findMember
  split
  · exact .pure trivial
  · exact .read (throwNew ranked _ _)

/-- A body that fails leaves a throwable behind. -/
theorem running {body : BodyM World α} (ranked : w.outside.realm.Ranked)
    (h : Evolving w body fun _ _ => True) : Evolving w (Host.running body) fun _ _ => True := by
  unfold Evolving at h
  unfold Evolving Host.running
  cases ended : body w with
  | ok a v =>
    rw [ended] at h
    exact h
  | error failure v =>
    rw [ended] at h
    have raised : Evolving v (Host.raise failure : HostM World α) fun _ _ => True := by
      cases failure with
      | new name message => exact throwNew (h.ranked ranked) name message
      | object throwable => exact .step (.of_same rfl rfl rfl) fun _ _ _ => .throw _
      | pending =>
        refine .read ?_
        split
        · exact .throw _
        · exact throwNew (h.ranked ranked) _ _
    unfold Evolving at raised
    dsimp only
    cases last : (Host.raise failure : HostM World α) v with
    | ok a u =>
      rw [last] at raised
      exact ⟨h.trans raised.1, trivial⟩
    | error e u =>
      rw [last] at raised
      exact h.trans raised

end Evolving

/-! ### Making values -/

/-- Whatever constructors do, hierarchies come about by their steps. -/
def Bodies.Constructs (bodies : Bodies World) : Prop :=
  ∀ (w : World) construction c args, w.outside.realm.Ranked →
    Evolving w (bodies.construct construction c args) fun _ _ => True

namespace Evolving

variable {bodies : Bodies World}

theorem newObject (constructs : bodies.Constructs) (ranked : w.outside.realm.Ranked)
    (c : ClassId) (constructor : Method) (args : List Value) :
    Evolving w (Host.newObject bodies c constructor args) fun _ _ => True := by
  unfold Host.newObject
  refine .read ?_
  dsimp only
  split
  · exact .abort (throwNew ranked _ _)
  split
  · exact .abort (throwNew ranked _ _)
  cases constructor.body with
  | inl => exact throwNew ranked _ _
  | inr construction =>
    exact .bind (running ranked (constructs w construction c args ranked)) fun _ _ _ _ =>
      .onRealm (.of_same rfl rfl rfl) trivial

mutual

theorem make (constructs : bodies.Constructs) : ∀ (recipe : Recipe) {w : World},
    w.outside.realm.Ranked → Evolving w (recipe.make bodies) fun _ _ => True
  | .plain _, _, _ => .pure trivial
  | .string _, _, _ => .step (.of_same rfl rfl rfl) fun _ _ _ => .pure trivial
  | .boxed recipe, _, ranked => .bind (make constructs recipe ranked) fun _ _ _ _ =>
    .step (Realm.newBoxed?_evolves _ _) fun _ _ _ => .pure trivial
  | .array _ items, _, ranked => .bind (makeAll constructs items ranked) fun _ _ later _ =>
    .bind (findClass (later.ranked ranked) _) fun _ _ _ has =>
      .step ((Realm.Evolves.array .here has).trans (.of_same rfl rfl rfl)) fun _ _ _ =>
        .pure trivial
  | .mirror _, _, ranked => .bind (findClass ranked _) fun _ _ _ _ =>
    .step (Realm.mirror_evolves _ _) fun _ _ _ => .pure trivial
  | .throwable _ _ none, _, ranked => .step (Realm.newThrowable_evolves ranked _ _ _) fun _ _ _ =>
    .pure trivial
  | .throwable _ _ (some cause), _, ranked => .bind (make constructs cause ranked)
    fun _ _ later _ => .step (Realm.newThrowable_evolves (later.ranked ranked) _ _ _) fun _ _ _ =>
      .pure trivial
  | .object _ _ args, _, ranked => .bind (findClass ranked _) fun _ _ found _ =>
    .bind (getConstructor (found.ranked ranked) _ _) fun _ _ chosen _ =>
      .bind (makeAll constructs args (chosen.ranked (found.ranked ranked))) fun _ _ made _ =>
        .bind (newObject constructs (made.ranked (chosen.ranked (found.ranked ranked))) _ _ _)
          fun _ _ _ _ => .pure trivial
  | .loader _, _, _ => .step (.of_same rfl rfl rfl) fun _ _ _ => .pure trivial
  | .named _, _, _ => .read (.pure trivial)

theorem makeAll (constructs : bodies.Constructs) : ∀ (recipes : List Recipe) {w : World},
    w.outside.realm.Ranked → Evolving w (Recipe.makeAll bodies recipes) fun _ _ => True
  | [], _, _ => .pure trivial
  | recipe :: rest, _, ranked => .bind (make constructs recipe ranked) fun _ _ later _ =>
    .bind (makeAll constructs rest (later.ranked ranked)) fun _ _ _ _ => .pure trivial

end

theorem makeStatics (constructs : bodies.Constructs) (c : ClassId) (fields : List FieldDeclaration)
    (ranked : w.outside.realm.Ranked) (place : Nat) :
    Evolving w (Declaration.makeStatics bodies c place fields) fun _ _ => True := by
  induction fields generalizing w place with
  | nil => exact .pure trivial
  | cons field rest ih =>
    unfold Declaration.makeStatics
    cases field.value with
    | none => exact ih ranked _
    | some recipe =>
      exact .bind (make constructs recipe ranked) fun _ _ later _ =>
        .step (.of_same rfl rfl rfl) fun _ further _ =>
          ih (further.ranked (later.ranked ranked)) _

end Evolving

/-- The superclass that a declaration names, if it names one, exists once it is found. -/
theorem superclass_evolving (ranked : w.outside.realm.Ranked) (name : Option String) :
    Evolving w (name.mapM Host.findClass : HostM World (Option ClassId)) fun found v =>
      ∀ s ∈ found, v.outside.realm.Has s := by
  cases name with
  | none => exact .pure nofun
  | some name =>
    refine .bind (.findClass ranked name) fun c v _ has => .pure ?_
    rintro _ ⟨⟩
    exact has

/-- Declaring a class takes steps by which hierarchies come about. -/
theorem Declaration.declare_evolving {bodies : Bodies World} (constructs : bodies.Constructs)
    (ranked : w.outside.realm.Ranked) (d : Declaration) :
    Evolving w (d.declare bodies) fun c v => v.outside.realm.Has c := by
  refine .bind (superclass_evolving ranked d.superclass) fun superclass v found parent => ?_
  refine .bind (.findClasses (found.ranked ranked) d.interfaces) fun interfaces u named implemented =>
    ?_
  let r := u.outside.realm
  let cls : Class :=
    { name := d.name, kind := if d.isInterface then .interface else .concrete, superclass,
      interfaces, constructors := d.members.1, methods := d.members.2,
      fields := d.fieldList ⟨r.classes.size⟩ }
  have founded : cls.Founded r := by
    refine ⟨?_, fun s hs => named.includes.kept s (parent s hs), implemented, fun m hm => ?_⟩
    · cases isInterface : d.isInterface with
      | true => exact .inr (by simp [cls, isInterface])
      | false => exact .inl (by simp [cls, isInterface])
    · obtain ⟨m', -, rfl⟩ := List.mem_map.mp hm
      rfl
  have made : r.Evolves (Realm.allocateClass cls r).2 := .made .here founded
  refine .step made fun x later realm => ?_
  have has : x.outside.realm.Has ⟨r.classes.size⟩ := by
    rw [realm]
    exact (Realm.has_pushed rfl).mpr (.inr rfl)
  have ready := later.ranked (named.ranked (found.ranked ranked))
  refine .bind (.makeStatics constructs _ _ ready 0) fun _ y filled _ => ?_
  refine .step (.registered .here (filled.includes.kept _ has)) fun z last _ => .pure ?_
  exact last.includes.kept _ (filled.includes.kept _ has)

/-- The realm in which declarations end. -/
theorem Declaration.declareAll_evolves {bodies : Bodies World} (constructs : bodies.Constructs)
    (declarations : List Declaration) (ranked : w.outside.realm.Ranked) :
    w.outside.realm.Evolves
      (World.after (Declaration.declareAll bodies declarations w)).outside.realm := by
  have evolving : Evolving w (Declaration.declareAll bodies declarations) fun _ _ => True := by
    induction declarations generalizing w with
    | nil => exact .pure trivial
    | cons d rest ih =>
      exact .bind (d.declare_evolving constructs ranked) fun _ _ later _ =>
        ih (later.ranked ranked)
  unfold Evolving at evolving
  cases ended : Declaration.declareAll bodies declarations w with
  | ok a v =>
    rw [ended] at evolving
    exact evolving.1
  | error e v =>
    rw [ended] at evolving
    exact evolving

theorem Bodies.none_constructs : (Bodies.none : Bodies World).Constructs := fun _ _ _ _ _ => .throw _

namespace Realm

/-- A Host in which classes were declared and others were asked for by their names. -/
def declaring (r : Realm) (declarations : List Declaration) (names : List String) : Realm :=
  names.foldl (fun v name => (lookupClass? name v).2)
    (World.after (Declaration.declareAll .none declarations ⟨{}, { realm := r }⟩)).outside.realm

theorem declaring_evolves (ranked : r.Ranked) (declarations : List Declaration)
    (names : List String) : r.Evolves (r.declaring declarations names) := by
  have asked : ∀ v : Realm, r.Evolves v →
      r.Evolves (names.foldl (fun v name => (lookupClass? name v).2) v) := by
    induction names with
    | nil => exact fun _ declared => declared
    | cons name rest ih =>
      exact fun v declared =>
        ih _ (declared.trans (lookupClass?_evolves (declared.ranked ranked) name).1)
  exact asked _ (Declaration.declareAll_evolves (w := ⟨{}, { realm := r }⟩) Bodies.none_constructs
    declarations ranked)

end Realm
end ScriptBridge.Host
