import Mathlib.Logic.Relation
import ScriptBridge.Proofs.Hierarchy.Evolution

/-!
# Assignability

One class can stand for another because it comes from it, because the other is the top class, or
because both are array classes and the components can. In a hierarchy that is kept in order these
rules together make a partial order with the top class above everything that is not primitive.
-/

/-! ## Supertypes

The superclasses of a class and the interfaces that it implements are collected by walking up the
hierarchy. What the walks come across is said by the edges of the hierarchy alone.
-/

namespace ScriptBridge.Host.Realm

open Relation (ReflTransGen TransGen)

variable {r : Realm} {a b c s : ClassId}

/-- The class has the other one as its superclass. -/
def Subclass (r : Realm) (a b : ClassId) : Prop := (r.classOf a).superclass = some b

/-- The class names the other one among the interfaces that it implements. -/
def Implements (r : Realm) (a b : ClassId) : Prop := b ∈ (r.classOf a).interfaces

/-- The class comes from the other one by superclasses and interfaces. -/
def Inherits (r : Realm) : ClassId → ClassId → Prop :=
  ReflTransGen fun a b => r.Subclass a b ∨ r.Implements a b

/-! ### Walks -/

theorem ancestry_root (root : (r.classOf c).superclass = none) : r.ancestry c = [c] := by
  rw [ancestry, root]

theorem Ranked.ancestry_cons (ranked : r.Ranked) (h : r.Subclass c s) :
    r.ancestry c = c :: r.ancestry s := by
  have parent : (r.classOf c).superclass = some s := h
  rw [ancestry, parent]
  simp only [dif_pos (ranked.superclass_lt c s parent)]

theorem mem_ancestry_self (c : ClassId) : c ∈ r.ancestry c := by
  rw [ancestry]
  split
  · exact List.mem_singleton_self c
  · split <;> exact List.mem_cons_self

theorem Ranked.mem_ancestry (ranked : r.Ranked) :
    b ∈ r.ancestry a ↔ ReflTransGen r.Subclass a b := by
  constructor
  · intro mem
    induction a using Realm.ancestry.induct r with
    | case1 c root =>
      rw [ancestry_root root, List.mem_singleton] at mem
      rw [mem]
    | case2 c parent hp _ ih =>
      rw [ranked.ancestry_cons hp, List.mem_cons] at mem
      rcases mem with rfl | mem
      · exact .refl
      · exact .head hp (ih mem)
    | case3 c parent hp above => exact absurd (ranked.superclass_lt c parent hp) above
  · intro path
    induction path using ReflTransGen.head_induction_on with
    | refl => exact mem_ancestry_self b
    | head edge _ ih =>
      rw [ranked.ancestry_cons edge]
      exact List.mem_cons_of_mem _ ih

theorem Ranked.interfacesFrom_eq (ranked : r.Ranked) (c : ClassId) :
    r.interfacesFrom c = c :: (r.classOf c).interfaces.reverse.flatMap r.interfacesFrom := by
  rw [interfacesFrom]
  congr 1
  refine List.flatMap_congr fun i hi => ?_
  rw [dif_pos (ranked.interface_lt c i (List.mem_reverse.mp hi))]

theorem Ranked.mem_interfacesFrom (ranked : r.Ranked) :
    b ∈ r.interfacesFrom a ↔ ReflTransGen r.Implements a b := by
  constructor
  · intro mem
    induction a using Realm.interfacesFrom.induct with
    | case1 c ih =>
      rw [ranked.interfacesFrom_eq, List.mem_cons, List.mem_flatMap] at mem
      rcases mem with rfl | ⟨i, named, mem⟩
      · exact .refl
      · have implemented : r.Implements c i := List.mem_reverse.mp named
        exact .head implemented (ih i (ranked.interface_lt c i implemented) mem)
  · intro path
    induction path using ReflTransGen.head_induction_on with
    | refl =>
      rw [interfacesFrom]
      exact List.mem_cons_self
    | head edge _ ih =>
      rw [ranked.interfacesFrom_eq]
      exact List.mem_cons_of_mem _ (List.mem_flatMap.mpr ⟨_, List.mem_reverse.mpr edge, ih⟩)

/-- The interfaces of a class are those that its superclasses and it name, with what these build
on. -/
theorem Ranked.mem_interfacesOf (ranked : r.Ranked) :
    b ∈ r.interfacesOf a ↔ ∃ c, ReflTransGen r.Subclass a c ∧ TransGen r.Implements c b := by
  rw [interfacesOf, List.mem_flatMap]
  constructor
  · rintro ⟨i, named, mem⟩
    obtain ⟨c, above, implemented⟩ := List.mem_flatMap.mp (List.mem_reverse.mp named)
    exact ⟨c, ranked.mem_ancestry.mp above,
      .head' implemented (ranked.mem_interfacesFrom.mp mem)⟩
  · rintro ⟨c, above, path⟩
    obtain ⟨i, implemented, path⟩ := TransGen.head'_iff.mp path
    exact ⟨i, List.mem_reverse.mpr (List.mem_flatMap.mpr
      ⟨c, ranked.mem_ancestry.mpr above, implemented⟩), ranked.mem_interfacesFrom.mpr path⟩

/-! ### Coming from a class -/

/-- What a class comes from was there before it. -/
theorem Ranked.lt_of_inherits (ranked : r.Ranked) (h : r.Inherits a b) :
    a = b ∨ b.index < a.index := by
  induction h using ReflTransGen.head_induction_on with
  | refl => exact .inl rfl
  | @head a c edge _ ih =>
    have below : c.index < a.index :=
      edge.elim (ranked.superclass_lt a c) (ranked.interface_lt a c)
    rcases ih with rfl | further
    · exact .inr below
    · exact .inr (Nat.lt_trans further below)

theorem Ranked.inherits_antisymm (ranked : r.Ranked) (h : r.Inherits a b) (h' : r.Inherits b a) :
    a = b := by
  rcases ranked.lt_of_inherits h with same | below
  · exact same
  · rcases ranked.lt_of_inherits h' with same | above
    · exact same.symm
    · omega

end ScriptBridge.Host.Realm

namespace ScriptBridge.Host.Realm

open Relation (ReflTransGen)

variable {r : Realm} {t a b c x y : ClassId}

/-! ### Hierarchies in order -/

/-- Superclasses are concrete, what is implemented is an interface, interfaces have no superclass,
and only the one class is called like the top class. -/
structure Orderly (r : Realm) (t : ClassId) : Prop where
  superclass : ∀ c s, r.Subclass c s → (r.classOf s).kind = .concrete
  implemented : ∀ c i, r.Implements c i → (r.classOf i).kind = .interface
  interface : ∀ c, (r.classOf c).kind = .interface → (r.classOf c).superclass = none
  top : ∀ c, r.nameOf c = objectName → c = t

/-- A concrete class that comes from nothing. -/
structure Root (r : Realm) (t : ClassId) : Prop where
  kind : (r.classOf t).kind = .concrete
  superclass : (r.classOf t).superclass = none
  interfaces : (r.classOf t).interfaces = []

/-- Checks that a name leads to a class that comes from nothing. -/
def isRoot (r : Realm) (name : String) : Bool :=
  let t := r.require name
  decide (r.Has t) && (r.classOf t).kind == .concrete && (r.classOf t).superclass.isNone &&
    (r.classOf t).interfaces.isEmpty

theorem root_of_isRoot {name : String} (h : r.isRoot name = true) :
    r.Has (r.require name) ∧ r.Root (r.require name) := by
  simp only [isRoot, Bool.and_eq_true, decide_eq_true_eq, beq_iff_eq, Option.isNone_iff_eq_none,
    List.isEmpty_iff] at h
  exact ⟨h.1.1.1, h.1.1.2, h.1.2, h.2⟩

theorem Evolves.root {s : Realm} (h : s.Evolves r) (checked : s.isRoot objectName = true) :
    r.Root (s.require objectName) := by
  obtain ⟨has, root⟩ := root_of_isRoot checked
  have same := h.includes.classes _ has
  exact ⟨same ▸ root.kind, same ▸ root.superclass, same ▸ root.interfaces⟩

theorem not_primitive_of_array (array : (r.classOf a).component? = some x) :
    (r.classOf a).isPrimitive = false := by
  unfold Class.component? at array
  unfold Class.isPrimitive
  cases kind : (r.classOf a).kind <;> simp_all

theorem Class.isArray_of_component {cls : Class} (array : cls.component? = some x) :
    cls.isArray = true := by
  rw [Class.isArray, array]
  rfl

namespace Orderly

variable (orderly : r.Orderly t)

include orderly

theorem roots (c i : ClassId) (h : r.Implements c i) : (r.classOf i).superclass = none :=
  orderly.interface i (orderly.implemented c i h)

/-- Who comes from another class comes from a concrete class or an interface. -/
theorem kind_of_inherits (h : r.Inherits a b) :
    a = b ∨ (r.classOf b).kind = .concrete ∨ (r.classOf b).kind = .interface := by
  rcases h.cases_tail with same | ⟨c, -, parent | implemented⟩
  · exact .inl same.symm
  · exact .inr (.inl (orderly.superclass c b parent))
  · exact .inr (.inr (orderly.implemented c b implemented))

theorem inherits_array (array : (r.classOf b).component? = some y) (h : r.Inherits a b) : a = b := by
  rcases orderly.kind_of_inherits h with same | kind | kind
  · exact same
  all_goals simp [Class.component?, kind] at array

theorem inherits_primitive (primitive : (r.classOf b).isPrimitive = true) (h : r.Inherits a b) :
    a = b := by
  rcases orderly.kind_of_inherits h with same | kind | kind
  · exact same
  all_goals simp [Class.isPrimitive, kind] at primitive

end Orderly

/-- No array class is called like the top class. -/
theorem Ranked.array_ne (ranked : r.Ranked) (array : (r.classOf a).component? = some x) :
    r.nameOf a ≠ objectName :=
  ranked.named a (Class.isArray_of_component array)

/-- A class that builds on nothing comes from itself only. -/
theorem inherits_root (superclass : (r.classOf a).superclass = none)
    (interfaces : (r.classOf a).interfaces = []) (h : r.Inherits a b) : a = b := by
  rcases h.cases_head with same | ⟨c, edge | edge, -⟩
  · exact same
  · rw [Subclass, superclass] at edge
    cases edge
  · rw [Implements, interfaces] at edge
    cases edge

theorem Root.inherits (root : r.Root t) (h : r.Inherits t b) : t = b :=
  inherits_root root.superclass root.interfaces h

theorem Ranked.primitive_inherits (ranked : r.Ranked)
    (primitive : (r.classOf a).isPrimitive = true) (h : r.Inherits a b) : a = b :=
  inherits_root (ranked.primitive a primitive).1 (ranked.primitive a primitive).2 h

/-- An array class comes from the top class only. -/
theorem Ranked.array_inherits (ranked : r.Ranked) (orderly : r.Orderly t) (root : r.Root t)
    (array : (r.classOf a).component? = some x) (path : r.Inherits a b) : a = b ∨ b = t := by
  have isArray := Class.isArray_of_component array
  rcases path.cases_head with same | ⟨c, edge | edge, rest⟩
  · exact .inl same
  · obtain ⟨s, parent, named⟩ := ranked.array_superclass a isArray
    obtain rfl : s = c := Option.some.inj (parent.symm.trans edge)
    rw [orderly.top s named] at rest
    exact .inr (root.inherits rest).symm
  · rw [Implements, ranked.array_interfaces a isArray] at edge
    cases edge

/-! ### Standing for a class -/

/-- Why a value of the first class can stand where one of the second is expected. -/
inductive StandsFor (r : Realm) : ClassId → ClassId → Prop where
  | above {a b : ClassId} : r.Inherits a b → StandsFor r a b
  | top {a b : ClassId} : (r.classOf a).isPrimitive = false → r.nameOf b = objectName →
    StandsFor r a b
  | array {a b x y : ClassId} : (r.classOf a).component? = some x →
    (r.classOf b).component? = some y → (r.classOf x).isPrimitive = false → StandsFor r x y →
    StandsFor r a b

namespace StandsFor

variable (ranked : r.Ranked) (orderly : r.Orderly t) (root : r.Root t)

include ranked orderly root

/-- Primitive classes stand for nothing else, and nothing else stands for them. -/
theorem primitive (stands : r.StandsFor a b)
    (either : (r.classOf a).isPrimitive = true ∨ (r.classOf b).isPrimitive = true) : a = b := by
  cases stands with
  | above path =>
    exact either.elim (ranked.primitive_inherits · path) (orderly.inherits_primitive · path)
  | top plain named =>
    rcases either with primitive | primitive
    · rw [plain] at primitive
      cases primitive
    · rw [orderly.top b named, Class.isPrimitive, root.kind] at primitive
      cases primitive
  | array first second _ _ =>
    rw [not_primitive_of_array first, not_primitive_of_array second] at either
    rcases either with primitive | primitive <;> cases primitive

/-- By induction on the first reason. Whoever comes from an array class is it, so array classes meet
array classes or the top class. -/
theorem trans (stands : r.StandsFor a b) (further : r.StandsFor b c) : r.StandsFor a c := by
  induction stands generalizing c with
  | @above a b path =>
    cases further with
    | above rest => exact .above (path.trans rest)
    | top plain named =>
      refine .top ?_ named
      by_contra primitive
      rw [Bool.not_eq_false] at primitive
      rw [← ranked.primitive_inherits primitive path, primitive] at plain
      cases plain
    | array first second plain rest =>
      rw [orderly.inherits_array first path]
      exact .array first second plain rest
  | @top a b plain named =>
    cases further with
    | above rest =>
      have isTop := orderly.top b named
      rw [isTop] at rest
      rw [← root.inherits rest, ← isTop]
      exact .top plain named
    | top _ named => exact .top plain named
    | array first _ _ _ => exact absurd named (ranked.array_ne first)
  | @array a b x y first second plain stands ih =>
    cases further with
    | above rest =>
      rcases ranked.array_inherits orderly root second rest with rfl | isTop
      · exact .array first second plain stands
      · refine .top (not_primitive_of_array first) ?_
        rw [isTop, ← orderly.top _ ranked.require_top.2]
        exact ranked.require_top.2
    | top _ named => exact .top (not_primitive_of_array first) named
    | array first' second' _ rest =>
      obtain rfl := Option.some.inj (second.symm.trans first')
      exact .array first second' plain (ih rest)

omit ranked in
/-- The top class stands for itself only. -/
theorem root_stands (stands : r.StandsFor t b) : t = b := by
  cases stands with
  | above path => exact root.inherits path
  | top _ named => exact (orderly.top b named).symm
  | array first _ _ _ =>
    rw [Class.component?, root.kind] at first
    cases first

/-- By induction on the first reason. Array classes of one component are one class. -/
theorem antisymm (stands : r.StandsFor a b) (back : r.StandsFor b a) : a = b := by
  induction stands with
  | @above a b path =>
    cases back with
    | above rest => exact ranked.inherits_antisymm path rest
    | top _ named =>
      rw [orderly.top a named] at path ⊢
      exact root.inherits path
    | array first _ _ _ => exact orderly.inherits_array first path
  | @top a b _ named =>
    rw [orderly.top b named] at back ⊢
    exact (root_stands orderly root back).symm
  | @array a b x y first second _ stands ih =>
    cases back with
    | above rest => exact (orderly.inherits_array first rest).symm
    | top _ named => exact absurd named (ranked.array_ne first)
    | array second' first' _ back =>
      obtain rfl := Option.some.inj (second.symm.trans second')
      obtain rfl := Option.some.inj (first.symm.trans first')
      obtain rfl := ih back
      exact Option.some.inj
        ((ranked.component a x first).2.symm.trans (ranked.component b x second).2)

end StandsFor

/-! ### The rules as they are checked -/

variable (ranked : r.Ranked) (orderly : r.Orderly t)

include ranked orderly

omit ranked orderly

/-- Shapes, of which the solid ones have a name of their own, and two classes of them. -/
def shapeDeclarations : List Declaration := [
  { name := "demo.Shape", isInterface := true,
    methods := [{ name := "name", returns := stringName, body := .constant (.string "shape") }] },
  { name := "demo.Solid", isInterface := true, interfaces := ["demo.Shape"],
    methods := [{ name := "name", returns := stringName, body := .constant (.string "solid") }] },
  { name := "demo.Base", superclass := some objectName, interfaces := ["demo.Shape"] },
  { name := "demo.Derived", superclass := some "demo.Base", interfaces := ["demo.Solid"] }]

/-- A Host with these classes in which array classes were asked for. -/
def shapes : Realm :=
  Realm.standard.declaring shapeDeclarations ["demo.Derived[]", "demo.Solid[]", "demo.Shape[]"]

theorem shapes_evolves : Realm.standard.Evolves shapes := declaring_evolves standard_ranked _ _

/-- The class that a name leads to. -/
def leadsTo (r : Realm) (name : String) : ClassId := ((lookupClass? name r).1).getD default

end ScriptBridge.Host.Realm
