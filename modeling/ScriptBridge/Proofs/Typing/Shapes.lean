import Mathlib.Data.List.Basic
import ScriptBridge.Proofs.Typing.Growth

/-!
# Shapes of classes

The number of an array class says when it was first asked for. What the class is, its shape, is the
class at the bottom and how many array classes stand above it. While a Host grows, a type name keeps
leading to the same shape, and whether one class can stand for another is a matter of the shape of
the second.
-/

namespace ScriptBridge.Host

variable {r v u : Realm} {c d s : ClassId} {o : ObjectId} {α : Type}

namespace Realm

/-! ### Shapes -/

/-- The class at the bottom of a class, and the array classes above it. -/
def shape (r : Realm) (c : ClassId) : ClassId × Nat :=
  match (r.classOf c).component? with
  | none => (c, 0)
  | some b =>
    if _h : b.index < c.index then
      let below := shape r b
      (below.1, below.2 + 1)
    else (c, 0)
termination_by c.index

theorem shape_plain (h : (r.classOf c).component? = none) : r.shape c = (c, 0) := by
  rw [shape, h]

theorem shape_array {b : ClassId} (coherent : r.Coherent)
    (h : (r.classOf c).component? = some b) :
    r.shape c = ((r.shape b).1, (r.shape b).2 + 1) := by
  rw [shape, h]
  simp only [dif_pos (coherent.component c b h).1]

theorem shape_depth (coherent : r.Coherent) (c : ClassId) :
    (r.shape c).2 = 0 ↔ (r.classOf c).component? = none := by
  cases h : (r.classOf c).component? with
  | none => simp [shape_plain h]
  | some b => simp [shape_array coherent h]

theorem shape_component {t : ClassId} {depth : Nat} (coherent : r.Coherent)
    (h : r.shape c = (t, depth + 1)) :
    ∃ b, (r.classOf c).component? = some b ∧ r.shape b = (t, depth) := by
  cases hc : (r.classOf c).component? with
  | none =>
    rw [shape_plain hc] at h
    cases h
  | some b =>
    rw [shape_array coherent hc] at h
    refine ⟨b, rfl, ?_⟩
    cases h
    rfl

theorem shape_bottom (coherent : r.Coherent) {t : ClassId} (h : r.shape c = (t, 0)) : c = t := by
  have plain := (shape_depth coherent c).mp (by rw [h])
  rw [shape_plain plain] at h
  cases h
  rfl

/-- By induction on the number of array classes: each of them is the only one of its component. -/
theorem shape_injective (coherent : r.Coherent) (h : r.shape c = r.shape d) : c = d := by
  generalize ht : r.shape d = t at h
  obtain ⟨t, depth⟩ := t
  induction depth generalizing c d with
  | zero => rw [shape_bottom coherent h, shape_bottom coherent ht]
  | succ depth ih =>
    obtain ⟨b, hb, shape_b⟩ := shape_component coherent h
    obtain ⟨b', hb', shape_b'⟩ := shape_component coherent ht
    have same : b = b' := ih shape_b' shape_b
    subst same
    have first := (coherent.component c b hb).2
    have second := (coherent.component d b hb').2
    rw [first] at second
    exact Option.some.inj second

theorem Has.component {b : ClassId} (coherent : r.Coherent) (hc : r.Has c)
    (h : (r.classOf c).component? = some b) : r.Has b :=
  Nat.lt_trans (coherent.component c b h).1 hc

theorem Has.bottom (coherent : r.Coherent) (hc : r.Has c) : r.Has (r.shape c).1 := by
  generalize h : r.shape c = t
  obtain ⟨t, depth⟩ := t
  induction depth generalizing c with
  | zero =>
    rw [shape_bottom coherent h] at hc
    exact hc
  | succ depth ih =>
    obtain ⟨b, hb, shape_b⟩ := shape_component coherent h
    exact ih (Has.component coherent hc hb) shape_b

theorem Grows.shape (h : r.Grows v) (coherent : r.Coherent) (hc : r.Has c) :
    v.shape c = r.shape c := by
  generalize ht : r.shape c = t
  obtain ⟨t, depth⟩ := t
  induction depth generalizing c with
  | zero =>
    have plain := (shape_depth coherent c).mp (by rw [ht])
    rw [← ht, shape_plain plain, shape_plain (by rw [h.classes c hc, plain])]
  | succ depth ih =>
    obtain ⟨b, hb, shape_b⟩ := shape_component coherent ht
    have hb' : (v.classOf c).component? = some b := by rw [h.classes c hc, hb]
    rw [shape_array (h.coherent coherent) hb', ih (Has.component coherent hc hb) shape_b]

/-- A class that does not exist says nothing. -/
theorem classOf_missing (h : ¬r.Has c) : r.classOf c = default := by
  have beyond : r.classes[c.index]? = none := Array.getElem?_eq_none (Nat.le_of_not_lt h)
  simp [classOf, beyond]

theorem has_of_component {b : ClassId} (h : (r.classOf c).component? = some b) : r.Has c := by
  by_cases hc : r.Has c
  · exact hc
  · rw [classOf_missing hc] at h
    cases h

/-! ### One class more -/

section

variable {cls : Class} (pushed : v.classes = r.classes.push cls)

include pushed

theorem has_pushed : v.Has c ↔ r.Has c ∨ c = ⟨r.classes.size⟩ := by
  obtain ⟨n⟩ := c
  simp only [Has, pushed, Array.size_push, ClassId.mk.injEq]
  omega

theorem classOf_pushed_old (has : r.Has c) : v.classOf c = r.classOf c := by
  have other : c.index ≠ r.classes.size := Nat.ne_of_lt has
  simp [classOf, pushed, Array.getElem?_push, other]

theorem classOf_pushed_new : v.classOf ⟨r.classes.size⟩ = cls := by
  simp [classOf, pushed]

theorem includes_pushed : r.Includes v :=
  ⟨fun _ has => (has_pushed pushed).mpr (.inl has), fun _ => classOf_pushed_old pushed⟩

/-- What holds of every class before and of the new one. -/
theorem classOf_pushed {P : ClassId → Class → Prop} (old : ∀ c, P c (r.classOf c))
    (new : P ⟨r.classes.size⟩ cls) (c : ClassId) : P c (v.classOf c) := by
  by_cases has : v.Has c
  · rcases (has_pushed pushed).mp has with has | rfl
    · rw [classOf_pushed_old pushed has]
      exact old c
    · rwa [classOf_pushed_new pushed]
  · rw [classOf_missing has,
      ← classOf_missing fun before => has ((has_pushed pushed).mpr (.inl before))]
    exact old c

end

/-! ### Array classes -/

theorem array_name_ne (name : String) : name ++ "[]" ≠ objectName := by
  intro same
  have last := congrArg (fun text : String => text.toList.getLast?) same
  simp [objectName] at last

/-- The array class that a class gets when it is first asked for. -/
def arrayOf (r : Realm) (b : ClassId) : Class :=
  { name := r.nameOf b ++ "[]", kind := .array b, superclass := some (r.require objectName) }

/-- The realm with an array class that was not asked for before. -/
def withArray (r : Realm) (b : ClassId) : Realm :=
  { r with
    classes := r.classes.push (r.arrayOf b)
    arrays := (b, ⟨r.classes.size⟩) :: r.arrays }

theorem arrayClass_known {b : ClassId} (h : r.arrays.lookup b = some c) :
    arrayClass b r = (c, r) := by
  simp only [arrayClass, Bind.bind, StateT.bind, MonadState.get, getThe, MonadStateOf.get,
    StateT.get, Pure.pure, h]
  rfl

theorem arrayClass_new {b : ClassId} (h : r.arrays.lookup b = none) :
    arrayClass b r = (⟨r.classes.size⟩, r.withArray b) := by
  simp only [arrayClass, Bind.bind, StateT.bind, MonadState.get, getThe, MonadStateOf.get,
    StateT.get, Pure.pure, h]
  rfl

theorem withArray_old {b : ClassId} (hc : r.Has c) : (r.withArray b).classOf c = r.classOf c :=
  classOf_pushed_old rfl hc

theorem withArray_new (b : ClassId) : (r.withArray b).classOf ⟨r.classes.size⟩ = r.arrayOf b :=
  classOf_pushed_new rfl

theorem withArray_has {b : ClassId} : (r.withArray b).Has c ↔ r.Has c ∨ c = ⟨r.classes.size⟩ :=
  has_pushed rfl

theorem withArray_cases {b : ClassId} {P : ClassId → Class → Prop} (old : ∀ c, P c (r.classOf c))
    (new : P ⟨r.classes.size⟩ (r.arrayOf b)) (c : ClassId) : P c ((r.withArray b).classOf c) :=
  classOf_pushed rfl old new c

theorem withArray_coherent {b : ClassId} (coherent : r.Coherent) (hb : r.Has b)
    (fresh : r.arrays.lookup b = none) : (r.withArray b).Coherent := by
  refine ⟨?_, ?_, ?_, ?_, ?_⟩
  · intro name c hc
    exact withArray_has.mpr (.inl (coherent.registered name c hc))
  · refine withArray_cases (P := fun _ cls => ∀ i ∈ cls.interfaces, (r.withArray b).Has i) ?_ nofun
    exact fun c i hi => withArray_has.mpr (.inl (coherent.interfaces c i hi))
  · refine withArray_cases (P := fun c cls => ∀ d, cls.component? = some d →
      d.index < c.index ∧ (r.withArray b).arrays.lookup d = some c) ?_ ?_
    · intro c d hd
      have known := coherent.component c d hd
      refine ⟨known.1, ?_⟩
      have other : d ≠ b := by
        rintro rfl
        rw [fresh] at known
        cases known.2
      simp only [withArray, List.lookup_cons]
      rw [beq_eq_false_iff_ne.mpr other]
      exact known.2
    · rintro d hd
      cases hd
      exact ⟨hb, by simp [withArray]⟩
  · intro d c hc
    simp only [withArray, List.lookup_cons] at hc
    by_cases same : d = b
    · subst same
      simp only [beq_self_eq_true, Option.some.injEq] at hc
      subst hc
      rw [withArray_new]
      rfl
    · rw [beq_eq_false_iff_ne.mpr same] at hc
      have known := coherent.array d c hc
      rw [withArray_old (has_of_component known)]
      exact known
  · have named : ∀ c, ((r.withArray b).classOf c).isArray = true →
        ((r.withArray b).classOf c).name ≠ objectName :=
      withArray_cases (P := fun _ cls => cls.isArray = true → cls.name ≠ objectName)
        coherent.named fun _ => array_name_ne _
    exact named

theorem withArray_grows {b : ClassId} (hb : r.Has b) (fresh : r.arrays.lookup b = none) :
    r.Grows (r.withArray b) where
  kept _ hc := withArray_has.mpr (.inl hc)
  classes _ hc := withArray_old hc
  registry := rfl
  statics := rfl
  held _ ho := ho
  objects _ _ := rfl
  payloads _ _ := .refl _
  mirrors _ _ known := known
  coherent h := withArray_coherent h hb fresh

/-- Asking for an array class gives the class above the component. -/
theorem arrayClass_grows {b : ClassId} (coherent : r.Coherent) (hb : r.Has b) :
    ∃ c v, arrayClass b r = (c, v) ∧ r.Grows v ∧ v.Has c ∧
      v.shape c = ((r.shape b).1, (r.shape b).2 + 1) := by
  cases known : r.arrays.lookup b with
  | some c =>
    have above := coherent.array b c known
    exact ⟨c, r, arrayClass_known known, .refl r, has_of_component above,
      shape_array coherent above⟩
  | none =>
    have grows := withArray_grows hb known
    refine ⟨_, _, arrayClass_new known, grows, withArray_has.mpr (.inr rfl), ?_⟩
    rw [shape_array (grows.coherent coherent) (by rw [withArray_new]; rfl),
      grows.shape coherent hb]

/-! ### Names of types -/

/-- The shape that a name leads to, by the characters of the name in reverse order. -/
def typeReversed? (r : Realm) : List Char → Option (ClassId × Nat)
  | ']' :: '[' :: rest => (r.typeReversed? rest).map fun t => (t.1, t.2 + 1)
  | name => (r.registry.get? (String.ofList name.reverse)).map r.shape

/-- The shape that a name leads to. -/
def typeNamed? (r : Realm) (name : String) : Option (ClassId × Nat) :=
  r.typeReversed? (name.toList.map fun c => if c = '/' then '.' else c).reverse

theorem typeReversed?_plain {name : List Char} (plain : ∀ rest, name ≠ ']' :: '[' :: rest) :
    r.typeReversed? name = (r.registry.get? (String.ofList name.reverse)).map r.shape := by
  unfold typeReversed?
  split
  · exact absurd rfl (plain _)
  · rfl

theorem lookupReversed?_plain {name : List Char} (plain : ∀ rest, name ≠ ']' :: '[' :: rest) :
    lookupReversed? name r = (r.registry.get? (String.ofList name.reverse), r) := by
  unfold lookupReversed?
  split
  · exact absurd rfl (plain _)
  · rfl

theorem Grows.typeReversed? (h : r.Grows v) (coherent : r.Coherent) (name : List Char) :
    v.typeReversed? name = r.typeReversed? name := by
  induction name using Realm.typeReversed?.induct with
  | case1 rest ih => simp only [Realm.typeReversed?, ih]
  | case2 name plain =>
    rw [typeReversed?_plain plain, typeReversed?_plain plain, h.registry]
    cases found : r.registry.get? (String.ofList name.reverse) with
    | none => rfl
    | some c => simp only [Option.map_some, h.shape coherent (coherent.registered _ c found)]

theorem Grows.typeNamed? (h : r.Grows v) (coherent : r.Coherent) (name : String) :
    v.typeNamed? name = r.typeNamed? name :=
  h.typeReversed? coherent _

/-- The class at the bottom of a shape that a name leads to exists. -/
theorem typeReversed?_has (coherent : r.Coherent) (name : List Char) :
    ∀ t ∈ r.typeReversed? name, r.Has t.1 := by
  induction name using Realm.typeReversed?.induct with
  | case1 rest ih =>
    intro t ht
    simp only [Realm.typeReversed?, Option.mem_def, Option.map_eq_some_iff] at ht
    obtain ⟨below, hb, rfl⟩ := ht
    exact ih below hb
  | case2 name plain =>
    intro t ht
    rw [typeReversed?_plain plain, Option.mem_def, Option.map_eq_some_iff] at ht
    obtain ⟨c, hc, rfl⟩ := ht
    exact (coherent.registered _ c hc).bottom coherent

theorem typeNamed?_has (coherent : r.Coherent) {name : String} {t : ClassId × Nat}
    (h : r.typeNamed? name = some t) : r.Has t.1 :=
  typeReversed?_has coherent _ t h

theorem lookupReversed?_grows (coherent : r.Coherent) (name : List Char) :
    ∃ found v, lookupReversed? name r = (found, v) ∧ r.Grows v ∧ (∀ c ∈ found, v.Has c) ∧
      found.map v.shape = r.typeReversed? name := by
  induction name using Realm.typeReversed?.induct with
  | case1 rest ih =>
    obtain ⟨found, v, ran, grows, has, shapes⟩ := ih
    simp only [lookupReversed?, typeReversed?, Bind.bind, StateT.bind, ran, ← shapes]
    cases found with
    | none => exact ⟨none, v, rfl, grows, nofun, rfl⟩
    | some b =>
      obtain ⟨c, u, made, above, exists_c, shape_c⟩ :=
        arrayClass_grows (grows.coherent coherent) (has b rfl)
      simp only [StateT.bind, made]
      refine ⟨some c, u, rfl, grows.trans above, ?_, ?_⟩
      · rintro _ ⟨⟩
        exact exists_c
      · simp only [Option.map_some, shape_c]
  | case2 name plain =>
    refine ⟨_, r, lookupReversed?_plain plain, .refl r, ?_, (typeReversed?_plain plain).symm⟩
    exact fun c found => coherent.registered _ c found

theorem lookupClass?_grows (coherent : r.Coherent) (name : String) :
    ∃ found v, lookupClass? name r = (found, v) ∧ r.Grows v ∧ (∀ c ∈ found, v.Has c) ∧
      found.map v.shape = r.typeNamed? name :=
  lookupReversed?_grows coherent _

theorem newThrowable_grows (coherent : r.Coherent) (name : String) (message : Option String)
    (cause : Option ObjectId) : r.Grows (newThrowable name message cause r).2 := by
  obtain ⟨found, v, looked, grows, -, -⟩ := lookupClass?_grows coherent name
  simp only [newThrowable, Bind.bind, StateT.bind, looked]
  exact grows.trans (.allocate _ _ _)

/-! ### Assignability -/

/-- The interfaces that the ancestors of a class name. -/
theorem named_has (coherent : r.Coherent) (c : ClassId) :
    ∀ i ∈ ((r.ancestry c).flatMap fun a => (r.classOf a).interfaces).reverse, r.Has i := by
  intro i hi
  rw [List.mem_reverse, List.mem_flatMap] at hi
  obtain ⟨a, -, ha⟩ := hi
  exact coherent.interfaces a i ha

theorem Includes.interfacesOf (h : r.Includes v) (coherent : r.Coherent) (hc : r.Has c) :
    v.interfacesOf c = r.interfacesOf c := by
  have named : ((v.ancestry c).flatMap fun a => (v.classOf a).interfaces) =
      (r.ancestry c).flatMap fun a => (r.classOf a).interfaces := by
    rw [h.ancestry hc]
    refine List.flatMap_congr fun a ha => ?_
    rw [h.classes a (ancestry_has hc a ha)]
  rw [Realm.interfacesOf, Realm.interfacesOf, named]
  exact List.flatMap_congr fun i hi => h.interfacesFrom (named_has coherent c i hi)

theorem interfacesOf_has (coherent : r.Coherent) (c : ClassId) :
    ∀ i ∈ r.interfacesOf c, r.Has i := by
  intro i hi
  rw [interfacesOf, List.mem_flatMap] at hi
  obtain ⟨j, hj, hi⟩ := hi
  exact interfacesFrom_has (named_has coherent c j hj) i hi

section

variable (same : v.classOf = r.classOf)

include same

theorem ancestry_congr (c : ClassId) : v.ancestry c = r.ancestry c := by
  induction c using Realm.ancestry.induct r with
  | case1 c root => rw [ancestry, ancestry, same, root]
  | case2 c parent found below ih =>
    rw [ancestry, ancestry, same, found]
    simp only [dif_pos below, ih]
  | case3 c parent found above =>
    rw [ancestry, ancestry, same, found]
    simp only [dif_neg above]

theorem interfacesFrom_congr (c : ClassId) : v.interfacesFrom c = r.interfacesFrom c := by
  induction c using Realm.interfacesFrom.induct with
  | case1 c ih =>
    rw [interfacesFrom, interfacesFrom, same]
    congr 2
    funext i
    by_cases below : i.index < c.index
    · simp only [dif_pos below, ih i below]
    · simp only [dif_neg below]

theorem interfacesOf_congr (c : ClassId) : v.interfacesOf c = r.interfacesOf c := by
  rw [interfacesOf, interfacesOf, ancestry_congr same, same]
  exact List.flatMap_congr fun i _ => interfacesFrom_congr same i

theorem methods_congr (c : ClassId) : v.methods c = r.methods c := by
  rw [methods, methods, ancestry_congr same, interfacesOf_congr same, same]

end

/-- The class of a shape is a primitive one. -/
def primitiveAt (r : Realm) (t : ClassId × Nat) : Bool := t.2 == 0 && (r.classOf t.1).isPrimitive

/-- A value of class `source` can stand where one of the class with a shape is expected. -/
def assignableTo (r : Realm) (source : ClassId) (t : ClassId × Nat) : Bool :=
  if r.shape source = t then true
  else if (r.classOf source).isPrimitive || r.primitiveAt t then false
  else if t.2 = 0 ∧ r.nameOf t.1 = objectName then true
  else
    match (r.classOf source).component?, t.2 with
    | some a, depth + 1 =>
      if (r.classOf a).isPrimitive || r.primitiveAt (t.1, depth) then r.shape a == (t.1, depth)
      else if _h : a.index < source.index then r.assignableTo a (t.1, depth)
      else false
    | _, _ => (r.ancestry source).any (r.shape · == t) || (r.interfacesOf source).any (r.shape · == t)
termination_by source.index

theorem isPrimitive_eq (coherent : r.Coherent) (c : ClassId) :
    (r.classOf c).isPrimitive = r.primitiveAt (r.shape c) := by
  cases h : (r.classOf c).component? with
  | none => simp [primitiveAt, shape_plain h]
  | some b =>
    have array : (r.classOf c).kind = .array b := by
      simp only [Class.component?] at h
      split at h
      · rename_i kind
        cases h
        exact kind
      · cases h
    simp [primitiveAt, shape_array coherent h, Class.isPrimitive, array]

theorem nameOf_eq (coherent : r.Coherent) (c : ClassId) :
    r.nameOf c = objectName ↔ (r.shape c).2 = 0 ∧ r.nameOf (r.shape c).1 = objectName := by
  cases h : (r.classOf c).component? with
  | none => simp [shape_plain h]
  | some b =>
    have array := coherent.named c (by simp [Class.isArray, h])
    simp [shape_array coherent h, array]

theorem contains_eq (coherent : r.Coherent) (classes : List ClassId) (c : ClassId) :
    classes.contains c = classes.any (r.shape · == r.shape c) := by
  rw [Bool.eq_iff_iff, List.contains_iff_mem, List.any_eq_true]
  constructor
  · exact fun h => ⟨c, h, by simp⟩
  · rintro ⟨d, hd, same⟩
    rwa [← shape_injective coherent (eq_of_beq same)]

/-- Assignability is a matter of the shape of the target. -/
theorem isAssignable_eq (coherent : r.Coherent) (s c : ClassId) :
    r.isAssignable s c = r.assignableTo s (r.shape c) := by
  generalize hn : s.index = n
  induction n using Nat.strongRecOn generalizing s c with
  | ind n ih =>
    rw [isAssignable, assignableTo]
    by_cases same : s = c
    · rw [if_pos same, if_pos (by rw [same])]
    rw [if_neg same, if_neg fun h => same (shape_injective coherent h), isPrimitive_eq coherent c]
    by_cases primitive : ((r.classOf s).isPrimitive || r.primitiveAt (r.shape c)) = true
    · rw [if_pos primitive, if_pos primitive]
    rw [if_neg primitive, if_neg primitive]
    by_cases top : r.nameOf c = objectName
    · rw [if_pos top, if_pos ((nameOf_eq coherent c).mp top)]
    rw [if_neg top, if_neg fun h => top ((nameOf_eq coherent c).mpr h)]
    have walked := congrArg₂ or (contains_eq coherent (r.ancestry s) c)
      (contains_eq coherent (r.interfacesOf s) c)
    cases hb : (r.classOf c).component? with
    | none =>
      rw [shape_plain hb] at walked ⊢
      cases (r.classOf s).component? <;> exact walked
    | some b =>
      rw [shape_array coherent hb] at walked ⊢
      cases ha : (r.classOf s).component? with
      | none => exact walked
      | some a =>
        have below := (coherent.component s a ha).1
        have bottom : a = b ↔ r.shape a = r.shape b :=
          ⟨fun h => by rw [h], fun h => shape_injective coherent h⟩
        simp only [isPrimitive_eq coherent b, dif_pos below, ih a.index (hn ▸ below) a b rfl]
        congr 1
        rw [Bool.eq_iff_iff, beq_iff_eq, beq_iff_eq, bottom]

theorem Grows.primitiveAt (h : r.Grows v) {t : ClassId × Nat} (ht : r.Has t.1) :
    v.primitiveAt t = r.primitiveAt t := by
  simp only [Realm.primitiveAt, h.classes t.1 ht]

/-- What a class that was there can stand for. -/
theorem Grows.assignableTo (h : r.Grows v) (coherent : r.Coherent) {t : ClassId × Nat}
    (hs : r.Has s) (ht : r.Has t.1) : v.assignableTo s t = r.assignableTo s t := by
  have walk : ∀ (t : ClassId × Nat) (classes : List ClassId), (∀ c ∈ classes, r.Has c) →
      classes.any (v.shape · == t) = classes.any (r.shape · == t) := by
    intro t classes has
    rw [Bool.eq_iff_iff, List.any_eq_true, List.any_eq_true]
    refine exists_congr fun c => and_congr_right fun hc => ?_
    rw [h.shape coherent (has c hc)]
  generalize hn : s.index = n
  induction n using Nat.strongRecOn generalizing s t with
  | ind n ih =>
    rw [Realm.assignableTo, Realm.assignableTo, h.shape coherent hs, h.classes s hs,
      h.primitiveAt ht, Realm.nameOf, Realm.nameOf, h.classes t.1 ht, h.ancestry hs,
      h.interfacesOf coherent hs, walk t _ (ancestry_has hs), walk t _ (interfacesOf_has coherent s)]
    cases ha : (r.classOf s).component? with
    | none => rfl
    | some a =>
      obtain ⟨bottom, depth⟩ := t
      cases depth with
      | zero => rfl
      | succ depth =>
        have below := (coherent.component s a ha).1
        have has_a := Has.component coherent hs ha
        have at_component : v.primitiveAt (bottom, depth) = r.primitiveAt (bottom, depth) :=
          h.primitiveAt ht
        simp only [h.classes a has_a, at_component, h.shape coherent has_a, dif_pos below,
          ih a.index (hn ▸ below) has_a (show r.Has (bottom, depth).1 from ht) rfl]

/-- Whether an object's class can stand for a class that is found later. -/
theorem Grows.isAssignable (h : r.Grows v) (coherent : r.Coherent) {t : ClassId × Nat}
    (hs : r.Has s) (ht : r.Has t.1) (shape : v.shape c = t) :
    v.isAssignable s c = r.assignableTo s t := by
  rw [isAssignable_eq (h.coherent coherent), shape, h.assignableTo coherent hs ht]

theorem Grows.isAssignable_old (h : r.Grows v) (coherent : r.Coherent) (hs : r.Has s)
    (hc : r.Has c) : v.isAssignable s c = r.isAssignable s c := by
  have bottom := hc.bottom coherent
  rw [h.isAssignable coherent hs bottom (h.shape coherent hc),
    (refl r).isAssignable coherent hs bottom rfl]

end Realm
end ScriptBridge.Host
