import ScriptBridge.Host.Realm

/-!
# A Host that grows

A Host gets new array classes and new objects while a script runs, and arrays get new elements. All
else stays: the classes that there are and what they say, the names that lead to them, the static
fields, and what the objects hold.
-/

namespace ScriptBridge.Host

variable {r v u : Realm} {c d s : ClassId} {o : ObjectId} {α : Type}

namespace Realm

/-- The class exists. -/
def Has (r : Realm) (c : ClassId) : Prop := c.index < r.classes.size

/-- The object exists. -/
def Holds (r : Realm) (o : ObjectId) : Prop := o.index < r.objects.size

/-- Names and interfaces lead to classes that exist, and a class has at most one array class. -/
structure Coherent (r : Realm) : Prop where
  registered : ∀ name c, r.registry.get? name = some c → r.Has c
  interfaces : ∀ c, ∀ i ∈ (r.classOf c).interfaces, r.Has i
  component : ∀ c b, (r.classOf c).component? = some b →
    b.index < c.index ∧ r.arrays.lookup b = some c
  array : ∀ b c, r.arrays.lookup b = some c → (r.classOf c).component? = some b
  named : ∀ c, (r.classOf c).isArray = true → r.nameOf c ≠ objectName

end Realm

/-- An array may get other elements, but not another length. -/
def Payload.Rewritten : Payload → Payload → Prop
  | .array items, .array items' => items'.length = items.length
  | p, p' => p' = p

theorem Payload.Rewritten.refl (p : Payload) : p.Rewritten p := by
  cases p <;> exact rfl

theorem Payload.Rewritten.trans {p p' p'' : Payload} (h : p.Rewritten p')
    (h' : p'.Rewritten p'') : p.Rewritten p'' := by
  cases p <;> cases p' <;> cases p'' <;> simp_all [Rewritten]

/-- An array stays an array. -/
theorem Payload.Rewritten.of_array {items : List Value} {p : Payload}
    (h : (Payload.array items).Rewritten p) :
    ∃ items', p = .array items' ∧ items'.length = items.length := by
  cases p with
  | array items' => exact ⟨items', rfl, h⟩
  | _ => cases h

theorem Payload.Rewritten.array {items : List Value} {p : Payload}
    (h : p.Rewritten (.array items)) :
    ∃ items', p = .array items' ∧ items.length = items'.length := by
  cases p with
  | array items' => exact ⟨items', rfl, h⟩
  | _ => cases h

/-- The classes of one Host are classes of the other one, under the same numbers. -/
structure Realm.Includes (r v : Realm) : Prop where
  kept : ∀ c, r.Has c → v.Has c
  classes : ∀ c, r.Has c → v.classOf c = r.classOf c

namespace Realm

/-! ### Walking up the hierarchy -/

theorem Includes.ancestry (h : r.Includes v) (hc : r.Has c) : v.ancestry c = r.ancestry c := by
  induction c using Realm.ancestry.induct r with
  | case1 c root => rw [Realm.ancestry, Realm.ancestry, h.classes c hc, root]
  | case2 c parent hp below ih =>
    rw [Realm.ancestry, Realm.ancestry, h.classes c hc, hp]
    simp only [dif_pos below, ih (Nat.lt_trans below hc)]
  | case3 c parent hp above =>
    rw [Realm.ancestry, Realm.ancestry, h.classes c hc, hp]
    simp only [dif_neg above]

theorem ancestry_has (hc : r.Has c) : ∀ a ∈ r.ancestry c, r.Has a := by
  induction c using Realm.ancestry.induct r with
  | case1 c root =>
    rw [Realm.ancestry, root]
    simpa using hc
  | case2 c parent hp below ih =>
    rw [Realm.ancestry, hp]
    simp only [dif_pos below, List.mem_cons, forall_eq_or_imp]
    exact ⟨hc, ih (Nat.lt_trans below hc)⟩
  | case3 c parent hp above =>
    rw [Realm.ancestry, hp]
    simpa [dif_neg above] using hc

theorem Includes.interfacesFrom (h : r.Includes v) (hc : r.Has c) :
    v.interfacesFrom c = r.interfacesFrom c := by
  induction c using Realm.interfacesFrom.induct with
  | case1 c ih =>
    rw [Realm.interfacesFrom, Realm.interfacesFrom, h.classes c hc]
    congr 2
    funext i
    by_cases below : i.index < c.index
    · simp only [dif_pos below, ih i below (Nat.lt_trans below hc)]
    · simp only [dif_neg below]

theorem interfacesFrom_has (hc : r.Has c) : ∀ i ∈ r.interfacesFrom c, r.Has i := by
  induction c using Realm.interfacesFrom.induct with
  | case1 c ih =>
    intro i hi
    rw [Realm.interfacesFrom, List.mem_cons, List.mem_flatMap] at hi
    rcases hi with rfl | ⟨j, -, hj⟩
    · exact hc
    · by_cases below : j.index < c.index
      · rw [dif_pos below] at hj
        exact ih j below (Nat.lt_trans below hc) i hj
      · rw [dif_neg below] at hj
        cases hj

end Realm

/-- A Host in which there may be more, and in which what was there is still what it was. -/
structure Realm.Grows (r v : Realm) : Prop extends Realm.Includes r v where
  registry : v.registry = r.registry
  statics : v.statics = r.statics
  held : ∀ o, r.Holds o → v.Holds o
  objects : ∀ o, r.Holds o → v.classIdOf o = r.classIdOf o
  payloads : ∀ o, r.Holds o → (r.payload o).Rewritten (v.payload o)
  mirrors : ∀ c o, r.mirrors.lookup c = some o → v.mirrors.lookup c = some o
  coherent : r.Coherent → v.Coherent

namespace Realm

/-! ### Writing -/

variable {p : ObjectId}

/-- An object that is written to changes what it holds, and no other object changes. -/
theorem object_setPayload_self (payload : Payload) (h : r.Holds o) :
    (Realm.setPayload o payload r).2.object o = { r.object o with payload } := by
  have there : r.objects[o.index]? = some r.objects[o.index] := Array.getElem?_eq_getElem h
  show ((r.objects.modify o.index _)[o.index]?).getD default = _
  simp [Array.getElem?_modify, object, there]

theorem object_setPayload_other (payload : Payload) (other : p ≠ o) :
    (Realm.setPayload o payload r).2.object p = r.object p := by
  have places : o.index ≠ p.index := fun same => other (by cases o; cases p; simp_all)
  show ((r.objects.modify o.index _)[p.index]?).getD default = _
  rw [Array.getElem?_modify, if_neg places]
  rfl

theorem holds_setPayload (payload : Payload) :
    (Realm.setPayload o payload r).2.Holds p ↔ r.Holds p := by
  have size : (Realm.setPayload o payload r).2.objects.size = r.objects.size := Array.size_modify
  rw [Holds, Holds, size]

theorem classIdOf_setPayload (payload : Payload) (h : r.Holds p) :
    (Realm.setPayload o payload r).2.classIdOf p = r.classIdOf p := by
  by_cases self : p = o
  · subst self
    rw [classIdOf, object_setPayload_self payload h, classIdOf]
  · rw [classIdOf, object_setPayload_other payload self, classIdOf]

end Realm

namespace Realm.Grows

theorem refl (r : Realm) : r.Grows r where
  kept _ h := h
  classes _ _ := rfl
  registry := rfl
  statics := rfl
  held _ h := h
  objects _ _ := rfl
  payloads _ _ := .refl _
  mirrors _ _ h := h
  coherent h := h

theorem trans (h : r.Grows v) (h' : v.Grows u) : r.Grows u where
  kept c hc := h'.kept c (h.kept c hc)
  classes c hc := (h'.classes c (h.kept c hc)).trans (h.classes c hc)
  registry := h'.registry.trans h.registry
  statics := h'.statics.trans h.statics
  held o ho := h'.held o (h.held o ho)
  objects o ho := (h'.objects o (h.held o ho)).trans (h.objects o ho)
  payloads o ho := (h.payloads o ho).trans (h'.payloads o (h.held o ho))
  mirrors c o known := h'.mirrors c o (h.mirrors c o known)
  coherent hr := h'.coherent (h.coherent hr)

/-- The classes are the same ones. -/
theorem of_classes (classes : v.classes = r.classes) (registry : v.registry = r.registry)
    (arrays : v.arrays = r.arrays) (statics : v.statics = r.statics)
    (held : ∀ o, r.Holds o → v.Holds o)
    (objects : ∀ o, r.Holds o → v.classIdOf o = r.classIdOf o)
    (payloads : ∀ o, r.Holds o → (r.payload o).Rewritten (v.payload o))
    (mirrors : ∀ c o, r.mirrors.lookup c = some o → v.mirrors.lookup c = some o) : r.Grows v := by
  have same : v.classOf = r.classOf := by
    funext c
    simp only [classOf, classes]
  have has : v.Has = r.Has := by
    funext c
    simp only [Has, classes]
  refine ⟨⟨fun c hc => has ▸ hc, fun c _ => congrFun same c⟩, registry, statics, held, objects,
    payloads, mirrors, fun h => ⟨?_, ?_, ?_, ?_, ?_⟩⟩
  · rw [registry, has]
    exact h.registered
  · rw [same, has]
    exact h.interfaces
  · rw [same, arrays]
    exact h.component
  · rw [same, arrays]
    exact h.array
  · intro c hc
    simp only [nameOf, same] at hc ⊢
    exact h.named c hc

/-- Classes and objects are the same ones. -/
theorem of_same (classes : v.classes = r.classes) (registry : v.registry = r.registry)
    (arrays : v.arrays = r.arrays) (statics : v.statics = r.statics)
    (objects : v.objects = r.objects)
    (mirrors : ∀ c o, r.mirrors.lookup c = some o → v.mirrors.lookup c = some o) : r.Grows v := by
  refine of_classes classes registry arrays statics ?_ ?_ ?_ mirrors
  · intro o ho
    rwa [Holds, objects]
  · intro o _
    simp only [classIdOf, object, objects]
  · intro o _
    simp only [payload, object, objects]
    exact .refl _

theorem allocate (c : ClassId) (payload : Payload) (r : Realm) :
    r.Grows (Realm.allocate c payload r).2 := by
  have old : ∀ o, r.Holds o → (Realm.allocate c payload r).2.object o = r.object o := by
    intro o ho
    have other : o.index ≠ r.objects.size := Nat.ne_of_lt ho
    simp [Realm.allocate, object, Array.getElem?_push, other]
  refine of_classes rfl rfl rfl rfl ?_ ?_ ?_ fun _ _ known => known
  · intro o ho
    simp only [Holds, Realm.allocate, Array.size_push] at ho ⊢
    omega
  · intro o ho
    simp only [classIdOf, old o ho]
  · intro o ho
    simp only [Realm.payload, old o ho]
    exact .refl _

theorem setPayload {payload : Payload} (h : (r.payload o).Rewritten payload) :
    r.Grows (Realm.setPayload o payload r).2 := by
  refine .of_classes rfl rfl rfl rfl (fun p => (holds_setPayload payload).mpr)
    (fun p => classIdOf_setPayload payload) ?_ fun _ _ known => known
  intro p hp
  by_cases self : p = o
  · subst self
    rw [Realm.payload, Realm.payload, object_setPayload_self payload hp]
    exact h
  · rw [Realm.payload, Realm.payload, object_setPayload_other payload self]
    exact .refl _
theorem mirror (c : ClassId) (r : Realm) : r.Grows (Realm.mirror c r).2 := by
  simp only [Realm.mirror, Bind.bind, StateT.bind, MonadState.get, getThe, MonadStateOf.get,
    StateT.get, Pure.pure]
  cases fresh : r.mirrors.lookup c with
  | some o => exact .refl r
  | none =>
    refine (allocate _ _ r).trans (of_same rfl rfl rfl rfl rfl fun d o known => ?_)
    have other : d ≠ c := by
      rintro rfl
      cases fresh.symm.trans known
    show ((c, _) :: r.mirrors).lookup d = some o
    rw [List.lookup_cons, beq_eq_false_iff_ne.mpr other]
    exact known

theorem newText (text : String) (r : Realm) : r.Grows (Realm.newText text r).2 := allocate _ _ r

theorem newGlobalRef (o : ObjectId) (r : Realm) : r.Grows (Realm.newGlobalRef o r).2 :=
  of_same rfl rfl rfl rfl rfl fun _ _ known => known

theorem setPending (throwable : Option ObjectId) (r : Realm) :
    r.Grows (Realm.setPending throwable r).2 :=
  of_same rfl rfl rfl rfl rfl fun _ _ known => known

/-- A class object describes the same class from then on. -/
theorem mirrored? (h : r.Grows v) (ho : r.Holds o) : v.mirrored? o = r.mirrored? o := by
  have kept := h.payloads o ho
  unfold Realm.mirrored?
  cases was : r.payload o <;> cases is : v.payload o <;> simp_all [Payload.Rewritten]

/-- A text is the same from then on. -/
theorem text? (h : r.Grows v) (ho : r.Holds o) : v.text? o = r.text? o := by
  have kept := h.payloads o ho
  unfold Realm.text?
  cases was : r.payload o <;> cases is : v.payload o <;> simp_all [Payload.Rewritten]

end Realm.Grows

/-- A new object is what it was made as. -/
theorem Realm.allocated (c : ClassId) (payload : Payload) (r : Realm) :
    ∃ o v, Realm.allocate c payload r = (o, v) ∧ r.Grows v ∧ v.Holds o ∧ v.classIdOf o = c ∧
      v.payload o = payload ∧ v.pending = r.pending := by
  refine ⟨_, _, rfl, .allocate c payload r, ?_, ?_, ?_, rfl⟩
  · simp [Holds]
  · simp [classIdOf, object]
  · simp [Realm.payload, object]

end ScriptBridge.Host
