import ScriptBridge.Proofs.Discipline.HostCalls
import ScriptBridge.Proofs.Pins.Effects

/-!
# Steps of the Host that do not look at an array

The elements of one array are exchanged for others. What the Host says of its classes and of other
objects is the same, and a step on its memory that looks elsewhere does the same.
-/

namespace ScriptBridge.Host

variable {allowed : Body → Prop} {o p : ObjectId} {r : Realm} {c : ClassId} {α β : Type}
  {items : List Value}

/-- What the method runs when it is asked without arguments is allowed. -/
def Method.Answers (allowed : Body → Prop) (m : Method) : Prop :=
  m.params = [] → m.Permitted allowed

namespace Realm

/-- What the methods of the Host run when they are asked without arguments is allowed. -/
def Answers (allowed : Body → Prop) (r : Realm) : Prop :=
  ∀ c, ∀ m ∈ (r.classOf c).methods, m.Answers allowed

/-- The object is an array. -/
def HasArray (r : Realm) (o : ObjectId) : Prop := ∃ stored, r.payload o = .array stored

/-- The Host with other elements in an array. -/
def holding (o : ObjectId) (items : List Value) (r : Realm) : Realm :=
  (Realm.setPayload o (.array items) r).2

theorem objects_holding (o : ObjectId) (items : List Value) (r : Realm) :
    (r.holding o items).objects =
      r.objects.modify o.index fun x => { x with payload := .array items } := rfl

/-! ### Answering -/

theorem Answers.methods (h : r.Answers allowed) {m : Method} (hm : m ∈ r.methods c) :
    m.Answers allowed := by
  obtain ⟨d, -, hd⟩ := List.mem_flatMap.1 (mem_of_mem_firstOfEach hm)
  exact h d m hd

/-- What runs on an object takes the parameters of the method that was called. -/
theorem Answers.resolveVirtual (h : r.Answers allowed) (c : ClassId) {m : Method}
    (hm : m.Answers allowed) (bare : m.params = []) :
    (r.resolveVirtual c m).Permitted allowed := by
  unfold Realm.resolveVirtual
  cases found : (r.methods c).find? fun n => n.sameSignature m && !n.isStatic with
  | none => exact hm bare
  | some n =>
    have same := List.find?_some found
    simp only [Method.sameSignature, Bool.and_eq_true, beq_iff_eq] at same
    exact h.methods (List.mem_of_find?_eq_some found) (same.1.2.trans bare)

/-! ### Objects -/

theorem holds_of_hasArray (array : r.HasArray o) : r.Holds o := by
  obtain ⟨stored, payload⟩ := array
  by_contra missing
  have none : r.objects[o.index]? = none := by simpa [Holds] using missing
  rw [Realm.payload, Realm.object, none] at payload
  cases payload

theorem payload_holding (array : r.HasArray o) (p : ObjectId) :
    (r.holding o items).payload p = if p = o then .array items else r.payload p := by
  rw [Realm.payload, holding]
  by_cases self : p = o
  · subst self
    rw [if_pos rfl, object_setPayload_self _ (holds_of_hasArray array)]
  · rw [if_neg self, object_setPayload_other _ self, Realm.payload]

theorem payload_holding_other (items : List Value) (other : p ≠ o) :
    (r.holding o items).payload p = r.payload p := by
  rw [Realm.payload, holding, object_setPayload_other _ other, Realm.payload]

theorem classIdOf_holding (array : r.HasArray o) (p : ObjectId) :
    (r.holding o items).classIdOf p = r.classIdOf p := by
  by_cases self : p = o
  · subst self
    exact classIdOf_setPayload _ (holds_of_hasArray array)
  · rw [classIdOf, holding, object_setPayload_other _ self, classIdOf]

theorem classNameOf_holding (array : r.HasArray o) (p : ObjectId) :
    (r.holding o items).classNameOf p = r.classNameOf p := by
  rw [classNameOf, classIdOf_holding array]
  rfl

/-- An object holds what it did, or both times the elements of an array. -/
theorem payload_holding_cases (array : r.HasArray o) (items : List Value) (p : ObjectId) :
    (r.holding o items).payload p = r.payload p ∨
      (r.holding o items).payload p = .array items ∧ ∃ stored, r.payload p = .array stored := by
  rw [payload_holding array]
  by_cases self : p = o
  · rw [if_pos self, self]
    exact .inr ⟨rfl, array⟩
  · rw [if_neg self]
    exact .inl rfl

section

variable (array : r.HasArray o)

include array

theorem text?_holding (p : ObjectId) : (r.holding o items).text? p = r.text? p := by
  rcases payload_holding_cases array items p with same | ⟨held, stored, before⟩
  · rw [text?, same, text?]
  · rw [text?, held, text?, before]

theorem mirrored?_holding (p : ObjectId) : (r.holding o items).mirrored? p = r.mirrored? p := by
  rcases payload_holding_cases array items p with same | ⟨held, stored, before⟩
  · rw [mirrored?, same, mirrored?]
  · rw [mirrored?, held, mirrored?, before]

theorem message?_holding (p : ObjectId) : (r.holding o items).message? p = r.message? p := by
  rcases payload_holding_cases array items p with same | ⟨held, stored, before⟩
  · rw [message?, same, message?]
  · rw [message?, held, message?, before]

theorem cause?_holding (p : ObjectId) : (r.holding o items).cause? p = r.cause? p := by
  rcases payload_holding_cases array items p with same | ⟨held, stored, before⟩
  · rw [cause?, same, cause?]
  · rw [cause?, held, cause?, before]

theorem shown_holding (p : ObjectId) : (r.holding o items).shown p = r.shown p := by
  rw [shown, message?_holding array, classNameOf_holding array]
  rfl

theorem causes_holding (p : ObjectId) : (r.holding o items).causes p = r.causes p := by
  induction p using Realm.causes.induct r with
  | case1 p none => rw [causes, causes, cause?_holding array, none]
  | case2 p cause found below ih =>
    rw [causes, causes, cause?_holding array, found]
    simp only [dif_pos below, ih]
  | case3 p cause found above =>
    rw [causes, causes, cause?_holding array, found]
    simp only [dif_neg above]

end

/-! ### Classes -/

theorem classOf_holding : (r.holding o items).classOf = r.classOf := rfl

theorem ancestry_holding (c : ClassId) : (r.holding o items).ancestry c = r.ancestry c :=
  ancestry_congr classOf_holding c

theorem interfacesOf_holding (c : ClassId) :
    (r.holding o items).interfacesOf c = r.interfacesOf c := interfacesOf_congr classOf_holding c

theorem methods_holding (c : ClassId) : (r.holding o items).methods c = r.methods c :=
  methods_congr classOf_holding c

theorem fields_holding (c : ClassId) : (r.holding o items).fields c = r.fields c := by
  rw [fields, fields, ancestry_holding]
  rfl

theorem resolveVirtual_holding (c : ClassId) (m : Method) :
    (r.holding o items).resolveVirtual c m = r.resolveVirtual c m := by
  rw [resolveVirtual, resolveVirtual, methods_holding]

theorem isAssignable_holding (s c : ClassId) :
    (r.holding o items).isAssignable s c = r.isAssignable s c := by
  have class_same : (r.holding o items).classOf = r.classOf := rfl
  have name_same : (r.holding o items).nameOf = r.nameOf := rfl
  generalize place : s.index = n
  induction n using Nat.strongRecOn generalizing s c with
  | ind n ih =>
    rw [isAssignable, isAssignable, class_same, name_same, ancestry_holding, interfacesOf_holding]
    cases (r.classOf s).component? with
    | none => rfl
    | some a =>
      cases (r.classOf c).component? with
      | none => rfl
      | some b =>
        by_cases below : a.index < s.index
        · simp only [dif_pos below, ih a.index (place ▸ below) a b rfl]
        · simp only [dif_neg below]

end Realm

/-! ### Steps -/

theorem modify_push {xs : Array α} {i : Nat} (inside : i < xs.size) (f : α → α) (a : α) :
    (xs.push a).modify i f = (xs.modify i f).push a := by
  refine Array.ext (by simp) fun j _ _ => ?_
  simp only [Array.getElem_push, Array.getElem_modify, Array.size_modify]
  split <;> split <;> try rfl
  omega

theorem modify_modify {xs : Array α} {i : Nat} {f g : α → α} (absorbs : ∀ a, g (f a) = g a) :
    (xs.modify i f).modify i g = xs.modify i g := by
  refine Array.ext (by simp) fun j _ _ => ?_
  simp only [Array.getElem_modify]
  split
  · exact absorbs _
  · rfl

theorem modify_comm {xs : Array α} {i j : Nat} {f g : α → α}
    (commutes : i = j → ∀ a, f (g a) = g (f a)) :
    (xs.modify j g).modify i f = (xs.modify i f).modify j g := by
  refine Array.ext (by simp) fun k _ _ => ?_
  simp only [Array.getElem_modify]
  split <;> split <;> try rfl
  exact commutes (by omega) _

/-- The step neither reads nor changes the elements of the array, and brings no new code into the
Host. -/
def Unseeing (o : ObjectId) (step : StateM Realm α) : Prop :=
  ∀ r : Realm, r.HasArray o →
    (∀ items, step (r.holding o items) = ((step r).1, (step r).2.holding o items)) ∧
      (step r).2.payload o = r.payload o ∧
      ∀ c, ∀ m ∈ ((step r).2.classOf c).methods, ∃ d, m ∈ (r.classOf d).methods

namespace Unseeing

theorem pure (a : α) : Unseeing o (Pure.pure a : StateM Realm α) :=
  fun _ _ => ⟨fun _ => rfl, rfl, fun c _ hm => ⟨c, hm⟩⟩

theorem bind {step : StateM Realm α} {next : α → StateM Realm β} (h : Unseeing o step)
    (h' : ∀ a, Unseeing o (next a)) : Unseeing o (step >>= next) := by
  intro r array
  obtain ⟨same, payload, methods⟩ := h r array
  have array' : (step r).2.HasArray o := by
    obtain ⟨stored, held⟩ := array
    exact ⟨stored, payload.trans held⟩
  obtain ⟨same', payload', methods'⟩ := h' (step r).1 (step r).2 array'
  refine ⟨fun items => ?_, payload'.trans payload, fun c m hm => ?_⟩
  · show next (step (r.holding o items)).1 (step (r.holding o items)).2 = _
    rw [same]
    exact same' items
  · obtain ⟨d, hd⟩ := methods' c m hm
    exact methods d m hd

/-- What is done with a realm that is read must not depend on the elements. -/
theorem get {next : Realm → StateM Realm β} (same : ∀ r items, next (r.holding o items) = next r)
    (h : ∀ r, Unseeing o (next r)) : Unseeing o (MonadState.get >>= next) := by
  intro r array
  obtain ⟨same', payload, methods⟩ := h r r array
  refine ⟨fun items => ?_, payload, methods⟩
  show next (r.holding o items) (r.holding o items) = _
  rw [same]
  exact same' items

/-- A change that concerns neither classes nor objects. -/
theorem modifying {f : Realm → Realm} (commutes : ∀ r items, f (r.holding o items) = (f r).holding o items)
    (objects : ∀ r, (f r).objects = r.objects) (classes : ∀ r, (f r).classes = r.classes) :
    Unseeing o (modify f : StateM Realm PUnit) := by
  intro r _
  refine ⟨fun items => congrArg (Prod.mk _) (commutes r items), ?_, fun c m hm => ⟨c, ?_⟩⟩
  · show (f r).payload o = r.payload o
    rw [Realm.payload, Realm.object, objects, Realm.payload, Realm.object]
  · have same : ((f r).classOf c).methods = (r.classOf c).methods := by
      rw [Realm.classOf, classes, Realm.classOf]
    exact same ▸ hm

theorem allocate (c : ClassId) (payload : Payload) : Unseeing o (Realm.allocate c payload) := by
  intro r array
  have inside : o.index < r.objects.size := Realm.holds_of_hasArray array
  refine ⟨fun items => ?_, ?_, fun c m hm => ⟨c, hm⟩⟩
  · have size : (r.holding o items).objects.size = r.objects.size := Array.size_modify
    have pushed : (r.holding o items).objects.push ⟨c, payload⟩ =
        ((Realm.allocate c payload r).2.holding o items).objects := by
      rw [Realm.objects_holding, Realm.objects_holding]
      exact (modify_push inside _ _).symm
    show (ObjectId.mk (r.holding o items).objects.size,
      { r with objects := (r.holding o items).objects.push ⟨c, payload⟩ }) = _
    rw [size, pushed]
    rfl
  · show (((r.objects.push _)[o.index]?).getD default).payload = _
    rw [Array.getElem?_push, if_neg (Nat.ne_of_lt inside)]
    rfl

theorem setPayload (other : p ≠ o) (payload : Payload) :
    Unseeing o (Realm.setPayload p payload) := by
  intro r _
  have apart : p.index ≠ o.index := fun same => other (by cases p; cases o; simp_all)
  refine ⟨fun items => ?_, ?_, fun c m hm => ⟨c, hm⟩⟩
  · have commutes : ((r.objects.modify o.index fun x => { x with payload := .array items }).modify
        p.index fun x => { x with payload }) = ((r.objects.modify p.index fun x =>
          { x with payload }).modify o.index fun x => { x with payload := .array items }) :=
      modify_comm fun same => absurd same apart
    show ((), ({ r with objects := _ } : Realm)) = ((), { r with objects := _ })
    exact congrArg (fun objects => ((), { r with objects })) commutes
  · rw [Realm.payload, Realm.object_setPayload_other payload other.symm, Realm.payload]

theorem mirror (c : ClassId) : Unseeing o (Realm.mirror c) := by
  refine .get (fun _ _ => rfl) fun r => ?_
  split
  · exact .pure _
  · exact .bind (allocate _ _) fun o => .bind (.modifying (fun _ _ => rfl) (fun _ => rfl) fun _ => rfl)
      fun _ => .pure _

theorem arrayClass (component : ClassId) : Unseeing o (Realm.arrayClass component) := by
  have made : ∀ cls : Class, cls.methods = [] → Unseeing o (Realm.allocateClass cls) :=
    fun cls bare r _ => ⟨fun _ => rfl, rfl, (Extending.allocateClass bare r).methods⟩
  refine .get (fun _ _ => rfl) fun r => ?_
  split
  · exact .pure _
  · exact .bind (made _ rfl) fun c => .bind (.modifying (fun _ _ => rfl) (fun _ => rfl) fun _ => rfl)
      fun _ => .pure _

theorem lookupReversed? (name : List Char) : Unseeing o (Realm.lookupReversed? name) := by
  induction name using Realm.lookupReversed?.induct with
  | case1 rest ih =>
    unfold Realm.lookupReversed?
    refine .bind ih fun found => ?_
    cases found with
    | none => exact .pure _
    | some component => exact .bind (arrayClass component) fun _ => .pure _
  | case2 name h =>
    unfold Realm.lookupReversed?
    split
    · exact absurd rfl (h _)
    · exact .get (fun _ _ => rfl) fun _ => .pure _

theorem lookupClass? (name : String) : Unseeing o (Realm.lookupClass? name) := lookupReversed? _

theorem newText (text : String) : Unseeing o (Realm.newText text) :=
  .get (fun _ _ => rfl) fun _ => allocate _ _

theorem newThrowable (name : String) (message : Option String) (cause : Option ObjectId) :
    Unseeing o (Realm.newThrowable name message cause) :=
  .bind (lookupClass? name) fun _ => .get (fun _ _ => rfl) fun _ => allocate _ _

theorem newGlobalRef (p : ObjectId) : Unseeing o (Realm.newGlobalRef p) :=
  fun _ _ => ⟨fun _ => rfl, rfl, fun c _ hm => ⟨c, hm⟩⟩

theorem setPending (throwable : Option ObjectId) : Unseeing o (Realm.setPending throwable) :=
  .modifying (fun _ _ => rfl) (fun _ => rfl) fun _ => rfl

theorem describe : Unseeing o Realm.describe := by
  intro r array
  simp only [Realm.describe, Bind.bind, StateT.bind, MonadState.get, getThe, MonadStateOf.get,
    StateT.get, Pure.pure]
  have pending_same : ∀ items, (r.holding o items).pending = r.pending := fun _ => rfl
  cases pending : r.pending with
  | none =>
    refine ⟨fun items => ?_, rfl, fun c m hm => ⟨c, hm⟩⟩
    rw [pending_same, pending]
    rfl
  | some throwable =>
    refine ⟨fun items => ?_, rfl, fun c m hm => ⟨c, hm⟩⟩
    rw [pending_same, pending]
    simp only [Realm.shown_holding array, Realm.causes_holding array]
    rfl

end Unseeing
end ScriptBridge.Host
