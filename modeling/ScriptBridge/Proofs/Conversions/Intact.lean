import ScriptBridge.Proofs.Conversions.Stock

/-!
# While the class library is intact

As long as no class of a library is replaced, its classes mean in every later state what they meant
at first, and what the bridge remembers about them is right. Then the kind by which an object is
shown is known from its class alone.
-/

namespace ScriptBridge.Host

variable {r v : Realm} {c : ClassId}

/-- A class keeps its methods. -/
theorem Realm.Includes.methods (h : r.Includes v) (coherent : r.Coherent) (hc : r.Has c) :
    v.methods c = r.methods c := by
  unfold Realm.methods
  rw [h.ancestry hc, h.interfacesOf coherent hc]
  congr 1
  refine List.flatMap_congr fun a ha => ?_
  rw [h.classes a]
  rcases List.mem_append.mp ha with ancestor | interface
  · exact Realm.ancestry_has hc a ancestor
  · exact Realm.interfacesOf_has coherent c a interface

theorem Realm.Includes.resolveVirtual (h : r.Includes v) (coherent : r.Coherent) (hc : r.Has c)
    (m : Method) : v.resolveVirtual c m = r.resolveVirtual c m := by
  rw [Realm.resolveVirtual, Realm.resolveVirtual, h.methods coherent hc]

end ScriptBridge.Host

namespace ScriptBridge.Bridge

open Host (ClassId ObjectId Realm Primitive Method HostM onRealm)
open Script (InterpreterId)

variable {ε α : Type} {s r : Realm} {w v u : World} {c d : ClassId} {o : ObjectId} {p : Primitive}

/-! ### Intact libraries -/

/-- No class of the library was replaced, and what the bridge remembers of it is right. -/
structure World.Intact (s : Realm) (w : World) : Prop where
  formed : w.Formed
  classes : s.Includes w.outside.realm
  names : ∀ name c, s.registry.get? name = some c → w.outside.realm.registry.get? name = some c
  tokens : ∀ name, w.tokenOf name = name.found s
  boxing : ∀ b, w.outside.boxing = some b → boxingIn? s = some b
  accessors : ∀ a, w.outside.accessors = some a → accessorsIn? s accessorNames = some a

/-- A later state, in which more may be shown. -/
structure Along (s : Realm) (w v : World) : Prop where
  realm : w.outside.realm.Grows v.outside.realm
  views : ∀ place, place < w.outside.proxies.size → (w.viewAt place).Released (v.viewAt place)
  shown : w.outside.proxies.size ≤ v.outside.proxies.size
  intact : v.Intact s

namespace Along

theorem refl (intact : w.Intact s) : Along s w w :=
  ⟨.refl _, fun _ _ => .refl _, Nat.le_refl _, intact⟩

theorem trans (h : Along s w v) (h' : Along s v u) : Along s w u where
  realm := h.realm.trans h'.realm
  views place made := (h.views place made).trans (h'.views place (Nat.lt_of_lt_of_le made h.shown))
  shown := Nat.le_trans h.shown h'.shown
  intact := h'.intact

theorem of_descends (intact : w.Intact s) (h : Descends w v) : Along s w v where
  realm := h.realm
  views place _ := h.views place
  shown := Nat.le_of_eq h.proxies.symm
  intact := by
    refine ⟨h.formed, ⟨fun c hc => h.realm.kept c (intact.classes.kept c hc), fun c hc => ?_⟩,
      fun name c known => ?_, fun name => ?_, fun b known => ?_, fun a known => ?_⟩
    · rw [h.realm.classes c (intact.classes.kept c hc), intact.classes.classes c hc]
    · rw [h.realm.registry]
      exact intact.names name c known
    · rw [h.tokens name, intact.tokens name]
    · exact intact.boxing b (h.boxing ▸ known)
    · exact intact.accessors a (h.accessors ▸ known)

theorem of_grows (intact : w.Intact s) (h : w.outside.realm.Grows r) : Along s w (w.onRealm r) :=
  of_descends intact (.of_grows intact.formed h)

end Along

namespace World.Intact

/-- Classes that the library knows by name are known by it. -/
theorem require (intact : w.Intact s) {name : String} (known : s.registry.get? name = some c) :
    w.outside.realm.require name = c := by
  rw [Realm.require, intact.names name c known, Option.getD_some]

theorem methods (intact : w.Intact s) (coherent : s.Coherent) (hc : s.Has c) :
    w.outside.realm.methods c = s.methods c :=
  intact.classes.methods coherent hc

end World.Intact

/-! ### Tokens of the library -/

/-- The class that a token is found to be is the one of its name. -/
theorem TokenName.found_class {name : TokenName} {q : Option ClassId}
    (h : name.found s = .ok (c, q)) : s.registry.get? name.className = some c := by
  unfold TokenName.found at h
  cases known : s.registry.get? name.className with
  | none =>
    rw [known] at h
    cases h
  | some d =>
    rw [known] at h
    dsimp only at h
    split at h
    · cases publishes : published s d with
      | error reason =>
        rw [publishes] at h
        cases h
      | ok found =>
        rw [publishes] at h
        cases h
        rfl
    · cases h
      rfl

namespace Stocked

variable (stocked : Stocked s)

include stocked

theorem registered (name : TokenName) :
    s.registry.get? name.className = some (s.require name.className) := by
  obtain ⟨c, q, found, -⟩ := stocked.token name
  rw [Realm.require, TokenName.found_class found, Option.getD_some]

theorem wrapper_registered (p : Primitive) :
    s.registry.get? p.wrapper = some (wrapperOf s p) := by
  have known := stocked.registered (wrapperToken p)
  rwa [wrapperToken_className] at known

theorem wrapper_has (p : Primitive) : s.Has (wrapperOf s p) :=
  stocked.coherent.registered _ _ (stocked.wrapper_registered p)

/-- The wrappers, and the class of strings, are told apart by their tokens. -/
theorem wrapper_injective {q : Primitive} (h : wrapperOf s p = wrapperOf s q) : p = q := by
  have first := stocked.wrapper p
  rw [h, stocked.wrapper q] at first
  cases p <;> cases q <;> first | rfl | cases first

theorem wrapper_ne_type (p : Primitive) : wrapperOf s p ≠ s.require Host.className := by
  intro same
  have first := stocked.wrapper p
  rw [same, stocked.type] at first
  cases first

theorem string_ne_type : s.require Host.stringName ≠ s.require Host.className := by
  intro same
  have first := stocked.string
  rw [same, stocked.type] at first
  cases first

/-- A class of any shape is identified by the first token that stands for it. -/
theorem identified (intact : w.Intact s) (c : ClassId) (names : List TokenName) :
    w.identified (w.outside.realm.shape c) names = .ok (names.find? (TokenName.standsFor s c)) := by
  have same_iff : ∀ d, s.Has d →
      (w.outside.realm.shape d = w.outside.realm.shape c ↔ d = c) := fun d _ =>
    ⟨fun h => Realm.shape_injective intact.formed.coherent h, fun h => by rw [h]⟩
  induction names with
  | nil => rfl
  | cons name rest ih =>
    obtain ⟨d, q, found, primitive⟩ := stocked.token name
    have has : s.Has d := stocked.coherent.registered _ d (TokenName.found_class found)
    have stands : (w.outside.realm.shape d = w.outside.realm.shape c ∨
        q.map w.outside.realm.shape = some (w.outside.realm.shape c)) ↔
        name.standsFor s c = true := by
      rw [TokenName.standsFor, found, Bool.or_eq_true, beq_iff_eq, beq_iff_eq, same_iff d has]
      refine or_congr_right ?_
      cases q with
      | none => simp
      | some e => simp [same_iff e (primitive e rfl).1]
    rw [World.identified, intact.tokens name, found, List.find?_cons]
    by_cases identifies : name.standsFor s c = true
    · simp only [if_pos (stands.mpr identifies), identifies]
    · rw [Bool.not_eq_true] at identifies
      simp only [if_neg fun h => Bool.eq_false_iff.mp identifies (stands.mp h), identifies]
      exact ih

/-- The kind of a class that a token stands for. -/
theorem kindAt_token (intact : w.Intact s) {name : TokenName}
    (stands : tokenFor? s c = some name) :
    w.kindAt (w.outside.realm.shape c) = .ok name.kind := by
  have known : w.identified (w.outside.realm.shape c) TokenName.priority = .ok (some name) := by
    rw [stocked.identified intact c TokenName.priority, ← stands]
    rfl
  simp only [World.kindAt, known]

/-- The kind of a class that no token stands for. -/
theorem kindAt_other (intact : w.Intact s) (other : tokenFor? s c = none) :
    w.kindAt (w.outside.realm.shape c) = .ok
      (if (w.outside.realm.classOf c).isArray then .array
      else if w.outside.realm.isAssignable c (s.require Host.className) then .type
      else .object) := by
  have coherent := intact.formed.coherent
  have unknown : w.identified (w.outside.realm.shape c) TokenName.priority = .ok none := by
    rw [stocked.identified intact c TokenName.priority, ← other]
    rfl
  have token : ∀ name : TokenName, ∃ q, w.tokenOf name = .ok (s.require name.className, q) := by
    intro name
    obtain ⟨d, q, found, -⟩ := stocked.token name
    refine ⟨q, ?_⟩
    rw [intact.tokens name, found, Realm.require, TokenName.found_class found, Option.getD_some]
  obtain ⟨q, type⟩ := token .type
  obtain ⟨q', object⟩ := token .object
  simp only [World.kindAt, unknown, type, object]
  by_cases array : (w.outside.realm.classOf c).isArray = true
  · rw [if_pos ((isArray_iff coherent c).mp array), if_pos array]
  · have plain : w.outside.realm.shape c = (c, 0) := by
      refine Realm.shape_plain ?_
      rwa [Host.Class.isArray, Bool.not_eq_true, Option.isSome_eq_false_iff,
        Option.isNone_iff_eq_none] at array
    rw [if_neg fun h => array ((isArray_iff coherent c).mpr h), if_neg array, plain]
    have named : TokenName.type.className = Host.className := rfl
    rw [named]
    split <;> rfl

end Stocked

/-! ### Objects -/

/-- An object as the Host makes them: it has a class that can have objects, wrappers wrap a value
of their type, strings hold a text, arrays have elements, and a class has one class object. -/
structure Proper (s r : Realm) (o : ObjectId) : Prop where
  held : r.Holds o
  has : r.Has (r.classIdOf o)
  reference : (r.classOf (r.classIdOf o)).isPrimitive = false
  wrapper : ∀ p, r.classIdOf o = wrapperOf s p →
    ∃ value, r.payload o = .boxed value ∧ value.primitive? = some p
  text : r.classIdOf o = s.require Host.stringName → ∃ text, r.payload o = .text text
  array : (r.classOf (r.classIdOf o)).isArray = true → ∃ items, r.payload o = .array items
  mirror : ∀ c, r.mirrored? o = some c →
    r.classIdOf o = s.require Host.className ∧ r.mirrors.lookup c = some o

theorem Proper.grows (h : Proper s r o) {r' : Realm} (grows : r.Grows r') : Proper s r' o := by
  have ofClass := grows.objects o h.held
  have kept := grows.payloads o h.held
  have same := grows.classes _ h.has
  refine ⟨grows.held o h.held, ?_, ?_, fun p wraps => ?_, fun string => ?_, fun array => ?_,
    fun c describes => ?_⟩
  · rw [ofClass]
    exact grows.kept _ h.has
  · rw [ofClass, same]
    exact h.reference
  · obtain ⟨value, payload, typed⟩ := h.wrapper p (ofClass ▸ wraps)
    rw [payload] at kept
    exact ⟨value, kept, typed⟩
  · obtain ⟨text, payload⟩ := h.text (ofClass ▸ string)
    rw [payload] at kept
    exact ⟨text, kept⟩
  · rw [ofClass, same] at array
    obtain ⟨items, payload⟩ := h.array array
    rw [payload] at kept
    cases new : r'.payload o with
    | array items' => exact ⟨items', rfl⟩
    | _ =>
      rw [new] at kept
      cases kept
  · rw [grows.mirrored? h.held] at describes
    obtain ⟨type, known⟩ := h.mirror c describes
    exact ⟨ofClass.trans type, grows.mirrors c o known⟩

/-- A class with a token is one of the library. -/
theorem Stocked.tokenFor?_has (stocked : Stocked s) {name : TokenName}
    (h : tokenFor? s c = some name) : s.Has c := by
  have stands := List.find?_some h
  obtain ⟨d, q, known, primitive⟩ := stocked.token name
  rw [TokenName.standsFor, known, Bool.or_eq_true, beq_iff_eq, beq_iff_eq] at stands
  rcases stands with rfl | published
  · exact stocked.coherent.registered _ d (TokenName.found_class known)
  · exact (primitive c published).1

end ScriptBridge.Bridge
