import ScriptBridge.Bridge.Convert
import ScriptBridge.Proofs.Library.Formed

/-!
# What conversions need of the class library

Strings and wrappers have tokens, every wrapper has a method that says what it wraps and a
constructor that wraps a primitive, and nothing else is taken for a wrapper. All of this can be
checked of a Host, and it holds of the class library.
-/

namespace ScriptBridge.Bridge

open Host (ClassId Realm Primitive LibraryMethod Method)

variable {s : Realm} {c : ClassId} {p : Primitive}

/-! ### Wrappers -/

/-- The token of a wrapper. -/
def wrapperToken : Primitive → TokenName
  | .boolean => .boolean | .byte => .byte | .char => .char | .short => .short
  | .int => .int | .long => .long | .float => .float | .double => .double

theorem wrapperToken_className (p : Primitive) : (wrapperToken p).className = p.wrapper := by
  cases p <;> rfl

/-- The kind of a wrapper. -/
def wrapperKind (p : Primitive) : Kind := (wrapperToken p).kind

/-- The class that wraps the values of a primitive type. -/
def wrapperOf (s : Realm) (p : Primitive) : ClassId := s.require p.wrapper

/-- The method by which a wrapper says what it wraps. The small numbers are all read as ints. -/
def reader : Primitive → LibraryMethod
  | .boolean => .wrappedBoolean
  | .char => .wrappedChar
  | .byte | .short | .int => .numberValue .int
  | .long => .numberValue .long
  | .float => .numberValue .float
  | .double => .numberValue .double

/-- The accessors that are found in a Host. -/
def accessorsIn? (s : Realm) : List (Kind × String × String) → Option (List (Kind × Method))
  | [] => some []
  | (kind, className, name) :: rest => do
    let c ← s.registry.get? className
    let method ← (s.methods c).find? fun m => m.name == name && m.params == []
    let accessors ← accessorsIn? s rest
    return (kind, method) :: accessors

/-- The boxing constructor that is found in a Host. -/
def boxerIn? (s : Realm) (p : Primitive) : Option Boxer := do
  let c ← s.registry.get? p.wrapper
  let constructor ← (s.constructors c).find? fun m =>
    m.name == Host.constructorName && m.params == [p.name]
  return ⟨c, constructor⟩

/-- The boxing constructors that are found in a Host. -/
def boxingIn? (s : Realm) : Option Boxing := do
  let boolean ← boxerIn? s .boolean
  let int ← boxerIn? s .int
  let long ← boxerIn? s .long
  let double ← boxerIn? s .double
  return ⟨boolean, int, long, double⟩

/-- The class, or the primitive class that it publishes, is the one. -/
def TokenName.standsFor (s : Realm) (c : ClassId) (name : TokenName) : Bool :=
  match name.found s with
  | .ok (d, q) => d == c || q == some c
  | .error _ => false

/-- The first token that stands for a class. -/
def tokenFor? (s : Realm) (c : ClassId) : Option TokenName :=
  TokenName.priority.find? (TokenName.standsFor s c)

/-- The accessor runs the reader of the wrapper. -/
structure Reads (s : Realm) (p : Primitive) (m : Method) : Prop where
  instance_method : m.isStatic = false
  no_params : m.params = []
  resolved : (s.resolveVirtual (wrapperOf s p) m).body = .inl (.library (reader p))

/-- The constructor wraps a value of the primitive type. -/
structure Boxes (s : Realm) (p : Primitive) (b : Boxer) : Prop where
  ofClass : b.ofClass = wrapperOf s p
  concrete : (s.classOf b.ofClass).kind = .concrete
  one_param : b.constructor.arity = 1
  wraps : b.constructor.body = .inr (.wrap p)

/-- A Host has what conversions need. -/
structure Stocked (s : Realm) : Prop where
  coherent : s.Coherent
  plain : ∀ c, s.Has c → (s.classOf c).component? = none
  token : ∀ name : TokenName, ∃ c q, name.found s = .ok (c, q) ∧
    ∀ d ∈ q, s.Has d ∧ (s.classOf d).isPrimitive = true
  wrapper : ∀ p, tokenFor? s (wrapperOf s p) = some (wrapperToken p)
  string : tokenFor? s (s.require Host.stringName) = some .string
  type : tokenFor? s (s.require Host.className) = none
  reads : ∃ accessors, accessorsIn? s accessorNames = some accessors ∧
    ∀ p, ∃ m, accessors.lookup (wrapperKind p) = some m ∧ Reads s p m
  boxes : ∀ p, ∃ b, boxerIn? s p = some b ∧ Boxes s p b

/-! ### Checking -/

/-- Checks one token. -/
def tokenChecks (s : Realm) (name : TokenName) : Bool :=
  match name.found s with
  | .ok (_, q) => q.all fun d => decide (s.Has d) && (s.classOf d).isPrimitive
  | .error _ => false

/-- Checks an accessor. -/
def readsChecks (s : Realm) (p : Primitive) (m : Method) : Bool :=
  !m.isStatic && m.params == [] &&
    match (s.resolveVirtual (wrapperOf s p) m).body with
    | .inl (.library run) => run == reader p
    | _ => false

/-- Checks a boxing constructor. -/
def boxesChecks (s : Realm) (p : Primitive) (b : Boxer) : Bool :=
  b.ofClass == wrapperOf s p && (s.classOf b.ofClass).kind == .concrete &&
    b.constructor.arity == 1 &&
    match b.constructor.body with
    | .inr (.wrap q) => q == p
    | _ => false

/-- Checks that a Host has what conversions need. -/
def isStocked (s : Realm) : Bool :=
  s.isCoherent && (s.classes.all fun c => c.component?.isNone) &&
    (TokenName.all.all (tokenChecks s)) &&
    (Primitive.all.all fun p => tokenFor? s (wrapperOf s p) == some (wrapperToken p) &&
      (boxerIn? s p).any (boxesChecks s p)) &&
    tokenFor? s (s.require Host.stringName) == some .string &&
    tokenFor? s (s.require Host.className) == none &&
    (accessorsIn? s accessorNames).any fun accessors =>
      Primitive.all.all fun p => (accessors.lookup (wrapperKind p)).any (readsChecks s p)

theorem mem_primitives (p : Primitive) : p ∈ Primitive.all := by
  cases p <;> decide

theorem mem_tokens (name : TokenName) : name ∈ TokenName.all := by
  cases name <;> decide

theorem token_of_checks {name : TokenName} (h : tokenChecks s name = true) :
    ∃ c q, name.found s = .ok (c, q) ∧ ∀ d ∈ q, s.Has d ∧ (s.classOf d).isPrimitive = true := by
  unfold tokenChecks at h
  cases found : name.found s with
  | error reason =>
    rw [found] at h
    cases h
  | ok token =>
    obtain ⟨c, q⟩ := token
    rw [found] at h
    refine ⟨c, q, rfl, fun d hd => ?_⟩
    have checked := (Option.all_eq_true _ _).mp h d hd
    simpa using checked

theorem Reads.of_checks {m : Method} (h : readsChecks s p m = true) : Reads s p m := by
  simp only [readsChecks, Bool.and_eq_true, Bool.not_eq_true', beq_iff_eq] at h
  obtain ⟨⟨instance_method, no_params⟩, resolved⟩ := h
  refine ⟨instance_method, no_params, ?_⟩
  split at resolved
  · rename_i run body
    rw [body, beq_iff_eq.mp resolved]
  · cases resolved

theorem Boxes.of_checks {b : Boxer} (h : boxesChecks s p b = true) : Boxes s p b := by
  simp only [boxesChecks, Bool.and_eq_true, beq_iff_eq] at h
  obtain ⟨⟨⟨ofClass, concrete⟩, one_param⟩, wraps⟩ := h
  refine ⟨ofClass, concrete, one_param, ?_⟩
  split at wraps
  · rename_i q body
    rw [body, beq_iff_eq.mp wraps]
  · cases wraps

theorem stocked_of_isStocked (h : isStocked s = true) : Stocked s := by
  simp only [isStocked, Bool.and_eq_true, beq_iff_eq] at h
  obtain ⟨⟨⟨⟨⟨⟨coherent, plain⟩, tokens⟩, wrappers⟩, string⟩, type⟩, accessors⟩ := h
  refine ⟨Realm.coherent_of_isCoherent coherent, fun c has => ?_, fun name => ?_, fun p => ?_,
    string, type, ?_, fun p => ?_⟩
  · have bound : c.index < s.classes.size := has
    have found : s.classOf c = s.classes[c.index] := by simp [Realm.classOf, bound]
    rw [found]
    exact Option.isNone_iff_eq_none.mp (Array.all_eq_true.mp plain c.index has)
  · exact token_of_checks (List.all_eq_true.mp tokens name (mem_tokens name))
  · have checked := List.all_eq_true.mp wrappers p (mem_primitives p)
    rw [Bool.and_eq_true] at checked
    exact beq_iff_eq.mp checked.1
  · obtain ⟨found, known, reads⟩ := (Option.any_eq_true _ _).mp accessors
    refine ⟨found, known, fun p => ?_⟩
    obtain ⟨m, listed, checked⟩ := (Option.any_eq_true _ _).mp
      (List.all_eq_true.mp reads p (mem_primitives p))
    exact ⟨m, listed, .of_checks checked⟩
  · have checked := List.all_eq_true.mp wrappers p (mem_primitives p)
    rw [Bool.and_eq_true] at checked
    obtain ⟨b, found, boxes⟩ := (Option.any_eq_true _ _).mp checked.2
    exact ⟨b, found, .of_checks boxes⟩

/-- The class library has what conversions need. -/
theorem standard_stocked : Stocked Realm.standard := stocked_of_isStocked (by decide +kernel)

end ScriptBridge.Bridge
