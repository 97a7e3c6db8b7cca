import ScriptBridge.Script.Interpreter

/-!
# Equality of script values

Two values without floats, with nothing foreign in them, are equal exactly if the same key stands
for both: a number for truth values, ints and longs, a text, the place of a module, a type of errors, or
the keys of the items of a tuple. So equality is symmetric and transitive. No key stands for a
function, a lambda or an error instance, so a value equals itself exactly if none of these is in it.
-/

namespace ScriptBridge.Script

/-! ### What is in a value -/

mutual

/-- The property holds of the value and of everything in it. -/
def Value.everywhere (p : Value → Bool) : Value → Bool
  | .tuple items => p (.tuple items) && Value.everywhereAll p items
  | other => p other

def Value.everywhereAll (p : Value → Bool) : List Value → Bool
  | [] => true
  | item :: rest => item.everywhere p && Value.everywhereAll p rest

end

/-- The value is neither a float nor foreign. -/
def Value.isDiscrete : Value → Bool
  | .float _ | .foreign _ => false
  | _ => true

/-- The value is neither a function nor an error instance. -/
def Value.isData : Value → Bool
  | .native _ | .lambda _ _ _ | .errorInstance _ _ => false
  | _ => true

/-- Nothing in the value is a float or foreign. -/
def Value.Discrete (v : Value) : Prop := v.everywhere Value.isDiscrete = true

/-- Nothing in the value is a function or an error instance. -/
def Value.Data (v : Value) : Prop := v.everywhere Value.isData = true

/-! ### Keys -/

/-- What equality sees of a value. -/
inductive Key where
  | none
  | number (amount : Int64)
  | text (text : String)
  | tuple (items : List Key)
  | module (place : Nat)
  | errorType (identity : Family ⊕ Nat)

/-- What tells a type of errors from others. -/
def ErrorType.identity : ErrorType → Family ⊕ Nat
  | .builtin family => .inl family
  | .made serial _ _ _ _ => .inr serial

mutual

/-- The key of a value; functions and error instances have none. -/
def Value.key? : Value → Option Key
  | .none => some .none
  | .bool value => some (.number (boolNumber value))
  | .int value | .long value => some (.number value)
  | .text value => some (.text value)
  | .tuple items => (Value.keys? items).map .tuple
  | .module m => some (.module m.place)
  | .errorType type => some (.errorType type.identity)
  | .float _ | .native _ | .lambda _ _ _ | .errorInstance _ _ | .foreign _ => Option.none

/-- The keys of several values, if all have one. -/
def Value.keys? : List Value → Option (List Key)
  | [] => some []
  | item :: rest =>
    match item.key?, Value.keys? rest with
    | some first, some more => some (first :: more)
    | _, _ => Option.none

end

/-- One key stands for both values. -/
def Value.Agree (x y : Value) : Prop := ∃ k, x.key? = some k ∧ y.key? = some k

variable {x y z : Value} {xs ys : List Value} {p : Value → Bool}

theorem Value.everywhereAll_iff :
    Value.everywhereAll p xs = true ↔ ∀ x ∈ xs, x.everywhere p = true := by
  induction xs with
  | nil => exact iff_of_true rfl nofun
  | cons x xs ih => rw [everywhereAll, Bool.and_eq_true, ih, List.forall_mem_cons]

theorem Value.Discrete.self (h : x.Discrete) : x.isDiscrete = true := by
  cases x <;> first | rfl | exact h

theorem Value.Discrete.items (h : (Value.tuple xs).Discrete) : ∀ x ∈ xs, x.Discrete :=
  everywhereAll_iff.mp h

theorem Value.Data.items (h : (Value.tuple xs).Data) : ∀ x ∈ xs, x.Data :=
  everywhereAll_iff.mp h

theorem Value.Data.tuple (h : ∀ x ∈ xs, x.Data) : (Value.tuple xs).Data :=
  everywhereAll_iff.mpr h

theorem Value.keys?_cons {ks : List Key} : Value.keys? (x :: xs) = some ks ↔
    ∃ k more, x.key? = some k ∧ Value.keys? xs = some more ∧ ks = k :: more := by
  rw [keys?]
  cases x.key? <;> cases keys? xs <;> simp [eq_comm]

theorem Value.Agree.symm (h : x.Agree y) : y.Agree x := by
  obtain ⟨k, ofX, ofY⟩ := h
  exact ⟨k, ofY, ofX⟩

theorem Value.Agree.trans (xy : x.Agree y) (yz : y.Agree z) : x.Agree z := by
  obtain ⟨k, ofX, ofY⟩ := xy
  obtain ⟨l, ofY', ofZ⟩ := yz
  rw [ofY] at ofY'
  cases ofY'
  exact ⟨k, ofX, ofZ⟩

theorem Value.not_agree_of_keyless (keyless : x.key? = Option.none) : ¬x.Agree y := by
  rintro ⟨k, found, -⟩
  rw [keyless] at found
  cases found

theorem Value.agree_self_iff : x.Agree x ↔ ∃ k, x.key? = some k :=
  exists_congr fun _ => and_self_iff

theorem Value.keys?_isSome_iff :
    (∃ ks, Value.keys? xs = some ks) ↔ ∀ x ∈ xs, ∃ k, x.key? = some k := by
  induction xs with
  | nil => exact iff_of_true ⟨[], rfl⟩ nofun
  | cons x xs ih =>
    rw [List.forall_mem_cons, ← ih]
    constructor
    · rintro ⟨_, found⟩
      obtain ⟨k, ks, first, rest, -⟩ := keys?_cons.mp found
      exact ⟨⟨k, first⟩, ks, rest⟩
    · rintro ⟨⟨k, first⟩, ks, rest⟩
      exact ⟨k :: ks, keys?_cons.mpr ⟨k, ks, first, rest, rfl⟩⟩

/-- A key stands for exactly the values without functions and error instances in them. -/
theorem Value.key?_isSome_iff (x : Value) : x.Discrete → ((∃ k, x.key? = some k) ↔ x.Data) := by
  induction x using Value.tupleInduct with
  | flat x flat =>
    intro dx
    have top := dx.self
    cases x with
    | float | foreign => cases top
    | tuple items => exact absurd rfl (flat items)
    | native | lambda | errorInstance => exact iff_of_false nofun nofun
    | _ => exact iff_of_true ⟨_, rfl⟩ rfl
  | tuple xs ih =>
    intro dx
    have items : (∀ x ∈ xs, ∃ k, x.key? = some k) ↔ ∀ x ∈ xs, x.Data :=
      forall₂_congr fun x found => ih x found (dx.items x found)
    constructor
    · rintro ⟨k, found⟩
      obtain ⟨ks, found, -⟩ := Option.map_eq_some_iff.mp found
      exact .tuple (items.mp (keys?_isSome_iff.mp ⟨ks, found⟩))
    · intro data
      obtain ⟨ks, found⟩ := keys?_isSome_iff.mpr (items.mpr data.items)
      exact ⟨.tuple ks, Option.map_eq_some_iff.mpr ⟨ks, found, rfl⟩⟩

theorem ErrorType.same_iff (s t : ErrorType) : s.same t = true ↔ s.identity = t.identity := by
  cases s <;> cases t <;> simp [same, identity]

/-! ### Equality -/

variable {σ : Type} {e : Engine σ} {ts : InterpreterId}

/-- The step answers without a look at the world, with the truth of the statement. -/
def Decides (step : ScriptM σ Bool) (p : Prop) : Prop := ∃ b, step = pure b ∧ (b = true ↔ p)

theorem decides_of_key {k : Key} {step : ScriptM σ Bool} (key : x.key? = some k)
    (decides : Decides step (some k = y.key?)) : Decides step (x.Agree y) := by
  obtain ⟨b, same, truth⟩ := decides
  refine ⟨b, same, truth.trans ⟨fun found => ⟨k, key, found.symm⟩, ?_⟩⟩
  rintro ⟨l, ofX, ofY⟩
  rw [ofY, ← ofX, key]

theorem key_ne_tuple {k : Key} (flat : ∀ ks, k ≠ .tuple ks) : ¬some k = (Value.tuple ys).key? := by
  intro same
  obtain ⟨ks, -, rfl⟩ := Option.map_eq_some_iff.mp same.symm
  exact flat ks rfl

/-- Values that are no tuples are compared at once. -/
theorem equals_flat (dx : x.isDiscrete = true) (dy : y.isDiscrete = true)
    (flat : ∀ items, x ≠ .tuple items) : Decides (equals e ts x y) (x.Agree y) := by
  cases x with
  | float | foreign => cases dx
  | tuple items => exact absurd rfl (flat items)
  | native | lambda | errorInstance =>
    cases y with
    | float | foreign => cases dy
    | _ => exact ⟨false, rfl, iff_of_false nofun (Value.not_agree_of_keyless rfl)⟩
  | none | bool | int | long | text | module | errorType =>
    refine decides_of_key rfl ?_
    cases y with
    | float | foreign => cases dy
    | tuple items => exact ⟨false, rfl, iff_of_false nofun (key_ne_tuple nofun)⟩
    | _ =>
      exact ⟨_, rfl, by
        simp [Value.key?, sameNumber, Value.number?, Number.whole?, ErrorType.same_iff]⟩

/-- A tuple equals nothing but tuples. -/
theorem equals_tuple_flat (dy : y.isDiscrete = true) (flat : ∀ items, y ≠ .tuple items) :
    Decides (equals e ts (.tuple xs) y) ((Value.tuple xs).Agree y) := by
  have apart : ¬(Value.tuple xs).Agree y := by
    rintro ⟨k, ofTuple, ofY⟩
    obtain ⟨ks, -, rfl⟩ := Option.map_eq_some_iff.mp ofTuple
    cases y <;> first | cases ofY | exact flat _ rfl
  cases y with
  | foreign => cases dy
  | tuple items => exact absurd rfl (flat items)
  | _ => exact ⟨false, rfl, iff_of_false nofun apart⟩

/-- One list of keys stands for both lists. -/
def AgreeAll (xs ys : List Value) : Prop :=
  ∃ ks, Value.keys? xs = some ks ∧ Value.keys? ys = some ks

theorem agreeAll_cons : AgreeAll (x :: xs) (y :: ys) ↔ x.Agree y ∧ AgreeAll xs ys := by
  constructor
  · rintro ⟨_, ofX, ofY⟩
    obtain ⟨k, ks, first, rest, rfl⟩ := Value.keys?_cons.mp ofX
    obtain ⟨_, _, first', rest', same⟩ := Value.keys?_cons.mp ofY
    cases same
    exact ⟨⟨k, first, first'⟩, ks, rest, rest'⟩
  · rintro ⟨⟨k, first, first'⟩, ks, rest, rest'⟩
    exact ⟨k :: ks, Value.keys?_cons.mpr ⟨k, ks, first, rest, rfl⟩,
      Value.keys?_cons.mpr ⟨k, ks, first', rest', rfl⟩⟩

theorem agree_tuple : (Value.tuple xs).Agree (.tuple ys) ↔ AgreeAll xs ys := by
  constructor
  · rintro ⟨_, ofX, ofY⟩
    obtain ⟨ks, found, rfl⟩ := Option.map_eq_some_iff.mp ofX
    obtain ⟨_, found', same⟩ := Option.map_eq_some_iff.mp ofY
    cases same
    exact ⟨ks, found, found'⟩
  · rintro ⟨ks, found, found'⟩
    exact ⟨.tuple ks, Option.map_eq_some_iff.mpr ⟨ks, found, rfl⟩,
      Option.map_eq_some_iff.mpr ⟨ks, found', rfl⟩⟩

theorem keys?_length : ∀ {xs : List Value} {ks : List Key}, Value.keys? xs = some ks →
    xs.length = ks.length
  | [], _, found => by
    cases found
    rfl
  | x :: xs, _, found => by
    obtain ⟨k, ks, -, rest, rfl⟩ := Value.keys?_cons.mp found
    exact congrArg (· + 1) (keys?_length rest)

theorem AgreeAll.length (h : AgreeAll xs ys) : xs.length = ys.length := by
  obtain ⟨ks, ofX, ofY⟩ := h
  rw [keys?_length ofX, keys?_length ofY]

/-- Items are compared one by one. -/
theorem equalsAll_decides (decides : ∀ x ∈ xs, ∀ y : Value, x.Discrete → y.Discrete →
      Decides (equals e ts x y) (x.Agree y))
    (dx : ∀ x ∈ xs, x.Discrete) (dy : ∀ y ∈ ys, y.Discrete) (same : xs.length = ys.length) :
    Decides (equalsAll e ts xs ys) (AgreeAll xs ys) := by
  induction xs generalizing ys with
  | nil =>
    obtain rfl := List.length_eq_zero_iff.mp same.symm
    exact ⟨true, rfl, iff_of_true rfl ⟨[], rfl, rfl⟩⟩
  | cons x xs ih =>
    obtain ⟨y, ys, rfl⟩ := List.exists_cons_of_length_eq_add_one same.symm
    rw [List.forall_mem_cons] at decides dx dy
    obtain ⟨first, equal, agree⟩ := decides.1 y dx.1 dy.1
    obtain ⟨rest, equals, agreeRest⟩ := ih decides.2 dx.2 dy.2 (Nat.succ.inj same)
    refine ⟨first && rest, ?_, ?_⟩
    · rw [equalsAll, equal, pure_bind, equals]
      cases first <;> rfl
    · rw [agreeAll_cons, Bool.and_eq_true, agree, agreeRest]

/-- Equality is the agreement of keys. By induction on the tuples in the first value. -/
theorem equals_decides (e : Engine σ) (ts : InterpreterId) (x : Value) :
    ∀ y, x.Discrete → y.Discrete → Decides (equals e ts x y) (x.Agree y) := by
  induction x using Value.tupleInduct with
  | flat x flat => exact fun y dx dy => equals_flat dx.self dy.self flat
  | tuple xs ih =>
    intro y dx dy
    cases y with
    | tuple ys =>
      by_cases same : xs.length = ys.length
      · obtain ⟨b, equal, agree⟩ := equalsAll_decides ih dx.items dy.items same
        refine ⟨b, ?_, agree.trans agree_tuple.symm⟩
        rw [equals, if_pos same, equal]
      · refine ⟨false, ?_, iff_of_false Bool.false_ne_true fun agree =>
          same (agree_tuple.mp agree).length⟩
        rw [equals, if_neg same]
    | _ => exact equals_tuple_flat dy.self (by rintro _ ⟨⟩)

/-- A tuple contains what one of its items equals. -/
theorem anyEquals_decides (e : Engine σ) (ts : InterpreterId) (dx : x.Discrete)
    (dys : ∀ y ∈ ys, y.Discrete) : Decides (anyEquals e ts x ys) (∃ y ∈ ys, y.Agree x) := by
  induction ys with
  | nil => exact ⟨false, rfl, by simp⟩
  | cons y ys ih =>
    rw [List.forall_mem_cons] at dys
    obtain ⟨first, equal, agree⟩ := equals_decides e ts y x dys.1 dx
    obtain ⟨rest, any, agreeAny⟩ := ih dys.2
    refine ⟨first || rest, ?_, ?_⟩
    · rw [anyEquals, equal, pure_bind, any]
      cases first <;> rfl
    · rw [Bool.or_eq_true, agree, agreeAny]
      simp only [List.mem_cons, exists_eq_or_imp]

/-! ### Operators -/

variable {w : World σ} {op : Syntax.BinaryOp} {b : Bool}

/-- The operator gives a truth value and changes nothing. -/
def Answers (e : Engine σ) (ts : InterpreterId) (w : World σ) (op : Syntax.BinaryOp) (x y : Value)
    (b : Bool) : Prop := applyBinary e ts op x y w = .ok (.bool b) w

theorem equal_answers (e : Engine σ) (ts : InterpreterId) (w : World σ) (dx : x.Discrete)
    (dy : y.Discrete) :
    ∃ b, Answers e ts w .equal x y b ∧ Answers e ts w .notEqual x y !b ∧
      (b = true ↔ x.Agree y) := by
  obtain ⟨b, equal, agree⟩ := equals_decides e ts x y dx dy
  refine ⟨b, ?_, ?_, agree⟩
  · show (equals e ts x y >>= _) w = _
    rw [equal]
    rfl
  · show (equals e ts x y >>= _) w = _
    rw [equal]
    rfl

theorem within_answers (e : Engine σ) (ts : InterpreterId) (w : World σ) (dx : x.Discrete)
    (dys : (Value.tuple ys).Discrete) :
    ∃ b, Answers e ts w .within x (.tuple ys) b ∧ (b = true ↔ ∃ y ∈ ys, y.Agree x) := by
  obtain ⟨b, any, agree⟩ := anyEquals_decides e ts dx dys.items
  refine ⟨b, ?_, agree⟩
  show (anyEquals e ts x ys >>= _) w = _
  rw [any]
  rfl

theorem Answers.true_iff (h : Answers e ts w op x y b) : Answers e ts w op x y true ↔ b = true := by
  constructor
  · intro yes
    have both := h.symm.trans yes
    cases both
    rfl
  · rintro rfl
    exact h

/-- Among values without floats that a script makes without the Host, equality is decided, symmetric
and transitive, and `!=` is its negation. A value equals itself, and is found in a tuple that holds
it, exactly if no function, no lambda and no error instance is in it. -/
theorem equality_reflexive_on_data (e : Engine σ) (ts : InterpreterId) (w : World σ)
    (x y z : Value) (ys : List Value)
    (dx : x.Discrete) (dy : y.Discrete) (dz : z.Discrete) (dys : (Value.tuple ys).Discrete) :
    (∃ b, Answers e ts w .equal x y b ∧ Answers e ts w .equal y x b ∧
      Answers e ts w .notEqual x y !b) ∧
    (Answers e ts w .equal x y true → Answers e ts w .equal y z true →
      Answers e ts w .equal x z true) ∧
    (Answers e ts w .equal x x true ↔ x.Data) ∧
    (x ∈ ys → (Answers e ts w .within x (.tuple ys) true ↔ x.Data)) := by
  obtain ⟨xy, equalXY, differXY, agreeXY⟩ := equal_answers e ts w dx dy
  obtain ⟨yx, equalYX, -, agreeYX⟩ := equal_answers e ts w dy dx
  obtain ⟨yz, equalYZ, -, agreeYZ⟩ := equal_answers e ts w dy dz
  obtain ⟨xz, equalXZ, -, agreeXZ⟩ := equal_answers e ts w dx dz
  obtain ⟨xx, equalXX, -, agreeXX⟩ := equal_answers e ts w dx dx
  obtain ⟨found, within, among⟩ := within_answers e ts w dx dys
  have data : x.Agree x ↔ x.Data := x.agree_self_iff.trans (x.key?_isSome_iff dx)
  refine ⟨⟨xy, equalXY, ?_, differXY⟩, fun yesXY yesYZ => ?_, ?_, fun mem => ?_⟩
  · have same : yx = xy := Bool.eq_iff_iff.mpr (agreeYX.trans ⟨.symm, .symm⟩ |>.trans agreeXY.symm)
    rwa [same] at equalYX
  · rw [equalXY.true_iff, agreeXY] at yesXY
    rw [equalYZ.true_iff, agreeYZ] at yesYZ
    rw [equalXZ.true_iff, agreeXZ]
    exact yesXY.trans yesYZ
  · rw [equalXX.true_iff, agreeXX, data]
  · rw [within.true_iff, among, ← data]
    constructor
    · rintro ⟨y, -, agree⟩
      exact agree.symm.trans agree
    · exact fun self => ⟨x, mem, self⟩

/-- Three tuples equal in turn, whose items differ in type, and a function that does not equal
itself and is not found in a tuple that holds it. -/
theorem equality_of_tuples_and_functions : ∃ w : World Unit,
    Answers (.alone 0) ⟨0⟩ w .equal (.tuple [.none, .int 1]) (.tuple [.none, .long 1]) true ∧
    Answers (.alone 0) ⟨0⟩ w .within (.tuple [.none, .int 1]) (.tuple [.tuple [.none, .int 1]])
      true ∧
    ¬Answers (.alone 0) ⟨0⟩ w .equal (.native .print) (.native .print) true ∧
    ¬Answers (.alone 0) ⟨0⟩ w .within (.native .print) (.tuple [.native .print]) true := by
  let w : World Unit := ⟨{}, ()⟩
  obtain ⟨-, chain, -, among⟩ := equality_reflexive_on_data (.alone 0) ⟨0⟩ w
    (.tuple [.none, .int 1]) (.tuple [.none, .bool true]) (.tuple [.none, .long 1])
    [.tuple [.none, .int 1]] rfl rfl rfl rfl
  obtain ⟨-, -, self, within⟩ := equality_reflexive_on_data (.alone 0) ⟨0⟩ w
    (.native .print) .none .none [.native .print] rfl rfl rfl rfl
  refine ⟨w, chain rfl rfl, (among (List.mem_singleton_self _)).mpr rfl, ?_, ?_⟩
  · rw [self]
    exact nofun
  · rw [within (List.mem_singleton_self _)]
    exact nofun

end ScriptBridge.Script
