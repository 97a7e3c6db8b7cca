import ScriptBridge.Script.Interpreter

/-!
# Renaming places

A module is known by the place of its namespace, which depends on what was made before it. Renaming
moves the modules that a value refers to. Whatever is computed from values alone is computed alike
from renamed ones.
-/

namespace ScriptBridge

open Syntax (BinaryOp)

/-! ### Tables -/

namespace Table

variable {α β : Type}

/-- Replaces the values. -/
def map (g : α → β) (t : Table α) : Table β := ⟨t.entries.map fun entry => (entry.1, g entry.2)⟩

theorem findEntry_map (g : α → β) (key : String) (entries : List (String × α)) :
    findEntry key (entries.map fun entry => (entry.1, g entry.2)) =
      (findEntry key entries).map g := by
  induction entries with
  | nil => rfl
  | cons entry rest ih =>
    obtain ⟨k, v⟩ := entry
    simp only [List.map_cons, findEntry]
    split
    · rfl
    · exact ih

@[simp] theorem get?_map (g : α → β) (t : Table α) (key : String) :
    (t.map g).get? key = (t.get? key).map g := findEntry_map g key t.entries

theorem insertEntry_map (g : α → β) (key : String) (value : α) (entries : List (String × α)) :
    insertEntry key (g value) (entries.map fun entry => (entry.1, g entry.2)) =
      (insertEntry key value entries).map fun entry => (entry.1, g entry.2) := by
  induction entries with
  | nil => rfl
  | cons entry rest ih =>
    obtain ⟨k, v⟩ := entry
    simp only [List.map_cons, insertEntry]
    split
    · rfl
    · split
      · rfl
      · rw [List.map_cons, ih]

theorem insert_map (g : α → β) (t : Table α) (key : String) (value : α) :
    (t.map g).insert key (g value) = (t.insert key value).map g :=
  congrArg mk (insertEntry_map g key value t.entries)

theorem erase_map (g : α → β) (t : Table α) (key : String) :
    (t.map g).erase key = (t.erase key).map g := by
  simp only [map, erase, List.filter_map, mk.injEq]
  rfl

@[simp] theorem names_map (g : α → β) (t : Table α) : (t.map g).names = t.names := by
  simp [map, names]

@[simp] theorem values_map (g : α → β) (t : Table α) : (t.map g).values = t.values.map g := by
  simp [map, values]

@[simp] theorem size_map (g : α → β) (t : Table α) : (t.map g).size = t.size := by
  simp [map, size]

@[simp] theorem map_empty (g : α → β) : (({} : Table α)).map g = {} := rfl

@[simp] theorem values_empty : (({} : Table α)).values = [] := rfl

theorem map_congr {g g' : α → β} (t : Table α) (same : ∀ v ∈ t.values, g v = g' v) :
    t.map g = t.map g' := by
  refine congrArg mk (List.map_congr_left fun entry mem => ?_)
  rw [same entry.2 (List.mem_map_of_mem mem)]

theorem map_self {g : α → α} (t : Table α) (same : ∀ v ∈ t.values, g v = v) : t.map g = t := by
  rw [map_congr t (show ∀ v ∈ t.values, g v = id v from same)]
  simp [map]

theorem mem_findEntry {key : String} {value : α} : ∀ {entries : List (String × α)},
    findEntry key entries = some value → (key, value) ∈ entries
  | (k, v) :: rest, found => by
    simp only [findEntry] at found
    split at found
    · next same =>
      cases found
      rw [same]
      exact List.mem_cons_self
    · exact List.mem_cons_of_mem _ (mem_findEntry found)

theorem mem_values {t : Table α} {key : String} {value : α} (found : t.get? key = some value) :
    value ∈ t.values := List.mem_map_of_mem (f := (·.2)) (mem_findEntry found)

theorem mem_insertEntry {key : String} {value : α} {entry : String × α} :
    ∀ {entries : List (String × α)}, entry ∈ insertEntry key value entries →
      entry = (key, value) ∨ entry ∈ entries
  | [], mem => .inl (List.mem_singleton.1 mem)
  | (k, v) :: rest, mem => by
    simp only [insertEntry] at mem
    split at mem
    · grind
    · split at mem
      · grind
      · rcases List.mem_cons.1 mem with rfl | mem
        · exact .inr List.mem_cons_self
        · exact (mem_insertEntry mem).imp_right (List.mem_cons_of_mem _)

theorem mem_values_insert {t : Table α} {key : String} {value v : α}
    (mem : v ∈ (t.insert key value).values) : v = value ∨ v ∈ t.values := by
  obtain ⟨entry, found, rfl⟩ := List.mem_map.1 mem
  rcases mem_insertEntry found with rfl | old
  · exact .inl rfl
  · exact .inr (List.mem_map_of_mem old)

theorem mem_values_erase {t : Table α} {key : String} {v : α} (mem : v ∈ (t.erase key).values) :
    v ∈ t.values := by
  obtain ⟨entry, found, rfl⟩ := List.mem_map.1 mem
  exact List.mem_map_of_mem (List.mem_filter.1 found).1

end Table

/-! ### Values -/

namespace Script

/-- Moves a module to another place. -/
def ModuleRef.rename (move : Nat → Nat) (m : ModuleRef) : ModuleRef :=
  { m with place := move m.place }

@[simp] theorem ModuleRef.rename_place (move : Nat → Nat) (m : ModuleRef) :
    (m.rename move).place = move m.place := rfl

@[simp] theorem ModuleRef.rename_name (move : Nat → Nat) (m : ModuleRef) :
    (m.rename move).name = m.name := rfl

@[simp] theorem ModuleRef.rename_origin (move : Nat → Nat) (m : ModuleRef) :
    (m.rename move).origin = m.origin := rfl

@[simp] theorem ModuleRef.rename_id (m : ModuleRef) : m.rename id = m := rfl

namespace Value

variable {move move' : Nat → Nat}

mutual

/-- Moves the modules that a value refers to. -/
def rename (move : Nat → Nat) : Value → Value
  | .tuple items => .tuple (renameAll move items)
  | .module m => .module (m.rename move)
  | .lambda params body globals => .lambda params body (globals.rename move)
  | other => other

def renameAll (move : Nat → Nat) : List Value → List Value
  | [] => []
  | item :: rest => item.rename move :: renameAll move rest

end

mutual

/-- The modules that a value refers to. -/
def refs : Value → List ModuleRef
  | .tuple items => refsAll items
  | .module m => [m]
  | .lambda _ _ globals => [globals]
  | _ => []

def refsAll : List Value → List ModuleRef
  | [] => []
  | item :: rest => item.refs ++ refsAll rest

end

@[simp] theorem renameAll_eq (items : List Value) : renameAll move items = items.map (rename move) := by
  induction items with
  | nil => rfl
  | cons item rest ih => simp only [renameAll, ih, List.map_cons]

@[simp] theorem refsAll_eq (items : List Value) : refsAll items = items.flatMap refs := by
  induction items with
  | nil => rfl
  | cons item rest ih => simp only [refsAll, ih, List.flatMap_cons]

mutual

/-- Moves that agree on the modules of a value rename it alike. -/
theorem rename_congr : ∀ v : Value, (∀ m ∈ v.refs, move m.place = move' m.place) →
    v.rename move = v.rename move'
  | .tuple items, same => congrArg Value.tuple (renameAll_congr items same)
  | .module m, same => by simp [rename, ModuleRef.rename, same m (by simp [refs])]
  | .lambda _ _ globals, same => by
    simp [rename, ModuleRef.rename, same globals (by simp [refs])]
  | .none, _ | .bool _, _ | .int _, _ | .long _, _ | .float _, _ | .text _, _ | .native _, _
  | .errorType _, _ | .errorInstance _ _, _ | .foreign _, _ => rfl

theorem renameAll_congr : ∀ items : List Value,
    (∀ m ∈ refsAll items, move m.place = move' m.place) →
      renameAll move items = renameAll move' items
  | [], _ => rfl
  | item :: rest, same => by
    rw [renameAll, renameAll, rename_congr item fun m mem => same m (List.mem_append_left _ mem),
      renameAll_congr rest fun m mem => same m (List.mem_append_right _ mem)]

end

mutual

@[simp] theorem rename_id : ∀ v : Value, v.rename id = v
  | .tuple items => congrArg Value.tuple (renameAll_id items)
  | .module _ | .lambda _ _ _ | .none | .bool _ | .int _ | .long _ | .float _ | .text _
  | .native _ | .errorType _ | .errorInstance _ _ | .foreign _ => rfl

theorem renameAll_id : ∀ items : List Value, renameAll id items = items
  | [] => rfl
  | item :: rest => by rw [renameAll, rename_id item, renameAll_id rest]

end

mutual

/-- A plain value refers to no module. -/
theorem refs_plain : ∀ v : Value, v.isPlain = true → v.refs = []
  | .tuple items, plain => refsAll_plain items plain
  | .module _, plain | .lambda _ _ _, plain => nomatch plain
  | .none, _ | .bool _, _ | .int _, _ | .long _, _ | .float _, _ | .text _, _ | .native _, _
  | .errorType _, _ | .errorInstance _ _, _ | .foreign _, _ => rfl

theorem refsAll_plain : ∀ items : List Value, arePlain items = true → refsAll items = []
  | [], _ => rfl
  | item :: rest, plain => by
    obtain ⟨first, others⟩ := Bool.and_eq_true_iff.mp plain
    rw [refsAll, refs_plain item first, refsAll_plain rest others, List.append_nil]

end

/-- A value without modules stays as it is. -/
theorem rename_bare {v : Value} (bare : v.refs = []) : v.rename move = v := by
  have same : ∀ m ∈ v.refs, move m.place = id m.place := by simp [bare]
  rw [rename_congr v same, rename_id]

/-! ### What is computed from values -/

@[simp] theorem typeName_rename (v : Value) : (v.rename move).typeName = v.typeName := by
  cases v <;> rfl

@[simp] theorem truthy_rename (v : Value) : (v.rename move).truthy = v.truthy := by
  cases v with
  | tuple items => simp [rename, truthy]
  | _ => rfl

theorem text_of_rename {v : Value} {a : String} (same : v.rename move = .text a) : v = .text a := by
  cases v <;> cases same
  rfl

theorem int_of_rename {v : Value} {a : Int64} (same : v.rename move = .int a) : v = .int a := by
  cases v <;> cases same
  rfl

theorem tuple_of_rename {v : Value} {items : List Value} (same : v.rename move = .tuple items) :
    ∃ items', v = .tuple items' := by
  cases v <;> cases same
  exact ⟨_, rfl⟩

@[simp] theorem isNone_rename (v : Value) : (v.rename move).isNone = v.isNone := by
  cases v <;> rfl

@[simp] theorem number?_rename (v : Value) : (v.rename move).number? = v.number? := by
  cases v <;> rfl

mutual

@[simp] theorem repr?_rename : ∀ v : Value, (v.rename move).repr? = v.repr?
  | .tuple items => congrArg (Option.map tupleText) (reprs?_renameAll items)
  | .module _ | .lambda _ _ _ | .none | .bool _ | .int _ | .long _ | .float _ | .text _
  | .native _ | .errorType _ | .foreign _ => rfl
  | .errorInstance _ message => by cases message <;> rfl

theorem reprs?_renameAll : ∀ items : List Value, reprs? (renameAll move items) = reprs? items
  | [] => rfl
  | item :: rest => by rw [renameAll, reprs?, repr?_rename item, reprs?_renameAll rest, reprs?]

end

@[simp] theorem text?_rename (v : Value) : (v.rename move).text? = v.text? := by
  cases v with
  | tuple items => exact repr?_rename (.tuple items)
  | _ => rfl

end Value

variable {move : Nat → Nat}

@[simp] theorem sameNumber_rename (left right : Value) :
    sameNumber (left.rename move) (right.rename move) = sameNumber left right := by
  simp [sameNumber]

@[simp] theorem wholeIndex?_rename (v : Value) : wholeIndex? (v.rename move) = wholeIndex? v := by
  cases v <;> rfl

theorem toInteger_rename (v : Value) : toInteger (v.rename move) = toInteger v := by
  cases v <;> rfl

theorem toFloat_rename (v : Value) : toFloat (v.rename move) = toFloat v := by
  cases v <;> rfl

theorem negative_rename (v : Value) : negative (v.rename move) = negative v := by
  cases v <;> rfl

/-- What is not two texts is compared by numbers. -/
theorem order_numbers {op : BinaryOp} {l r : Value}
    (other : ∀ a b, l = .text a → r = .text b → False) :
    order op l r = match l.number?, r.number? with
      | some a, some b =>
        match a.whole?, b.whole? with
        | some x, some y => .ok (some (compare x.toInt y.toInt))
        | _, _ => .ok (floatOrder a.toFloat b.toFloat)
      | _, _ => .error (.notOrdered op l.typeName r.typeName) :=
  (order.eq_2 _ _ _ other).trans rfl

theorem order_rename (op : BinaryOp) (left right : Value) :
    order op (left.rename move) (right.rename move) = order op left right := by
  cases left with
  | text a =>
    cases right with
    | text b => rfl
    | _ => rw [order_numbers (by rintro _ _ - ⟨⟩), order_numbers (by rintro _ _ - ⟨⟩)]; rfl
  | _ => rw [order_numbers (by rintro _ _ ⟨⟩), order_numbers (by rintro _ _ ⟨⟩)]; simp

/-! ### Results that are plain -/

theorem plain_of_map {α : Type} {x : Except Fault α} {make : α → Value} {v : Value}
    (found : x.map make = .ok v) (plain : ∀ a, (make a).isPlain = true) : v.isPlain = true := by
  cases x with
  | error => cases found
  | ok a =>
    cases found
    exact plain a

theorem numberOp_plain {op : BinaryOp} {a b : Number} {v : Value}
    (found : numberOp op a b = .ok v) : v.isPlain = true := by
  cases a <;> cases b <;> exact plain_of_map found fun _ => rfl

theorem negative_plain {operand v : Value} (found : negative operand = .ok v) :
    v.isPlain = true := by
  cases operand with
  | int _ | long _ => exact plain_of_map found fun _ => rfl
  | bool _ | float _ => cases found; rfl
  | _ => cases found

theorem comparison_plain {op : BinaryOp} {left right v : Value}
    (found : comparison op left right = .ok v) : v.isPlain = true :=
  plain_of_map found fun _ => rfl

/-- A result without modules is the same after renaming. -/
theorem map_rename_bare {x : Except Fault Value} (bare : ∀ v, x = .ok v → v.refs = []) :
    x.map (Value.rename move) = x := by
  cases x with
  | error => rfl
  | ok v => exact congrArg Except.ok (Value.rename_bare (bare v rfl))

/-- Operands that only count as numbers still do after renaming. -/
theorem arithmetic_plain {op : BinaryOp} {left right : Value}
    (texts : ∀ a b, op = .add → left = .text a → right = .text b → False)
    (tuples : ∀ a b, op = .add → left = .tuple a → right = .tuple b → False)
    (first : ∀ a n, op = .multiply → left = .text a → right = .int n → False)
    (second : ∀ n a, op = .multiply → left = .int n → right = .text a → False) :
    arithmetic op (left.rename move) (right.rename move) =
      match left.number?, right.number? with
      | some a, some b => numberOp op a b
      | _, _ => .error (.badOperands op left.typeName right.typeName) := by
  rw [arithmetic.eq_5]
  · simp only [Value.number?_rename, Value.typeName_rename] <;> rfl
  · exact fun a b add l r => texts a b add (Value.text_of_rename l) (Value.text_of_rename r)
  · intro a b add l r
    obtain ⟨a', l⟩ := Value.tuple_of_rename l
    obtain ⟨b', r⟩ := Value.tuple_of_rename r
    exact tuples a' b' add l r
  · exact fun a n times l r => first a n times (Value.text_of_rename l) (Value.int_of_rename r)
  · exact fun n a times l r => second n a times (Value.int_of_rename l) (Value.text_of_rename r)

theorem arithmetic_rename (op : BinaryOp) (left right : Value) :
    arithmetic op (left.rename move) (right.rename move) =
      (arithmetic op left right).map (Value.rename move) := by
  fun_cases arithmetic op left right with
  | case1 a b => rfl
  | case2 a b =>
    show Except.ok (Value.tuple _) = Except.ok (Value.tuple _)
    simp
  | case3 text count =>
    exact (map_rename_bare fun v found => v.refs_plain (plain_of_map found fun _ => rfl)).symm
  | case4 count text =>
    exact (map_rename_bare fun v found => v.refs_plain (plain_of_map found fun _ => rfl)).symm
  | case5 op left right texts tuples first second a b rightNumber leftNumber =>
    rw [arithmetic_plain texts tuples first second, leftNumber, rightNumber]
    exact (map_rename_bare fun v found => v.refs_plain (numberOp_plain found)).symm
  | case6 op left right texts tuples first second notNumbers =>
    rw [arithmetic_plain texts tuples first second]
    split
    · exact (notNumbers _ _ ‹_› ‹_›).elim
    · rfl

theorem arithmetic_refs {op : BinaryOp} {left right v : Value}
    (found : arithmetic op left right = .ok v) : ∀ m ∈ v.refs, m ∈ left.refs ∨ m ∈ right.refs := by
  have of_bare : v.refs = [] → ∀ m ∈ v.refs, m ∈ left.refs ∨ m ∈ right.refs := by
    intro bare m mem
    rw [bare] at mem
    cases mem
  revert found of_bare
  fun_cases arithmetic op left right with
  | case1 a b => exact fun found of_bare => of_bare (by cases found; rfl)
  | case2 a b =>
    intro found _ m mem
    cases found
    simpa [Value.refs, or_and_right, exists_or] using mem
  | case3 | case4 => exact fun found of_bare => of_bare (v.refs_plain (plain_of_map found fun _ => rfl))
  | case5 => exact fun found of_bare => of_bare (v.refs_plain (numberOp_plain found))
  | case6 => exact fun found => nomatch found

end Script
end ScriptBridge
