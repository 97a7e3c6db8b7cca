import ScriptBridge.Proofs.Isolation.Memory

/-!
# The object protocol keeps pace

Asking values that are held keeps pace, as do built-in functions, when nothing foreign is met.
Modules are compared by their places, which are told apart in both memories alike.
-/

namespace ScriptBridge.Isolation.Pairing

open Script (Value ModuleRef Interpreter InterpreterId RuntimeId Memory World ScriptM Exception
  Fault Raised Scope Engine)
open Syntax (Expr)

variable {σ : Type} {π : Pairing} {ts : InterpreterId} {v : Value} {items : List Value}
  {body : InterpreterId → Scope → Expr → ScriptM σ Value}

/-! ### Held values -/

theorem holds_bare (bare : v.refs = []) : π.Holds v := by
  intro m mem
  rw [bare] at mem
  cases mem

theorem holds_tuple : π.Holds (.tuple items) ↔ ∀ item ∈ items, π.Holds item := by
  simp only [Holds, Value.refs, Value.refsAll_eq, List.mem_flatMap]
  exact ⟨fun h item mem m hm => h m ⟨item, mem, hm⟩, fun h m ⟨item, mem, hm⟩ => h item mem m hm⟩

theorem holds_module {m : ModuleRef} : π.Holds (.module m) ↔ π.held m := by
  simp [Holds, Value.refs]

theorem holds_lambda {params : List String} {expr : Expr} {m : ModuleRef} :
    π.Holds (.lambda params expr m) ↔ π.held m := by
  simp [Holds, Value.refs]

theorem same_bare (bare : v.refs = []) : π.Same v v := ⟨(Value.rename_bare bare).symm, holds_bare bare⟩

/-- Lists of values, item by item. -/
def SameAll (π : Pairing) (items items' : List Value) : Prop :=
  items' = items.map (·.rename π.move) ∧ ∀ item ∈ items, π.Holds item

theorem same_tuple {items' : List Value} (same : π.SameAll items items') :
    π.Same (.tuple items) (.tuple items') := by
  refine ⟨?_, holds_tuple.2 same.2⟩
  rw [same.1, Value.rename, Value.renameAll_eq]

namespace Lockstep

/-! ### Texts and numbers -/

theorem repr_closed (v : Value) : Script.repr (Engine.closed body) ts v =
    match v.repr? with
    | some text => Pure.pure text
    | none => Script.giveUp := by
  cases v <;> rfl

theorem repr (v : Value) :
    π.Lockstep ts Eq (Script.repr (Engine.closed body) ts v)
      (Script.repr (Engine.closed body) ts (v.rename π.move)) := by
  rw [repr_closed, repr_closed, Value.repr?_rename]
  cases v.repr? with
  | some text => exact .pure rfl
  | none => exact .giveUp

theorem toText_closed (v : Value) : Script.toText (Engine.closed body) ts v =
    match v.text? with
    | some text => Pure.pure text
    | none => Script.giveUp := by
  cases v <;> rfl

theorem toText (v : Value) :
    π.Lockstep ts Eq (Script.toText (Engine.closed body) ts v)
      (Script.toText (Engine.closed body) ts (v.rename π.move)) := by
  rw [toText_closed, toText_closed, Value.text?_rename]
  cases v.text? with
  | some text => exact .pure rfl
  | none => exact .giveUp

theorem toTexts (items : List Value) :
    π.Lockstep ts Eq (Script.toTexts (Engine.closed body) ts items)
      (Script.toTexts (Engine.closed body) ts (items.map (·.rename π.move))) := by
  induction items with
  | nil => exact .pure rfl
  | cons item rest ih => exact .bindEq (.toText item) fun _ => .bindEq ih fun _ => .pure rfl

theorem numericView (hv : π.Holds v) :
    π.Lockstep ts π.Same (Script.numericView (Engine.closed body) ts v)
      (Script.numericView (Engine.closed body) ts (v.rename π.move)) := by
  cases v with
  | foreign object => exact .bind (R := fun _ _ => False) .giveUp fun _ _ never => never.elim
  | _ => exact .pure ⟨rfl, hv⟩

/-! ### Equality and membership -/

mutual

theorem equals : ∀ l r : Value, π.Holds l → π.Holds r →
    π.Lockstep ts Eq (Script.equals (Engine.closed body) ts l r)
      (Script.equals (Engine.closed body) ts (l.rename π.move) (r.rename π.move))
  | .foreign _, _, _, _ => .giveUp
  | .tuple a, r, hl, hr => by
    cases r with
    | tuple b =>
      simp only [Value.rename, Script.equals]
      rw [Value.renameAll_eq, Value.renameAll_eq, List.length_map, List.length_map]
      split
      · rw [← Value.renameAll_eq, ← Value.renameAll_eq]
        exact equalsAll a b (holds_tuple.1 hl) (holds_tuple.1 hr)
      · exact .pure rfl
    | foreign _ => exact .giveUp
    | _ => exact .pure rfl
  | .module a, r, hl, hr => by
    cases r with
    | module b =>
      intro w w' abreast
      refine ⟨?_, abreast, .refl ts w.memory⟩
      have places : π.move a.place = π.move b.place ↔ a.place = b.place :=
        ⟨fun same => congrArg _ (abreast.alike.apart a b (holds_module.1 hl) (holds_module.1 hr) same),
          congrArg π.move⟩
      rw [Bool.eq_iff_iff, beq_iff_eq, beq_iff_eq]
      exact places.symm
    | foreign _ => exact .giveUp
    | _ => exact .pure rfl
  | .none, r, _, _ | .bool _, r, _, _ | .int _, r, _, _ | .long _, r, _, _ | .float _, r, _, _
  | .text _, r, _, _ | .native _, r, _, _ | .lambda _ _ _, r, _, _ | .errorType _, r, _, _
  | .errorInstance _ _, r, _, _ => by
    cases r with
    | foreign _ => exact .giveUp
    | _ => exact .pure rfl

theorem equalsAll : ∀ l r : List Value, (∀ x ∈ l, π.Holds x) → (∀ y ∈ r, π.Holds y) →
    π.Lockstep ts Eq (Script.equalsAll (Engine.closed body) ts l r)
      (Script.equalsAll (Engine.closed body) ts (Value.renameAll π.move l)
        (Value.renameAll π.move r))
  | [], _, _, _ => .pure rfl
  | _ :: _, [], _, _ => .pure rfl
  | x :: xs, y :: ys, hl, hr => by
    refine .bindEq (equals x y (hl x List.mem_cons_self) (hr y List.mem_cons_self)) fun same => ?_
    cases same with
    | true =>
      exact equalsAll xs ys (fun z hz => hl z (List.mem_cons_of_mem _ hz))
        fun z hz => hr z (List.mem_cons_of_mem _ hz)
    | false => exact .pure rfl

end

theorem anyEquals (hv : π.Holds v) : ∀ items : List Value, (∀ item ∈ items, π.Holds item) →
    π.Lockstep ts Eq (Script.anyEquals (Engine.closed body) ts v items)
      (Script.anyEquals (Engine.closed body) ts (v.rename π.move) (items.map (·.rename π.move)))
  | [], _ => .pure rfl
  | item :: rest, hold => by
    refine .bindEq (equals item v (hold item List.mem_cons_self) hv) fun same => ?_
    cases same with
    | true => exact .pure rfl
    | false => exact anyEquals hv rest fun x hx => hold x (List.mem_cons_of_mem _ hx)

theorem contains (mine : π.compared ts) {item : Value} (hv : π.Holds v) (hi : π.Holds item) :
    π.Lockstep ts Eq (Script.contains (Engine.closed body) ts v item)
      (Script.contains (Engine.closed body) ts (v.rename π.move) (item.rename π.move)) := by
  cases v with
  | text text =>
    cases item with
    | text needle => exact .pure rfl
    | _ => exact .raise mine _
  | tuple items =>
    simp only [Value.rename, Value.renameAll_eq]
    exact anyEquals hi items (holds_tuple.1 hv)
  | module m =>
    cases item with
    | text name =>
      refine .bind (.lookup (holds_module.1 hv) name) fun found _ same => .pure ?_
      rw [same.1, Option.isSome_map]
    | _ => exact .pure rfl
  | foreign object => exact .giveUp
  | _ => exact .raise mine _

/-! ### Attributes and items -/

theorem getAttr (mine : π.compared ts) (hv : π.Holds v) (name : String) :
    π.Lockstep ts π.Same (Script.getAttr (Engine.closed body) ts v name)
      (Script.getAttr (Engine.closed body) ts (v.rename π.move) name) := by
  cases v with
  | module m =>
    refine .bind (.lookup (holds_module.1 hv) name) fun found _ same => ?_
    rw [same.1]
    cases found with
    | some u => exact .pure ⟨rfl, same.2 u rfl⟩
    | none => exact .raise mine _
  | foreign object => exact .giveUp
  | errorType type =>
    simp only [Value.rename, Script.getAttr]
    split
    · exact .pure (same_bare rfl)
    · exact .raise mine _
  | errorInstance type message =>
    simp only [Value.rename, Script.getAttr]
    split
    · cases message <;> exact .pure (same_bare rfl)
    · exact .raise mine _
  | _ => exact .raise mine _

theorem setAttr (mine : π.compared ts) {u : Value} (hv : π.Holds v) (name : String)
    (hu : π.Holds u) :
    π.Lockstep ts Eq (Script.setAttr (Engine.closed body) ts v name u)
      (Script.setAttr (Engine.closed body) ts (v.rename π.move) name (u.rename π.move)) := by
  cases v with
  | module m => exact .bindName (holds_module.1 hv) name hu
  | foreign object => exact .giveUp
  | _ => exact .raise mine _

theorem resolveIndex (mine : π.compared ts) (index : Value) (length : Nat) :
    π.Lockstep ts Eq (Script.resolveIndex ts index length : ScriptM σ Nat)
      (Script.resolveIndex ts (index.rename π.move) length) := by
  simp only [Script.resolveIndex, Script.wholeIndex?_rename, Value.typeName_rename]
  split
  · exact .raise mine _
  · split
    · exact .pure rfl
    · exact .raise mine _

theorem getItem (mine : π.compared ts) (hv : π.Holds v) (index : Value) :
    π.Lockstep ts π.Same (Script.getItem (Engine.closed body) ts v index)
      (Script.getItem (Engine.closed body) ts (v.rename π.move) (index.rename π.move)) := by
  cases v with
  | tuple items =>
    simp only [Value.rename, Value.renameAll_eq, Script.getItem, List.length_map]
    refine .bindEq (.resolveIndex mine index items.length) fun place => .pure ?_
    rw [List.getD_eq_getElem?_getD, List.getD_eq_getElem?_getD, List.getElem?_map]
    cases found : items[place]? with
    | some item => exact ⟨rfl, holds_tuple.1 hv item (List.mem_of_getElem? found)⟩
    | none => exact same_bare rfl
  | text text =>
    exact .bindEq (.resolveIndex mine index text.length) fun place => .pure (same_bare rfl)
  | foreign object => exact .giveUp
  | _ => exact .raise mine _

theorem setItem (mine : π.compared ts) (v index u : Value) :
    π.Lockstep ts Eq (Script.setItem (Engine.closed body) ts v index u)
      (Script.setItem (Engine.closed body) ts (v.rename π.move) (index.rename π.move)
        (u.rename π.move)) := by
  cases v with
  | foreign object => exact .giveUp
  | _ => exact .raise mine _

theorem length (mine : π.compared ts) (hv : π.Holds v) :
    π.Lockstep ts Eq (Script.length (Engine.closed body) ts v)
      (Script.length (Engine.closed body) ts (v.rename π.move)) := by
  cases v with
  | text text => exact .pure rfl
  | tuple items =>
    simp only [Value.rename, Value.renameAll_eq, Script.length, List.length_map]
    exact .pure rfl
  | module m =>
    refine .read fun m₁ m₂ alike => ?_
    rw [alike.contents m (holds_module.1 hv), Table.size_map]
  | foreign object => exact .giveUp
  | _ => exact .raise mine _

end Lockstep
end ScriptBridge.Isolation.Pairing
