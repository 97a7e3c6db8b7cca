import ScriptBridge.Proofs.Discipline.Imports

/-!
# Evaluation keeps the discipline

The evaluator does the same over engines that do the same. Its own part is small: it counts how
deep it is, binds names, and tries steps whose error it replaces or traces.
-/

namespace ScriptBridge

open Host (ClassId ObjectId Realm Body HostM Method)
open Bridge (World State BridgeM)
open Script (InterpreterId Raised ModuleRef Exception Engine Scope Interpreter)
open Syntax (Expr)

/-- The engines do the same in calm states, and keep the discipline. -/
structure Discipline.Engines {C : Course} (D : Discipline C) (e e' : Engine State) : Prop where
  body : ∀ ts scope expr,
    D.Keeps (D.raises ts) (e.body ts scope expr) (e'.body ts scope expr) fun _ => True
  getAttr : ∀ ts f name,
    D.Keeps (D.raises ts) (e.getAttr ts f name) (e'.getAttr ts f name) fun _ => True
  setAttr : ∀ ts f name value,
    D.Keeps (D.raises ts) (e.setAttr ts f name value) (e'.setAttr ts f name value) fun _ => True
  getItem : ∀ ts f index,
    D.Keeps (D.raises ts) (e.getItem ts f index) (e'.getItem ts f index) fun _ => True
  setItem : ∀ ts f index value,
    D.Keeps (D.raises ts) (e.setItem ts f index value) (e'.setItem ts f index value) fun _ => True
  length : ∀ ts f, D.Keeps (D.raises ts) (e.length ts f) (e'.length ts f) fun _ => True
  contains : ∀ ts f item,
    D.Keeps (D.raises ts) (e.contains ts f item) (e'.contains ts f item) fun _ => True
  call : ∀ ts f args,
    D.Keeps (D.raises ts) (e.call ts f args) (e'.call ts f args) fun _ => True
  number : ∀ ts f, D.Keeps (D.raises ts) (e.number ts f) (e'.number ts f) fun _ => True
  text : ∀ ts f, D.Keeps (D.raises ts) (e.text ts f) (e'.text ts f) fun _ => True
  equals : ∀ ts f other,
    D.Keeps (D.raises ts) (e.equals ts f other) (e'.equals ts f other) fun _ => True
  attrNames : ∀ f, e.attrNames f = e'.attrNames f ∧ Quiet D.allowed (e.attrNames f)
  extension : ∀ ts function args,
    D.Keeps (D.raises ts) (e.extension ts function args) (e'.extension ts function args)
      fun _ => True
  settle : e.settle = e'.settle ∧ Quiet D.allowed e.settle ∧ Bridge.Tidies e.settle

namespace Discipline

variable {C : Course} {D : Discipline C} {ε α β : Type} {Q : α → Prop} {ts : InterpreterId}

/-! ### Counting -/

theorem guarded_keeps {count : Interpreter → Nat} {set : Nat → Interpreter → Interpreter}
    (same : ∀ n i, ((set n i).number, (set n i).runtime, (set n i).error) =
      (i.number, i.runtime, i.error)) (limit : Nat) (fault : Script.Fault) {step step' : BridgeM α}
    (h : D.Keeps (D.raises ts) step step' Q) :
    D.Keeps (D.raises ts) (Script.guarded ts count set limit fault step)
      (Script.guarded ts count set limit fault step') Q := by
  intro w hw
  have shifted : ∀ (f : Nat → Nat) (w : World), Background D.allowed w
      (w.onMemory (·.onInterpreter ts fun i => set (f (count i)) i)) := fun f w =>
    .of_memory rfl (tracked_onInterpreter (fun i => same _ i) ts w.memory)
  have counted : ∀ (f : Nat → Nat) (w : World), Bridge.Aftermath w
      (w.onMemory (·.onInterpreter ts fun i => set (f (count i)) i)) := fun f w =>
    .onInterpreter ts (fun i => congrArg Prod.fst (same _ i)) w
  simp only [Script.guarded]
  by_cases deep : limit ≤ count (w.memory.interpreter ts)
  · rw [if_pos deep, if_pos deep]
    exact Keeps.raise (Q := Q) fault w hw
  · rw [if_neg deep, if_neg deep]
    have still : ∀ g (v : World), C.onward v (v.onMemory g) := fun _ _ => C.same rfl
    obtain ⟨agree, onward, reached⟩ := h _ (D.calm_of_background (shifted (· + 1) w) hw)
    cases stepped : step (w.onMemory (·.onInterpreter ts fun i => set (count i + 1) i)) with
    | ok a w' =>
      rw [stepped] at agree onward reached
      refine ⟨fun left => ?_, C.trans (C.trans (still _ w) onward) (still _ w'), reached.1,
        D.calm_of_background (shifted (· - 1) w') reached.2⟩
      rw [← agree (left ∘ C.gone (still _ w'))]
    | error e w' =>
      rw [stepped] at agree onward reached
      refine ⟨fun left => ?_, C.trans (C.trans (still _ w) onward) (still _ w'),
        D.raised_of_background (shifted (· - 1) w') (counted (· - 1) w') reached⟩
      rw [← agree (left ∘ C.gone (still _ w'))]

theorem nested_keeps {step step' : BridgeM α} (h : D.Keeps (D.raises ts) step step' Q) :
    D.Keeps (D.raises ts) (Script.nested ts step) (Script.nested ts step') Q := by
  refine guarded_keeps ?_ _ _ h
  exact fun _ _ => rfl

theorem inCall_keeps {step step' : BridgeM α} (h : D.Keeps (D.raises ts) step step' Q) :
    D.Keeps (D.raises ts) (Script.inCall ts step) (Script.inCall ts step') Q := by
  refine guarded_keeps ?_ _ _ h
  exact fun _ _ => rfl

/-! ### Steps without an engine -/

theorem lookupName_keeps (scope : Scope) (name : String) :
    D.Keeps (D.raises ts) (scope.lookup ts name : BridgeM Script.Value) (scope.lookup ts name)
      fun _ => True := by
  unfold Scope.lookup
  split
  · exact .pure trivial
  · refine .quiet (.lookup? _ _) fun found => ?_
    cases found with
    | some value => exact .pure trivial
    | none =>
      refine .quiet (.getInterpreter ts) fun i => .quiet (.lookup? _ _) fun found => ?_
      cases found with
      | some value => exact .pure trivial
      | none => exact .raise _

theorem raiseValue_keeps (value : Script.Value) :
    D.Keeps (D.raises ts) (Script.raiseValue ts value : BridgeM Unit) (Script.raiseValue ts value)
      fun _ => True := by
  unfold Script.raiseValue
  split
  · exact .raiseException (.inr rfl)
  · exact .raiseException (.inr rfl)
  · exact .raise _

theorem raiseSyntax_keeps (file : String) (error : Syntax.SyntaxError) :
    D.Keeps (D.raises ts) (Script.raiseSyntax ts file error : BridgeM α)
      (Script.raiseSyntax ts file error) Q := by
  refine .raiseException (.inr ?_)
  split <;> rfl

theorem compile_keeps (source : String) (mode : Script.Mode) (file : String) :
    D.Keeps (D.raises ts) (Script.compile ts source mode file : BridgeM Script.Code)
      (Script.compile ts source mode file) fun _ => True := by
  unfold Script.compile
  split
  · split
    · exact .pure trivial
    · exact raiseSyntax_keeps _ _
  · split
    · exact .pure trivial
    · exact raiseSyntax_keeps _ _

variable {e e' : Engine State}

/-! ### The object protocol -/

mutual

theorem valuesEqual_keeps (h : D.Engines e e') (left right : Script.Value) :
    D.Keeps (D.raises ts) (Script.equals e ts left right) (Script.equals e' ts left right)
      fun _ => True := by
  unfold Script.equals
  split
  · exact h.equals ts _ _
  · exact .pure trivial
  · exact .pure trivial
  · exact .ite (fun _ => allEqual_keeps h _ _) fun _ => .pure trivial
  · exact .pure trivial
  · exact .pure trivial
  · exact h.equals ts _ _
  · exact .pure trivial
termination_by sizeOf left

theorem allEqual_keeps (h : D.Engines e e') (left right : List Script.Value) :
    D.Keeps (D.raises ts) (Script.equalsAll e ts left right) (Script.equalsAll e' ts left right)
      fun _ => True := by
  unfold Script.equalsAll
  split
  · refine .seq (valuesEqual_keeps h _ _) fun same => ?_
    exact .ite (fun _ => allEqual_keeps h _ _) fun _ => .pure trivial
  · exact .pure trivial
termination_by sizeOf left

end

variable (h : D.Engines e e')

include h

theorem repr_keeps (value : Script.Value) :
    D.Keeps (D.raises ts) (Script.repr e ts value) (Script.repr e' ts value) fun _ => True := by
  unfold Script.repr
  split
  · exact h.text ts _
  · exact ownText_keeps _

theorem valueText_keeps (value : Script.Value) :
    D.Keeps (D.raises ts) (Script.toText e ts value) (Script.toText e' ts value)
      fun _ => True := by
  unfold Script.toText
  split
  · exact h.text ts _
  · exact ownText_keeps _

theorem numericView_keeps (value : Script.Value) :
    D.Keeps (D.raises ts) (Script.numericView e ts value) (Script.numericView e' ts value)
      fun _ => True := by
  unfold Script.numericView
  split
  · exact .seq (h.number ts _) fun _ => .pure trivial
  · exact .pure trivial

theorem anyEquals_keeps (item : Script.Value) (candidates : List Script.Value) :
    D.Keeps (D.raises ts) (Script.anyEquals e ts item candidates)
      (Script.anyEquals e' ts item candidates) fun _ => True := by
  induction candidates with
  | nil => exact .pure trivial
  | cons candidate rest ih =>
    refine .seq (valuesEqual_keeps h _ _) fun same => ?_
    exact .ite (fun _ => .pure trivial) fun _ => ih

theorem valueContains_keeps (container item : Script.Value) :
    D.Keeps (D.raises ts) (Script.contains e ts container item)
      (Script.contains e' ts container item) fun _ => True := by
  unfold Script.contains
  split
  · split
    · exact .pure trivial
    · exact .raise _
  · exact anyEquals_keeps h _ _
  · split
    · exact .quiet (.lookup? _ _) fun _ => .pure trivial
    · exact .pure trivial
  · exact h.contains ts _ _
  · exact .raise _

theorem valueAttr_keeps (object : Script.Value) (name : String) :
    D.Keeps (D.raises ts) (Script.getAttr e ts object name) (Script.getAttr e' ts object name)
      fun _ => True := by
  unfold Script.getAttr
  split
  · refine .quiet (.lookup? _ _) fun found => ?_
    cases found with
    | some value => exact .pure trivial
    | none => exact .raise _
  · exact h.getAttr ts _ _
  · exact .ite (fun _ => .pure trivial) fun _ => .raise _
  · exact .ite (fun _ => .pure trivial) fun _ => .raise _
  · exact .raise _

theorem setValueAttr_keeps (object : Script.Value) (name : String) (value : Script.Value) :
    D.Keeps (D.raises ts) (Script.setAttr e ts object name value)
      (Script.setAttr e' ts object name value) fun _ => True := by
  unfold Script.setAttr
  split
  · exact .of_quiet (.bindName _ _ _)
  · exact h.setAttr ts _ _ _
  · exact .raise _

theorem valueItem_keeps (object index : Script.Value) :
    D.Keeps (D.raises ts) (Script.getItem e ts object index) (Script.getItem e' ts object index)
      fun _ => True := by
  unfold Script.getItem
  split
  · exact .seq (resolveIndex_keeps _ _) fun _ => .pure trivial
  · exact .seq (resolveIndex_keeps _ _) fun _ => .pure trivial
  · exact h.getItem ts _ _
  · exact .raise _

theorem setValueItem_keeps (object index value : Script.Value) :
    D.Keeps (D.raises ts) (Script.setItem e ts object index value)
      (Script.setItem e' ts object index value) fun _ => True := by
  unfold Script.setItem
  split
  · exact h.setItem ts _ _ _
  · exact .raise _

theorem valueLength_keeps (object : Script.Value) :
    D.Keeps (D.raises ts) (Script.length e ts object) (Script.length e' ts object)
      fun _ => True := by
  unfold Script.length
  split
  · exact .pure trivial
  · exact .pure trivial
  · exact .quiet .getMemory fun _ => .pure trivial
  · exact h.length ts _
  · exact .raise _

/-! ### Native functions -/

theorem toTexts_keeps (values : List Script.Value) :
    D.Keeps (D.raises ts) (Script.toTexts e ts values) (Script.toTexts e' ts values)
      fun _ => True := by
  induction values with
  | nil => exact .pure trivial
  | cons value rest ih =>
    exact .seq (valueText_keeps h _) fun _ => .seq ih fun _ => .pure trivial

theorem valueAttrNames_quiet (value : Script.Value) :
    Script.attrNames e value = Script.attrNames e' value ∧
      Quiet D.allowed (Script.attrNames e value) := by
  unfold Script.attrNames
  split
  · exact ⟨rfl, .bind .getMemory fun _ => .pure _⟩
  · exact h.attrNames _
  · exact ⟨rfl, .pure _⟩

theorem callNative_keeps (function : Script.Native) (args : List Script.Value) :
    D.Keeps (D.raises ts) (Script.callNative e ts function args)
      (Script.callNative e' ts function args) fun _ => True := by
  cases function with
  | defaultImport => exact defaultImport_keeps args
  | print =>
    exact .seq (toTexts_keeps h args) fun _ => .quiet (.printText _) fun _ => .pure trivial
  | str => exact .seq .orRaise fun _ => .seq (valueText_keeps h _) fun _ => .pure trivial
  | repr => exact .seq .orRaise fun _ => .seq (repr_keeps h _) fun _ => .pure trivial
  | len => exact .seq .orRaise fun _ => .seq (valueLength_keeps h _) fun _ => .pure trivial
  | bool => exact .seq .orRaise fun _ => .pure trivial
  | int =>
    exact .seq .orRaise fun _ => .seq (numericView_keeps h _) fun _ => .seq .orRaise fun _ =>
      .pure trivial
  | long => exact .seq .orRaise fun _ => .pure trivial
  | float =>
    exact .seq .orRaise fun _ => .seq (numericView_keeps h _) fun _ => .seq .orRaise fun _ =>
      .pure trivial
  | dir =>
    refine .seq .orRaise fun value => ?_
    obtain ⟨same, quiet⟩ := valueAttrNames_quiet h value
    rw [← same]
    exact .quiet quiet fun _ => .pure trivial
  | math => exact .seq .orRaise fun _ => .pure trivial
  | extension function => exact h.extension ts function args

/-! ### Expressions -/

theorem callValue_keeps (callee : Script.Value) (args : List Script.Value) :
    D.Keeps (D.raises ts) (Script.call e ts callee args) (Script.call e' ts callee args)
      fun _ => True := by
  unfold Script.call
  split
  · exact callNative_keeps h _ _
  · exact .ite (fun _ => inCall_keeps (h.body ts _ _)) fun _ => .raise _
  · split
    · exact .pure trivial
    · exact .seq (valueText_keeps h _) fun _ => .pure trivial
  · exact h.call ts _ _
  · exact .raise _

theorem applyUnary_keeps (op : Syntax.UnaryOp) (operand : Script.Value) :
    D.Keeps (D.raises ts) (Script.applyUnary e ts op operand) (Script.applyUnary e' ts op operand)
      fun _ => True := by
  cases op with
  | not => exact .pure trivial
  | negate => exact .seq (numericView_keeps h _) fun _ => .orRaise

theorem applyBinary_keeps (op : Syntax.BinaryOp) (left right : Script.Value) :
    D.Keeps (D.raises ts) (Script.applyBinary e ts op left right)
      (Script.applyBinary e' ts op left right) fun _ => True := by
  cases op with
  | equal | notEqual => exact .seq (valuesEqual_keeps h _ _) fun _ => .pure trivial
  | within | notWithin => exact .seq (valueContains_keeps h _ _) fun _ => .pure trivial
  | less | greater | lessEqual | greaterEqual | add | subtract | multiply | divide | modulo =>
    exact .seq (numericView_keeps h _) fun _ => .seq (numericView_keeps h _) fun _ => .orRaise

end Discipline
end ScriptBridge
