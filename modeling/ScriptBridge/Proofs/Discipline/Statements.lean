import ScriptBridge.Proofs.Discipline.Evaluation

/-!
# Statements keep the discipline

By induction on expressions and on programs. A failing statement is settled and traced while its
error is pending.
-/

namespace ScriptBridge

open Bridge (World State BridgeM)
open Script (InterpreterId Raised ModuleRef Engine Scope)
open Syntax (Expr)

namespace Discipline

variable {C : Course} {D : Discipline C} {α β : Type} {Q : α → Prop} {ts : InterpreterId}
  {e e' : Engine State}

/-! ### Expressions -/

mutual

theorem eval_keeps (h : D.Engines e e') (scope : Scope) : ∀ expr : Expr,
    D.Keeps (D.raises ts) (Script.eval e ts scope expr) (Script.eval e' ts scope expr)
      fun _ => True
  | .literal value => by
    simp only [Script.eval]
    exact nested_keeps (.pure trivial)
  | .name word => by
    simp only [Script.eval]
    exact nested_keeps (lookupName_keeps _ _)
  | .tuple items => by
    simp only [Script.eval]
    exact nested_keeps (.seq (evalAll_keeps h scope items) fun _ => .pure trivial)
  | .attr object member => by
    simp only [Script.eval]
    exact nested_keeps (.seq (eval_keeps h scope object) fun _ => valueAttr_keeps h _ _)
  | .call callee args => by
    simp only [Script.eval]
    exact nested_keeps (.seq (eval_keeps h scope callee) fun _ =>
      .seq (evalAll_keeps h scope args) fun _ => callValue_keeps h _ _)
  | .index object key => by
    simp only [Script.eval]
    exact nested_keeps (.seq (eval_keeps h scope object) fun _ =>
      .seq (eval_keeps h scope key) fun _ => valueItem_keeps h _ _)
  | .unary op operand => by
    simp only [Script.eval]
    exact nested_keeps (.seq (eval_keeps h scope operand) fun _ => applyUnary_keeps h _ _)
  | .binary op left right => by
    simp only [Script.eval]
    exact nested_keeps (.seq (eval_keeps h scope left) fun _ =>
      .seq (eval_keeps h scope right) fun _ => applyBinary_keeps h _ _ _)
  | .logical op left right => by
    simp only [Script.eval]
    exact nested_keeps (.seq (eval_keeps h scope left) fun _ =>
      .ite (fun _ => eval_keeps h scope right) fun _ => .pure trivial)
  | .lambda params body => by
    simp only [Script.eval]
    exact nested_keeps (.pure trivial)

theorem evalAll_keeps (h : D.Engines e e') (scope : Scope) : ∀ items : List Expr,
    D.Keeps (D.raises ts) (Script.evalAll e ts scope items) (Script.evalAll e' ts scope items)
      fun _ => True
  | [] => .pure trivial
  | item :: rest => .seq (eval_keeps h scope item) fun _ => .seq (evalAll_keeps h scope rest) fun _ =>
      .pure trivial

end

variable (h : D.Engines e e')

include h

/-! ### Imports -/

theorem importModule_keeps (globals : ModuleRef) (path : String) (fromList : Script.Value) :
    D.Keeps (D.raises ts) (Script.importModule e ts globals path fromList)
      (Script.importModule e' ts globals path fromList) fun _ => True := by
  refine .quiet (.getInterpreter ts) fun i => .quiet (.lookup? _ _) fun entry => ?_
  cases entry with
  | some entry => exact callValue_keeps h _ _
  | none => exact .raise _

theorem foreignEntries_keeps (object : Script.Foreign) (names : List String) :
    D.Keeps (D.raises ts) (Script.foreignEntries e ts object names)
      (Script.foreignEntries e' ts object names) fun _ => True := by
  induction names with
  | nil => exact .pure trivial
  | cons name rest ih =>
    exact .seq (h.getAttr ts _ _) fun _ => .seq ih fun _ => .pure trivial

theorem starEntries_keeps (module : Script.Value) :
    D.Keeps (D.raises ts) (Script.starEntries e ts module) (Script.starEntries e' ts module)
      fun _ => True := by
  unfold Script.starEntries
  split
  · exact .of_quiet (.publicEntries _)
  · rename_i object
    obtain ⟨same, quiet⟩ := h.attrNames object
    rw [← same]
    exact .quiet quiet fun _ => foreignEntries_keeps h _ _
  · exact .raise _

theorem importedName_keeps (module : Script.Value) (name : String) :
    D.Keeps (D.raises ts) (Script.importedName e ts module name)
      (Script.importedName e' ts module name) fun _ => True := by
  refine .attempt (valueAttr_keeps h module name) (fun _ _ => .pure trivial) fun raised => ?_
  refine raised_quiet (.errorIsA ts _) (errorIsA_tidies _) fun missing => ?_
  cases missing with
  | true => exact raiseException_raised (.inr rfl)
  | false => exact raised_throw raised

theorem bindImported_keeps (globals : ModuleRef) (module : Script.Value)
    (names : List (String × Option String)) :
    D.Keeps (D.raises ts) (Script.bindImported e ts globals module names)
      (Script.bindImported e' ts globals module names) fun _ => True := by
  induction names with
  | nil => exact .pure trivial
  | cons name rest ih =>
    exact .seq (importedName_keeps h _ _) fun _ => .quiet (.bindName _ _ _) fun _ => ih

theorem fromImport_keeps (globals : ModuleRef) (path : String) (names : Syntax.ImportNames) :
    D.Keeps (D.raises ts) (Script.fromImport e ts globals path names)
      (Script.fromImport e' ts globals path names) fun _ => True := by
  refine .seq (importModule_keeps h _ _ _) fun module => ?_
  cases names with
  | all => exact .seq (starEntries_keeps h _) fun _ => .of_quiet (.bindAll _ _)
  | listed names => exact bindImported_keeps h _ _ _

/-! ### Statements -/

theorem assign_keeps (globals : ModuleRef) (target : Syntax.Target) (value : Script.Value) :
    D.Keeps (D.raises ts) (Script.assign e ts globals target value)
      (Script.assign e' ts globals target value) fun _ => True := by
  cases target with
  | name word => exact .of_quiet (.bindName _ _ _)
  | attr object member =>
    exact .seq (eval_keeps h _ _) fun _ => setValueAttr_keeps h _ _ _
  | index object key =>
    exact .seq (eval_keeps h _ _) fun _ => .seq (eval_keeps h _ _) fun _ =>
      setValueItem_keeps h _ _ _

theorem execute_keeps (globals : ModuleRef) (mode : Script.Mode) (statement : Syntax.Statement) :
    D.Keeps (D.raises ts) (Script.execute e ts globals mode statement)
      (Script.execute e' ts globals mode statement) fun _ => True := by
  cases statement with
  | expr expr =>
    refine .seq (eval_keeps h _ _) fun value => .ite (fun _ => ?_) fun _ => .pure trivial
    exact .seq (repr_keeps h _) fun _ => .of_quiet (.printText _)
  | assign target value => exact .seq (eval_keeps h _ _) fun _ => assign_keeps h _ _ _
  | imports path newName =>
    exact .seq (importModule_keeps h _ _ _) fun _ => .of_quiet (.bindName _ _ _)
  | fromImport path names => exact fromImport_keeps h _ _ _
  | raise value =>
    cases value with
    | none => exact .raise _
    | some value => exact .seq (eval_keeps h _ _) fun _ => raiseValue_keeps _
  | pass => exact .pure trivial

omit h in
/-- A line is added to the trace of the pending error. -/
theorem raised_trace {file : String} {line : Nat} {e : Raised} :
    Agree C (D.raised ts)
      (do
        Script.pushTrace ts file line
        MonadExcept.throw e : BridgeM α)
      (do
        Script.pushTrace ts file line
        MonadExcept.throw e) (fun a w => Q a ∧ D.calm w) (D.raises ts) := by
  intro w hw
  exact .still rfl (D.trace file line hw)

theorem executeAll_keeps (globals : ModuleRef) (mode : Script.Mode) (file : String)
    (program : Syntax.Program) :
    D.Keeps (D.raises ts) (Script.executeAll e ts globals mode file program)
      (Script.executeAll e' ts globals mode file program) fun _ => True := by
  obtain ⟨same, quiet, tidies⟩ := h.settle
  induction program with
  | nil => exact .pure trivial
  | cons entry rest ih =>
    unfold Script.executeAll
    rw [← same]
    refine .attempt (execute_keeps h _ _ _) (fun _ _ => .quiet quiet fun _ => ih) fun raised => ?_
    exact raised_quiet quiet tidies fun _ => raised_trace

theorem execSource_keeps (source : String) (mode : Script.Mode) (file : String)
    (globals : ModuleRef) :
    D.Keeps (D.raises ts) (Script.execSource e ts source mode file globals)
      (Script.execSource e' ts source mode file globals) fun _ => True := by
  refine .seq (compile_keeps _ _ _) fun code => ?_
  cases code with
  | expression value => exact eval_keeps h _ _
  | statements mode file program =>
    exact .seq (executeAll_keeps h _ _ _ _) fun _ => .pure trivial

end Discipline
end ScriptBridge
