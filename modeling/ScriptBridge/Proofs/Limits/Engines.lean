import ScriptBridge.Proofs.Limits.Parallel

/-!
# Engines side by side

What the script side asks of values keeps pace over engines that do. Bodies of lambdas are left out
here; nothing but a call reaches them.
-/

namespace ScriptBridge.Script.Comparison

variable {σ σ' : Type}

/-- The engines keep pace, bodies of lambdas aside. -/
structure Engines (C : Comparison σ σ') (ts : InterpreterId) (e : Engine σ) (e' : Engine σ') :
    Prop where
  getAttr : ∀ {d n} f name, C.Pace ts d n (e.getAttr ts f name) (e'.getAttr ts f name)
  setAttr : ∀ {d n} f name value,
    C.Pace ts d n (e.setAttr ts f name value) (e'.setAttr ts f name value)
  getItem : ∀ {d n} f index, C.Pace ts d n (e.getItem ts f index) (e'.getItem ts f index)
  setItem : ∀ {d n} f index value,
    C.Pace ts d n (e.setItem ts f index value) (e'.setItem ts f index value)
  length : ∀ {d n} f, C.Pace ts d n (e.length ts f) (e'.length ts f)
  contains : ∀ {d n} f item, C.Pace ts d n (e.contains ts f item) (e'.contains ts f item)
  call : ∀ {d n} f args, C.Pace ts d n (e.call ts f args) (e'.call ts f args)
  number : ∀ {d n} f, C.Pace ts d n (e.number ts f) (e'.number ts f)
  text : ∀ {d n} f, C.Pace ts d n (e.text ts f) (e'.text ts f)
  equals : ∀ {d n} f other, C.Pace ts d n (e.equals ts f other) (e'.equals ts f other)
  attrNames : ∀ {d n} f, C.Pace ts d n (e.attrNames f) (e'.attrNames f)
  extension : ∀ {d n} function args,
    C.Pace ts d n (e.extension ts function args) (e'.extension ts function args)
  settle : ∀ {d n}, C.Pace ts d n e.settle e'.settle

variable {C : Comparison σ σ'} {ts : InterpreterId} {d n : Nat}

/-- Without anything foreign, engines keep pace. -/
theorem Engines.closed (body : InterpreterId → Scope → Syntax.Expr → ScriptM σ Value)
    (body' : InterpreterId → Scope → Syntax.Expr → ScriptM σ' Value) :
    C.Engines ts (.closed body) (.closed body') where
  getAttr _ _ := .giveUp
  setAttr _ _ _ := .giveUp
  getItem _ _ := .giveUp
  setItem _ _ _ := .giveUp
  length _ := .giveUp
  contains _ _ := .giveUp
  call _ _ := .giveUp
  number _ := .giveUp
  text _ := .giveUp
  equals _ _ := .giveUp
  attrNames _ := .giveUp
  extension _ _ := .giveUp
  settle := .drop

/-- Any engine keeps pace with one that gives up on whatever is foreign, if nothing is said about
runs after a failure. -/
theorem Engines.lenient (h : C.lenient)
    (body : InterpreterId → Scope → Syntax.Expr → ScriptM σ Value) {e' : Engine σ'}
    (settle : ∀ {d n}, C.Pace ts d n (Script.modifyMemory fun m => { m with released := [] })
      e'.settle) : C.Engines ts (.closed body) e' where
  getAttr _ _ := .lenient h fun _ => ⟨_, rfl⟩
  setAttr _ _ _ := .lenient h fun _ => ⟨_, rfl⟩
  getItem _ _ := .lenient h fun _ => ⟨_, rfl⟩
  setItem _ _ _ := .lenient h fun _ => ⟨_, rfl⟩
  length _ := .lenient h fun _ => ⟨_, rfl⟩
  contains _ _ := .lenient h fun _ => ⟨_, rfl⟩
  call _ _ := .lenient h fun _ => ⟨_, rfl⟩
  number _ := .lenient h fun _ => ⟨_, rfl⟩
  text _ := .lenient h fun _ => ⟨_, rfl⟩
  equals _ _ := .lenient h fun _ => ⟨_, rfl⟩
  attrNames _ := .lenient h fun _ => ⟨_, rfl⟩
  extension _ _ := .lenient h fun _ => ⟨_, rfl⟩
  settle := settle

namespace Pace

/-! ### Steps without an engine -/

theorem lookupName (scope : Scope) (name : String) :
    C.Pace ts d n (scope.lookup ts name : ScriptM σ Value) (scope.lookup ts name) := by
  unfold Scope.lookup
  split
  · exact .pure _
  · refine .bind (.lookup _ _) fun found => ?_
    cases found with
    | some value => exact .pure _
    | none =>
      refine .bind .interpreter fun i => .bind (.lookup _ _) fun found => ?_
      cases found with
      | some value => exact .pure _
      | none => exact .raise _

theorem raiseValue (value : Value) :
    C.Pace ts d n (Script.raiseValue ts value : ScriptM σ Unit) (Script.raiseValue ts value) := by
  unfold Script.raiseValue
  split
  · exact .raiseException _
  · exact .raiseException _
  · exact .raise _

theorem compile (source : String) (mode : Mode) (file : String) :
    C.Pace ts d n (Script.compile ts source mode file : ScriptM σ Code)
      (Script.compile ts source mode file) := by
  unfold Script.compile
  split
  · split
    · exact .pure _
    · exact .raiseException _
  · split
    · exact .pure _
    · exact .raiseException _

theorem ownText (text : Option String) :
    C.Pace ts d n
      (match text with
        | some text => Pure.pure text
        | none => Script.giveUp : ScriptM σ String)
      (match text with
        | some text => Pure.pure text
        | none => Script.giveUp) := by
  cases text with
  | some text => exact .pure _
  | none => exact .giveUp

theorem resolveIndex (index : Value) (length : Nat) :
    C.Pace ts d n (Script.resolveIndex ts index length : ScriptM σ Nat)
      (Script.resolveIndex ts index length) := by
  unfold Script.resolveIndex
  split
  · exact .raise _
  · split
    · exact .pure _
    · exact .raise _

theorem nativeImport (path : String) :
    C.Pace ts d n (Script.nativeImport ts path : ScriptM σ Value)
      (Script.nativeImport ts path) := by
  refine .bind .interpreter fun i => .look fun m m' fits => ?_
  rw [Memory.runtime, Memory.runtime, fits.runtimes]
  dsimp only
  split
  · exact .pure _
  · exact .bind (.modifyInterpreter (fun _ => rfl) (fun _ => rfl) fun _ => rfl) fun _ => .pure _
  · exact .raise _

theorem defaultImport (args : List Value) :
    C.Pace ts d n (Script.defaultImport ts args : ScriptM σ Value)
      (Script.defaultImport ts args) :=
  .bind (.orRaise _) fun path => .nativeImport path

end Pace

/-! ### The object protocol -/

namespace Engines

variable {e : Engine σ} {e' : Engine σ'}

mutual

theorem valuesEqual (h : C.Engines ts e e') (left right : Value) :
    C.Pace ts d n (Script.equals e ts left right) (Script.equals e' ts left right) := by
  unfold Script.equals
  split
  · exact h.equals _ _
  · exact .pure _
  · exact .pure _
  · split
    · exact allEqual h _ _
    · exact .pure _
  · exact .pure _
  · exact .pure _
  · exact h.equals _ _
  · exact .pure _
termination_by sizeOf left

theorem allEqual (h : C.Engines ts e e') (left right : List Value) :
    C.Pace ts d n (Script.equalsAll e ts left right) (Script.equalsAll e' ts left right) := by
  unfold Script.equalsAll
  split
  · refine .bind (valuesEqual h _ _) fun same => ?_
    split
    · exact allEqual h _ _
    · exact .pure _
  · exact .pure _
termination_by sizeOf left

end

variable (h : C.Engines ts e e')

include h

theorem repr (value : Value) :
    C.Pace ts d n (Script.repr e ts value) (Script.repr e' ts value) := by
  unfold Script.repr
  split
  · exact h.text _
  · exact .ownText _

theorem valueText (value : Value) :
    C.Pace ts d n (Script.toText e ts value) (Script.toText e' ts value) := by
  unfold Script.toText
  split
  · exact h.text _
  · exact .ownText _

theorem numericView (value : Value) :
    C.Pace ts d n (Script.numericView e ts value) (Script.numericView e' ts value) := by
  unfold Script.numericView
  split
  · exact .bind (h.number _) fun _ => .pure _
  · exact .pure _

theorem anyEquals (item : Value) (candidates : List Value) :
    C.Pace ts d n (Script.anyEquals e ts item candidates)
      (Script.anyEquals e' ts item candidates) := by
  induction candidates with
  | nil => exact .pure _
  | cons candidate rest ih =>
    refine .bind (h.valuesEqual _ _) fun same => ?_
    split
    · exact .pure _
    · exact ih

theorem valueContains (container item : Value) :
    C.Pace ts d n (Script.contains e ts container item)
      (Script.contains e' ts container item) := by
  unfold Script.contains
  split
  · split
    · exact .pure _
    · exact .raise _
  · exact h.anyEquals _ _
  · split
    · exact .bind (.lookup _ _) fun _ => .pure _
    · exact .pure _
  · exact h.contains _ _
  · exact .raise _

theorem valueAttr (object : Value) (name : String) :
    C.Pace ts d n (Script.getAttr e ts object name) (Script.getAttr e' ts object name) := by
  unfold Script.getAttr
  split
  · refine .bind (.lookup _ _) fun found => ?_
    cases found with
    | some value => exact .pure _
    | none => exact .raise _
  · exact h.getAttr _ _
  · split
    · exact .pure _
    · exact .raise _
  · split
    · exact .pure _
    · exact .raise _
  · exact .raise _

theorem setValueAttr (object : Value) (name : String) (value : Value) :
    C.Pace ts d n (Script.setAttr e ts object name value)
      (Script.setAttr e' ts object name value) := by
  unfold Script.setAttr
  split
  · exact .bindName _ _ _
  · exact h.setAttr _ _ _
  · exact .raise _

theorem valueItem (object index : Value) :
    C.Pace ts d n (Script.getItem e ts object index) (Script.getItem e' ts object index) := by
  unfold Script.getItem
  split
  · exact .bind (.resolveIndex _ _) fun _ => .pure _
  · exact .bind (.resolveIndex _ _) fun _ => .pure _
  · exact h.getItem _ _
  · exact .raise _

theorem setValueItem (object index value : Value) :
    C.Pace ts d n (Script.setItem e ts object index value)
      (Script.setItem e' ts object index value) := by
  unfold Script.setItem
  split
  · exact h.setItem _ _ _
  · exact .raise _

theorem valueLength (object : Value) :
    C.Pace ts d n (Script.length e ts object) (Script.length e' ts object) := by
  unfold Script.length
  split
  · exact .pure _
  · exact .pure _
  · refine .look fun m m' fits => ?_
    rw [Memory.namespaceOf, Memory.namespaceOf, fits.namespaces]
    exact .pure _
  · exact h.length _
  · exact .raise _

/-! ### Native functions -/

theorem toTexts (values : List Value) :
    C.Pace ts d n (Script.toTexts e ts values) (Script.toTexts e' ts values) := by
  induction values with
  | nil => exact .pure _
  | cons value rest ih => exact .bind (h.valueText _) fun _ => .bind ih fun _ => .pure _

theorem valueAttrNames (value : Value) :
    C.Pace ts d n (Script.attrNames e value) (Script.attrNames e' value) := by
  unfold Script.attrNames
  split
  · refine .look fun m m' fits => ?_
    rw [Memory.namespaceOf, Memory.namespaceOf, fits.namespaces]
    exact .pure _
  · exact h.attrNames _
  · exact .pure _

theorem callNative (function : Native) (args : List Value) :
    C.Pace ts d n (Script.callNative e ts function args)
      (Script.callNative e' ts function args) := by
  cases function with
  | defaultImport => exact .defaultImport args
  | print =>
    exact .bind (h.toTexts args) fun _ => .bind (.printLine _) fun _ => .pure _
  | str => exact .bind (.orRaise _) fun _ => .bind (h.valueText _) fun _ => .pure _
  | repr => exact .bind (.orRaise _) fun _ => .bind (h.repr _) fun _ => .pure _
  | len => exact .bind (.orRaise _) fun _ => .bind (h.valueLength _) fun _ => .pure _
  | bool => exact .bind (.orRaise _) fun _ => .pure _
  | int =>
    exact .bind (.orRaise _) fun _ => .bind (h.numericView _) fun _ => .bind (.orRaise _) fun _ =>
      .pure _
  | long => exact .bind (.orRaise _) fun _ => .pure _
  | float =>
    exact .bind (.orRaise _) fun _ => .bind (h.numericView _) fun _ => .bind (.orRaise _) fun _ =>
      .pure _
  | dir => exact .bind (.orRaise _) fun _ => .bind (h.valueAttrNames _) fun _ => .pure _
  | math => exact .bind (.orRaise _) fun _ => .pure _
  | extension function => exact h.extension function args

/-! ### Operators and names of modules -/

theorem applyUnary (op : Syntax.UnaryOp) (operand : Value) :
    C.Pace ts d n (Script.applyUnary e ts op operand) (Script.applyUnary e' ts op operand) := by
  cases op with
  | not => exact .pure _
  | negate => exact .bind (h.numericView _) fun _ => .orRaise _

theorem applyBinary (op : Syntax.BinaryOp) (left right : Value) :
    C.Pace ts d n (Script.applyBinary e ts op left right)
      (Script.applyBinary e' ts op left right) := by
  cases op with
  | equal | notEqual => exact .bind (h.valuesEqual _ _) fun _ => .pure _
  | within | notWithin => exact .bind (h.valueContains _ _) fun _ => .pure _
  | less | greater | lessEqual | greaterEqual | add | subtract | multiply | divide | modulo =>
    exact .bind (h.numericView _) fun _ => .bind (h.numericView _) fun _ => .orRaise _

theorem foreignEntries (object : Foreign) (names : List String) :
    C.Pace ts d n (Script.foreignEntries e ts object names)
      (Script.foreignEntries e' ts object names) := by
  induction names with
  | nil => exact .pure _
  | cons name rest ih => exact .bind (h.getAttr _ _) fun _ => .bind ih fun _ => .pure _

theorem starEntries (module : Value) :
    C.Pace ts d n (Script.starEntries e ts module) (Script.starEntries e' ts module) := by
  unfold Script.starEntries
  split
  · exact .publicEntries _
  · exact .bind (h.attrNames _) fun _ => h.foreignEntries _ _
  · exact .raise _

theorem importedName (module : Value) (name : String) :
    C.Pace ts d n (Script.importedName e ts module name)
      (Script.importedName e' ts module name) := by
  refine .attempt (h.valueAttr _ _) (fun r => ?_) fun x v => ?_
  · cases r with
    | ok value => exact .pure _
    | error raised =>
      refine .bind (.errorIsA _) fun missing => ?_
      split
      · exact .raise _
      · exact .throw _
  · simp only [Bind.bind, EStateM.bind, Script.errorIsA, Script.getInterpreter]
    split
    · split <;> exact ⟨_, _, rfl⟩
    · exact ⟨_, _, rfl⟩

theorem bindImported (globals : ModuleRef) (module : Value)
    (names : List (String × Option String)) :
    C.Pace ts d n (Script.bindImported e ts globals module names)
      (Script.bindImported e' ts globals module names) := by
  induction names with
  | nil => exact .pure _
  | cons entry rest ih =>
    exact .bind (h.importedName _ _) fun _ => .bind (.bindName _ _ _) fun _ => ih

end Engines
end ScriptBridge.Script.Comparison
