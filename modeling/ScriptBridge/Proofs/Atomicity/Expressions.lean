import ScriptBridge.Script.Interpreter

/-!
# Expressions bind nothing

A step binds nothing if it ends with the namespaces it began with, whether it succeeds or fails.
Reading, printing, raising and counting bind nothing, and so does every expression if what it asks
of the engine does not. The engine for scripts that meet nothing foreign is such an engine at every
depth of calls.
-/

namespace ScriptBridge.Script

open Syntax (Expr BinaryOp UnaryOp)

variable {σ ε ε' α β : Type} {e : Engine σ} {ts : InterpreterId}

/-- The namespaces of all modules that a step ends with. -/
def endBindings : EStateM.Result ε (World σ) α → Array (Table Value)
  | .ok _ w => w.memory.namespaces
  | .error _ w => w.memory.namespaces

/-- The step ends with the bindings it began with. -/
def BindsNothing (step : EStateM ε (World σ) α) : Prop :=
  ∀ w, endBindings (step w) = w.memory.namespaces

namespace BindsNothing

/-! ### Rules -/

theorem pure (a : α) : BindsNothing (pure a : EStateM ε (World σ) α) := fun _ => rfl

theorem throw (raised : ε) : BindsNothing (throw raised : EStateM ε (World σ) α) := fun _ => rfl

theorem bind {step : EStateM ε (World σ) α} {next : α → EStateM ε (World σ) β}
    (first : BindsNothing step) (second : ∀ a, BindsNothing (next a)) :
    BindsNothing (step >>= next) := by
  intro w
  have here := first w
  cases ended : step w with
  | ok a v =>
    rw [ended] at here
    rw [bind_ok ended, second a v]
    exact here
  | error raised v =>
    rw [ended] at here
    rw [bind_error ended]
    exact here

theorem attempt {step : EStateM ε (World σ) α} (h : BindsNothing step) :
    BindsNothing (attempt step : EStateM ε' (World σ) (Except ε α)) := by
  intro w
  have here := h w
  simp only [Script.attempt]
  cases ended : step w with
  | ok a v =>
    rw [ended] at here
    exact here
  | error raised v =>
    rw [ended] at here
    exact here

theorem read (look : Memory → α) :
    BindsNothing (do return look (← getMemory) : EStateM ε (World σ) α) := fun _ => rfl

theorem modifyMemory {change : Memory → Memory}
    (same : ∀ m, (change m).namespaces = m.namespaces) :
    BindsNothing (modifyMemory change : EStateM ε (World σ) Unit) := fun w => same w.memory

theorem guarded {count : Interpreter → Nat} {set : Nat → Interpreter → Interpreter} {limit : Nat}
    {fault : Fault} {step : ScriptM σ α} (h : BindsNothing step) :
    BindsNothing (guarded ts count set limit fault step) := by
  intro w
  simp only [Script.guarded]
  split
  · rfl
  · have inside := h (w.onMemory (·.onInterpreter ts fun i => set (count i + 1) i))
    split <;> rename_i ended <;> rw [ended] at inside <;> exact inside

theorem nested {step : ScriptM σ α} (h : BindsNothing step) : BindsNothing (nested ts step) :=
  .guarded h

/-! ### Steps of the memory -/

theorem interpreter : BindsNothing (getInterpreter ts : EStateM ε (World σ) Interpreter) :=
  .read (·.interpreter ts)

theorem modifyInterpreter (f : Interpreter → Interpreter) :
    BindsNothing (modifyInterpreter ts f : EStateM ε (World σ) Unit) :=
  .modifyMemory fun _ => rfl

theorem raiseException (exception : Exception) :
    BindsNothing (raiseException ts exception : ScriptM σ α) :=
  .bind (.modifyInterpreter _) fun _ => .throw _

theorem raise (fault : Fault) : BindsNothing (raise ts fault : ScriptM σ α) :=
  .raiseException fault.exception

theorem giveUp : BindsNothing (giveUp : ScriptM σ α) :=
  .bind (.modifyMemory fun _ => rfl) fun _ => .throw _

theorem orRaise (outcome : Except Fault α) : BindsNothing (orRaise ts outcome : ScriptM σ α) := by
  cases outcome with
  | ok a => exact .pure a
  | error fault => exact .raise fault

theorem lookup (m : ModuleRef) (name : String) :
    BindsNothing (lookup? m name : EStateM ε (World σ) (Option Value)) :=
  .read fun memory => (memory.namespaceOf m).get? name

theorem printLine (line : String) :
    BindsNothing (printLine line : EStateM ε (World σ) Unit) :=
  .modifyMemory fun _ => rfl

end BindsNothing

/-! ### Engines -/

/-- Whatever is asked of the engine, it binds nothing. -/
structure Engine.BindsNothing (e : Engine σ) : Prop where
  body : ∀ ts scope expr, Script.BindsNothing (e.body ts scope expr)
  getAttr : ∀ ts f name, Script.BindsNothing (e.getAttr ts f name)
  setAttr : ∀ ts f name value, Script.BindsNothing (e.setAttr ts f name value)
  getItem : ∀ ts f index, Script.BindsNothing (e.getItem ts f index)
  setItem : ∀ ts f index value, Script.BindsNothing (e.setItem ts f index value)
  length : ∀ ts f, Script.BindsNothing (e.length ts f)
  contains : ∀ ts f item, Script.BindsNothing (e.contains ts f item)
  call : ∀ ts f args, Script.BindsNothing (e.call ts f args)
  number : ∀ ts f, Script.BindsNothing (e.number ts f)
  text : ∀ ts f, Script.BindsNothing (e.text ts f)
  equals : ∀ ts f other, Script.BindsNothing (e.equals ts f other)
  attrNames : ∀ f, Script.BindsNothing (e.attrNames f)
  extension : ∀ ts extension args, Script.BindsNothing (e.extension ts extension args)

namespace BindsNothing

/-! ### The object protocol -/

theorem repr (he : e.BindsNothing) (value : Value) : BindsNothing (repr e ts value) := by
  unfold Script.repr
  split
  · exact he.text ts _
  · split
    · exact .pure _
    · exact .giveUp

theorem toText (he : e.BindsNothing) (value : Value) : BindsNothing (toText e ts value) := by
  unfold Script.toText
  split
  · exact he.text ts _
  · split
    · exact .pure _
    · exact .giveUp

theorem toTexts (he : e.BindsNothing) (values : List Value) :
    BindsNothing (toTexts e ts values) := by
  induction values with
  | nil => exact .pure _
  | cons value rest ih => exact .bind (.toText he value) fun _ => .bind ih fun _ => .pure _

theorem numericView (he : e.BindsNothing) (value : Value) :
    BindsNothing (numericView e ts value) := by
  unfold Script.numericView
  split
  · exact .bind (he.number ts _) fun _ => .pure _
  · exact .pure _

mutual

theorem equals (he : e.BindsNothing) (left right : Value) :
    BindsNothing (equals e ts left right) := by
  unfold Script.equals
  split
  · exact he.equals ts _ _
  · exact .pure _
  · exact .pure _
  · split
    · exact equalsAll he _ _
    · exact .pure _
  · exact .pure _
  · exact .pure _
  · exact he.equals ts _ _
  · exact .pure _

theorem equalsAll (he : e.BindsNothing) (left right : List Value) :
    BindsNothing (equalsAll e ts left right) := by
  unfold Script.equalsAll
  split
  · refine .bind (equals he _ _) fun same => ?_
    split
    · exact equalsAll he _ _
    · exact .pure _
  · exact .pure _

end

theorem anyEquals (he : e.BindsNothing) (item : Value) (values : List Value) :
    BindsNothing (anyEquals e ts item values) := by
  induction values with
  | nil => exact .pure _
  | cons value rest ih =>
    refine .bind (.equals he value item) fun same => ?_
    split
    · exact .pure _
    · exact ih

theorem contains (he : e.BindsNothing) (container item : Value) :
    BindsNothing (contains e ts container item) := by
  unfold Script.contains
  split
  · split
    · exact .pure _
    · exact .raise _
  · exact .anyEquals he item _
  · split
    · exact .bind (.lookup _ _) fun _ => .pure _
    · exact .pure _
  · exact he.contains ts _ item
  · exact .raise _

theorem getAttr (he : e.BindsNothing) (object : Value) (name : String) :
    BindsNothing (getAttr e ts object name) := by
  unfold Script.getAttr
  split
  · refine .bind (.lookup _ name) fun found => ?_
    cases found with
    | some value => exact .pure value
    | none => exact .raise _
  · exact he.getAttr ts _ name
  · split
    · exact .pure _
    · exact .raise _
  · split
    · exact .pure _
    · exact .raise _
  · exact .raise _

theorem resolveIndex (index : Value) (length : Nat) :
    BindsNothing (resolveIndex ts index length : ScriptM σ Nat) := by
  unfold Script.resolveIndex
  split
  · exact .raise _
  · split
    · exact .pure _
    · exact .raise _

theorem getItem (he : e.BindsNothing) (object index : Value) :
    BindsNothing (getItem e ts object index) := by
  unfold Script.getItem
  split
  · exact .bind (.resolveIndex index _) fun _ => .pure _
  · exact .bind (.resolveIndex index _) fun _ => .pure _
  · exact he.getItem ts _ index
  · exact .raise _

theorem length (he : e.BindsNothing) (object : Value) : BindsNothing (length e ts object) := by
  unfold Script.length
  split
  · exact .pure _
  · exact .pure _
  · exact .read _
  · exact he.length ts _
  · exact .raise _

/-! ### Built-in functions -/

theorem nativeImport (path : String) : BindsNothing (nativeImport ts path : ScriptM σ Value) := by
  refine .bind .interpreter fun i => .bind (.read id) fun m => ?_
  dsimp only
  split
  · exact .pure _
  · exact .bind (.modifyInterpreter _) fun _ => .pure _
  · exact .raise _

theorem attrNames (he : e.BindsNothing) (value : Value) : BindsNothing (attrNames e value) := by
  unfold Script.attrNames
  split
  · exact .read _
  · exact he.attrNames _
  · exact .pure _

theorem callNative (he : e.BindsNothing) (function : Native) (args : List Value) :
    BindsNothing (callNative e ts function args) := by
  cases function with
  | defaultImport => exact .bind (.orRaise _) fun path => .nativeImport path
  | print => exact .bind (.toTexts he args) fun _ => .bind (.printLine _) fun _ => .pure _
  | str => exact .bind (.orRaise _) fun value => .bind (.toText he value) fun _ => .pure _
  | repr => exact .bind (.orRaise _) fun value => .bind (.repr he value) fun _ => .pure _
  | len => exact .bind (.orRaise _) fun value => .bind (.length he value) fun _ => .pure _
  | bool => exact .bind (.orRaise _) fun _ => .pure _
  | int =>
    exact .bind (.orRaise _) fun value => .bind (.numericView he value) fun _ =>
      .bind (.orRaise _) fun _ => .pure _
  | long => exact .bind (.orRaise _) fun _ => .pure _
  | float =>
    exact .bind (.orRaise _) fun value => .bind (.numericView he value) fun _ =>
      .bind (.orRaise _) fun _ => .pure _
  | dir => exact .bind (.orRaise _) fun value => .bind (.attrNames he value) fun _ => .pure _
  | math function => exact .bind (.orRaise _) fun _ => .pure _
  | extension function => exact he.extension ts function args

/-! ### Expressions -/

theorem scopeLookup (scope : Scope) (name : String) :
    BindsNothing (scope.lookup ts name : ScriptM σ Value) := by
  unfold Scope.lookup
  split
  · exact .pure _
  · refine .bind (.lookup _ _) fun found => ?_
    split
    · exact .pure _
    · refine .bind .interpreter fun i => .bind (.lookup _ _) fun found => ?_
      split
      · exact .pure _
      · exact .raise _

theorem call (he : e.BindsNothing) (callee : Value) (args : List Value) :
    BindsNothing (call e ts callee args) := by
  unfold Script.call
  split
  · exact .callNative he _ args
  · split
    · exact .guarded (he.body ts _ _)
    · exact .raise _
  · split
    · exact .pure _
    · exact .bind (.toText he _) fun _ => .pure _
  · exact he.call ts _ args
  · exact .raise _

theorem applyUnary (he : e.BindsNothing) (op : UnaryOp) (operand : Value) :
    BindsNothing (applyUnary e ts op operand) := by
  cases op with
  | not => exact .pure _
  | negate => exact .bind (.numericView he operand) fun _ => .orRaise _

theorem applyBinary (he : e.BindsNothing) (op : BinaryOp) (left right : Value) :
    BindsNothing (applyBinary e ts op left right) := by
  have numbers : ∀ outcome : Value → Value → Except Fault Value, BindsNothing (do
      let left ← Script.numericView e ts left
      let right ← Script.numericView e ts right
      Script.orRaise ts (outcome left right) : ScriptM σ Value) := fun outcome =>
    .bind (.numericView he left) fun _ => .bind (.numericView he right) fun _ => .orRaise _
  cases op with
  | equal => exact .bind (.equals he left right) fun _ => .pure _
  | notEqual => exact .bind (.equals he left right) fun _ => .pure _
  | within => exact .bind (.contains he right left) fun _ => .pure _
  | notWithin => exact .bind (.contains he right left) fun _ => .pure _
  | less | greater | lessEqual | greaterEqual => exact numbers (comparison _)
  | _ => exact numbers (arithmetic _)

mutual

/-- An expression binds nothing, node by node. -/
theorem eval (he : e.BindsNothing) (scope : Scope) (expr : Expr) :
    BindsNothing (eval e ts scope expr) := by
  cases expr <;> rw [Script.eval] <;> apply nested
  case literal value => exact .pure _
  case name word => exact .scopeLookup scope word
  case tuple items => exact .bind (evalAll he scope items) fun _ => .pure _
  case attr object member =>
    exact .bind (eval he scope object) fun object => .getAttr he object member
  case call callee args =>
    refine .bind (eval he scope callee) fun callee => ?_
    exact .bind (evalAll he scope args) fun args => .call he callee args
  case index object key =>
    refine .bind (eval he scope object) fun object => ?_
    exact .bind (eval he scope key) fun key => .getItem he object key
  case unary op operand =>
    exact .bind (eval he scope operand) fun operand => .applyUnary he op operand
  case binary op left right =>
    refine .bind (eval he scope left) fun left => ?_
    exact .bind (eval he scope right) fun right => .applyBinary he op left right
  case logical op left right =>
    refine .bind (eval he scope left) fun left => ?_
    split
    · exact eval he scope right
    · exact .pure _
  case lambda params body => exact .pure _

theorem evalAll (he : e.BindsNothing) (scope : Scope) (exprs : List Expr) :
    BindsNothing (evalAll e ts scope exprs) := by
  cases exprs <;> rw [Script.evalAll]
  case nil => exact .pure _
  case cons expr rest =>
    refine .bind (eval he scope expr) fun _ => ?_
    exact .bind (evalAll he scope rest) fun _ => .pure _

end

end BindsNothing

/-! ### The engine without anything foreign -/

theorem Engine.closed_bindsNothing {body : InterpreterId → Scope → Expr → ScriptM σ Value}
    (h : ∀ ts scope expr, Script.BindsNothing (body ts scope expr)) :
    (Engine.closed body).BindsNothing where
  body := h
  getAttr _ _ _ := .giveUp
  setAttr _ _ _ _ := .giveUp
  getItem _ _ _ := .giveUp
  setItem _ _ _ _ := .giveUp
  length _ _ := .giveUp
  contains _ _ _ := .giveUp
  call _ _ _ := .giveUp
  number _ _ := .giveUp
  text _ _ := .giveUp
  equals _ _ _ := .giveUp
  attrNames _ := .giveUp
  extension _ _ _ := .giveUp

/-- By induction on the levels of calls: each body is an expression for the engine below. -/
theorem Engine.alone_bindsNothing (calls : Nat) : (Engine.alone calls : Engine σ).BindsNothing := by
  induction calls with
  | zero => exact closed_bindsNothing fun _ _ _ => .giveUp
  | succ calls ih => exact closed_bindsNothing fun _ scope expr => .eval ih scope expr

end ScriptBridge.Script
