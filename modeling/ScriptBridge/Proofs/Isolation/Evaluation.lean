import ScriptBridge.Proofs.Isolation.Protocol

/-!
# Evaluation keeps pace

Built-in functions, imports and expressions keep pace. A lambda runs in the module that it was made
in, which is held because the lambda is, whoever calls it.
-/

namespace ScriptBridge.Isolation.Pairing

open Script (Value ModuleRef Interpreter InterpreterId RuntimeId Memory World ScriptM Exception
  Fault Raised Scope Engine Native)
open Syntax (Expr BinaryOp UnaryOp)

variable {σ : Type} {π : Pairing} {ts : InterpreterId} {v : Value} {items : List Value}
  {body : InterpreterId → Scope → Expr → ScriptM σ Value}

theorem SameAll.text (π : Pairing) (texts : List String) :
    π.SameAll (texts.map .text) (texts.map .text) := by
  refine ⟨?_, fun item mem => ?_⟩
  · rw [List.map_map]
    rfl
  · obtain ⟨text, -, rfl⟩ := List.mem_map.1 mem
    exact holds_bare rfl

/-- A scope whose modules were moved. -/
def movedScope (π : Pairing) (scope : Scope) : Scope :=
  ⟨scope.locals.map fun entry => (entry.1, entry.2.rename π.move), scope.globals.rename π.move⟩

structure HoldsScope (π : Pairing) (scope : Scope) : Prop where
  locals : ∀ entry ∈ scope.locals, π.Holds entry.2
  globals : π.held scope.globals

/-- Bodies of lambdas keep pace. -/
def Steady (π : Pairing) (ts : InterpreterId)
    (body : InterpreterId → Scope → Expr → ScriptM σ Value) : Prop :=
  ∀ scope expr, π.HoldsScope scope →
    π.Lockstep ts π.Same (body ts scope expr) (body ts (π.movedScope scope) expr)

namespace Lockstep

/-! ### Built-in functions -/

theorem single (mine : π.compared ts) (name : String) (hold : ∀ item ∈ items, π.Holds item) :
    π.Lockstep ts π.Same (Script.orRaise ts (Script.single name items) : ScriptM σ Value)
      (Script.orRaise ts (Script.single name (items.map (·.rename π.move)))) := by
  match items with
  | [] => exact .raise mine _
  | [item] => exact .pure ⟨rfl, hold item List.mem_cons_self⟩
  | first :: second :: rest =>
    simp only [List.map_cons, Script.single, List.length_cons, List.length_map]
    exact .raise mine _

theorem single_bind {β : Type} {move : Nat → Nat} (name : String) (items : List Value)
    {convert : Value → Except Fault β} (same : ∀ v, convert (v.rename move) = convert v) :
    (Script.single name (items.map (·.rename move)) >>= convert) =
      (Script.single name items >>= convert) := by
  match items with
  | [] => rfl
  | [item] => exact same item
  | first :: second :: rest => simp only [List.map_cons, Script.single, List.length_cons,
      List.length_map]

theorem importPath (mine : π.compared ts) (items : List Value) :
    π.Lockstep ts Eq (Script.orRaise ts (Script.importPath items) : ScriptM σ String)
      (Script.orRaise ts (Script.importPath (items.map (·.rename π.move)))) := by
  cases items with
  | nil => exact .raise mine _
  | cons item rest =>
    cases item with
    | text path => exact .pure rfl
    | _ => exact .raise mine _

/-- Reading memory for what comes next. -/
theorem memory : π.Lockstep ts π.Alike (Script.getMemory : ScriptM σ Memory) Script.getMemory := by
  intro w w' abreast
  exact ⟨abreast.alike, abreast, .refl ts w.memory⟩

theorem nativeImport (mine : π.compared ts) (path : String) :
    π.Lockstep ts π.Same (Script.nativeImport ts path : ScriptM σ Value)
      (Script.nativeImport ts path) := by
  refine .bind (.interpreter mine) fun i i' ⟨moves, rooted⟩ => ?_
  refine .bind .memory fun m m' alike => ?_
  subst moves
  have own : ((moved π.move i).modules.get? path).filter (·.origin != .hostPackage) =
      ((i.modules.get? path).filter (·.origin != .hostPackage)).map (·.rename π.move) := by
    simp only [moved, Table.get?_map]
    cases i.modules.get? path with
    | none => rfl
    | some a =>
      simp only [Option.map_some, Option.filter_some, ModuleRef.rename_origin]
      by_cases visible : (a.origin != .hostPackage) = true <;> simp [visible]
  have native : ((m'.runtime (moved π.move i).runtime).extensions.get? path) =
      ((m.runtime i.runtime).extensions.get? path).map (·.rename π.move) := by
    simp only [moved, rooted.runtime, alike.shared, Table.get?_map]
  simp only [own, native]
  cases found : (i.modules.get? path).filter (·.origin != .hostPackage) with
  | some a =>
    refine .pure ⟨rfl, holds_module.2 ?_⟩
    cases named : i.modules.get? path with
    | none => simp [named] at found
    | some b =>
      rw [named, Option.filter_eq_some_iff] at found
      obtain ⟨same, -⟩ := found
      cases same
      exact rooted.modules a (Table.mem_values named)
  | none =>
    cases listed : (m.runtime i.runtime).extensions.get? path with
    | none => exact .raise mine _
    | some a =>
      have held : π.held a := by
        rw [rooted.runtime] at listed
        exact alike.sharedHeld a (Table.mem_values listed)
      refine .bindEq (.modifyInterpreter mine (fun i => ?_) fun i hi => ?_) fun _ =>
        .pure ⟨rfl, holds_module.2 held⟩
      · simp only [moved]
        exact congrArg (fun t => { moved π.move i with modules := t })
          (Table.insert_map _ i.modules a.name a)
      · refine { hi with modules := fun b hb => ?_ }
        rcases Table.mem_values_insert hb with rfl | hb
        · exact held
        · exact hi.modules b hb

theorem defaultImport (mine : π.compared ts) (items : List Value) :
    π.Lockstep ts π.Same (Script.defaultImport ts items : ScriptM σ Value)
      (Script.defaultImport ts (items.map (·.rename π.move))) :=
  .bindEq (.importPath mine items) fun path => .nativeImport mine path

theorem attrNames (hv : π.Holds v) :
    π.Lockstep ts Eq (Script.attrNames (Engine.closed body) v)
      (Script.attrNames (Engine.closed body) (v.rename π.move)) := by
  cases v with
  | module m =>
    refine .read fun m₁ m₂ alike => ?_
    rw [alike.contents m (holds_module.1 hv), Table.names_map]
  | foreign object => exact .giveUp
  | _ => exact .pure rfl

theorem callNative (mine : π.compared ts) (function : Native)
    (hold : ∀ item ∈ items, π.Holds item) :
    π.Lockstep ts π.Same (Script.callNative (Engine.closed body) ts function items)
      (Script.callNative (Engine.closed body) ts function (items.map (·.rename π.move))) := by
  cases function with
  | defaultImport => exact .defaultImport mine items
  | print =>
    exact .bindEq (.toTexts items) fun texts => .bindEq (.printLine _) fun _ => .pure (same_bare rfl)
  | str =>
    exact .bindSame (.single mine "str" hold) fun u _ =>
      .bindEq (.toText u) fun _ => .pure (same_bare rfl)
  | repr =>
    exact .bindSame (.single mine "repr" hold) fun u _ =>
      .bindEq (.repr u) fun _ => .pure (same_bare rfl)
  | len =>
    exact .bindSame (.single mine "len" hold) fun u hu =>
      .bindEq (.length mine hu) fun _ => .pure (same_bare rfl)
  | bool =>
    refine .bindSame (.single mine "bool" hold) fun u _ => ?_
    rw [Value.truthy_rename]
    exact .pure (same_bare rfl)
  | int =>
    refine .bindSame (.single mine "int" hold) fun u hu => .bindSame (.numericView hu) fun n _ => ?_
    rw [Script.toInteger_rename]
    exact .bindEq (.orRaiseEq mine _) fun _ => .pure (same_bare rfl)
  | long =>
    have same := single_bind "long" items (@Script.toInteger_rename π.move)
    simp only [Script.callNative, same]
    exact .bindEq (.orRaiseEq mine _) fun _ => .pure (same_bare rfl)
  | float =>
    refine .bindSame (.single mine "float" hold) fun u hu => .bindSame (.numericView hu) fun n _ => ?_
    rw [Script.toFloat_rename]
    exact .bindEq (.orRaiseEq mine _) fun _ => .pure (same_bare rfl)
  | dir =>
    refine .bindSame (.single mine "dir" hold) fun u hu => .bindEq (.attrNames hu) fun names => ?_
    exact .pure (same_tuple (.text π names))
  | math function =>
    have same := single_bind "math function" items (@Script.toFloat_rename π.move)
    simp only [Script.callNative, same]
    exact .bindEq (.orRaiseEq mine _) fun _ => .pure (same_bare rfl)
  | extension function => exact .giveUp

/-! ### Expressions -/

theorem lookupName (mine : π.compared ts) {scope : Scope} (hold : π.HoldsScope scope)
    (name : String) :
    π.Lockstep ts π.Same (scope.lookup ts name : ScriptM σ Value)
      ((π.movedScope scope).lookup ts name) := by
  have locals : (π.movedScope scope).locals.lookup name =
      (scope.locals.lookup name).map (·.rename π.move) := by
    simp only [movedScope]
    induction scope.locals with
    | nil => rfl
    | cons entry rest ih =>
      obtain ⟨key, u⟩ := entry
      simp only [List.map_cons, List.lookup_cons]
      split
      · rfl
      · exact ih
  simp only [Scope.lookup, locals]
  cases found : scope.locals.lookup name with
  | some u =>
    obtain ⟨before, behind, split, -⟩ := List.lookup_eq_some_iff.1 found
    refine .pure ⟨rfl, hold.locals (name, u) ?_⟩
    rw [split]
    exact List.mem_append_right _ List.mem_cons_self
  | none =>
    refine .bind (.lookup hold.globals name) fun global _ ⟨same, holds⟩ => ?_
    subst same
    cases global with
    | some u => exact .pure ⟨rfl, holds u rfl⟩
    | none =>
      refine .bind (.interpreter mine) fun i _ ⟨moves, rooted⟩ => ?_
      subst moves
      refine .bind (.lookup rooted.builtins name) fun builtin _ ⟨same, holds⟩ => ?_
      subst same
      cases builtin with
      | some u => exact .pure ⟨rfl, holds u rfl⟩
      | none => exact .raise mine _

theorem call (mine : π.compared ts) (steady : π.Steady ts body) (hv : π.Holds v)
    (hold : ∀ item ∈ items, π.Holds item) :
    π.Lockstep ts π.Same (Script.call (Engine.closed body) ts v items)
      (Script.call (Engine.closed body) ts (v.rename π.move) (items.map (·.rename π.move))) := by
  cases v with
  | native function => exact .callNative mine function hold
  | lambda params expr globals =>
    simp only [Script.call, Value.rename, List.length_map]
    split
    · refine .inCall mine ?_
      have scope : π.movedScope ⟨(params.zip items).reverse, globals⟩ =
          ⟨(params.zip (items.map (·.rename π.move))).reverse, globals.rename π.move⟩ := by
        simp only [movedScope, List.map_reverse, List.zip_map_right]
        rfl
      refine scope ▸ steady ⟨(params.zip items).reverse, globals⟩ expr ⟨fun entry mem => ?_, ?_⟩
      · exact hold _ (List.of_mem_zip (List.mem_reverse.1 mem)).2
      · exact holds_lambda.1 hv
    · exact .raise mine _
  | errorType type =>
    cases items with
    | nil => exact .pure (same_bare rfl)
    | cons item rest => exact .bindEq (.toText item) fun _ => .pure (same_bare rfl)
  | foreign object => exact .giveUp
  | _ => exact .raise mine _

theorem applyUnary (mine : π.compared ts) (op : UnaryOp) (hv : π.Holds v) :
    π.Lockstep ts π.Same (Script.applyUnary (Engine.closed body) ts op v)
      (Script.applyUnary (Engine.closed body) ts op (v.rename π.move)) := by
  cases op with
  | not =>
    simp only [Script.applyUnary, Value.truthy_rename]
    exact .pure (same_bare rfl)
  | negate =>
    refine .bindSame (.numericView hv) fun n _ => ?_
    rw [Script.negative_rename]
    have bare : ∀ u, Script.negative n = .ok u → u.refs = [] := fun u found =>
      u.refs_plain (Script.negative_plain found)
    exact .orRaise mine (Script.map_rename_bare bare).symm fun u found => holds_bare (bare u found)

theorem applyBinary (mine : π.compared ts) (op : BinaryOp) {l r : Value} (hl : π.Holds l)
    (hr : π.Holds r) :
    π.Lockstep ts π.Same (Script.applyBinary (Engine.closed body) ts op l r)
      (Script.applyBinary (Engine.closed body) ts op (l.rename π.move) (r.rename π.move)) := by
  have ordered : ∀ {l r : Value},
      π.Lockstep ts π.Same (Script.orRaise ts (Script.comparison op l r) : ScriptM σ Value)
        (Script.orRaise ts (Script.comparison op (l.rename π.move) (r.rename π.move))) := by
    intro l r
    have bare : ∀ u, Script.comparison op l r = .ok u → u.refs = [] :=
      fun u found => u.refs_plain (Script.comparison_plain found)
    refine .orRaise mine ?_ fun u found => holds_bare (bare u found)
    rw [Script.map_rename_bare bare, Script.comparison, Script.comparison, Script.order_rename]
  have computed : ∀ {l r : Value}, π.Holds l → π.Holds r →
      π.Lockstep ts π.Same (Script.orRaise ts (Script.arithmetic op l r) : ScriptM σ Value)
        (Script.orRaise ts (Script.arithmetic op (l.rename π.move) (r.rename π.move))) := by
    intro l r hl hr
    refine .orRaise mine (Script.arithmetic_rename op l r) fun u found m mem => ?_
    exact (Script.arithmetic_refs found m mem).elim (hl m) (hr m)
  cases op with
  | equal => exact .bindEq (equals l r hl hr) fun _ => .pure (same_bare rfl)
  | notEqual => exact .bindEq (equals l r hl hr) fun _ => .pure (same_bare rfl)
  | within => exact .bindEq (.contains mine hr hl) fun _ => .pure (same_bare rfl)
  | notWithin => exact .bindEq (.contains mine hr hl) fun _ => .pure (same_bare rfl)
  | less | greater | lessEqual | greaterEqual =>
    exact .bindSame (.numericView hl) fun _ _ => .bindSame (.numericView hr) fun _ _ => ordered
  | add | subtract | multiply | divide | modulo =>
    exact .bindSame (.numericView hl) fun _ ha => .bindSame (.numericView hr) fun _ hb =>
      computed ha hb

theorem literal_bare (literal : Syntax.Literal) : (Script.literalValue literal).refs = [] := by
  cases literal <;> rfl

theorem needsRight_rename (op : Syntax.LogicalOp) (v : Value) (move : Nat → Nat) :
    Script.needsRight op (v.rename move) = Script.needsRight op v := by
  cases op <;> simp [Script.needsRight]

mutual

theorem eval (mine : π.compared ts) (steady : π.Steady ts body) {scope : Scope}
    (hold : π.HoldsScope scope) : ∀ expr : Expr,
    π.Lockstep ts π.Same (Script.eval (Engine.closed body) ts scope expr)
      (Script.eval (Engine.closed body) ts (π.movedScope scope) expr)
  | .literal value => by
    simp only [Script.eval]
    exact .nested mine (.pure (same_bare (literal_bare value)))
  | .name word => by
    simp only [Script.eval]
    exact .nested mine (.lookupName mine hold word)
  | .tuple items => by
    simp only [Script.eval]
    exact .nested mine (.bind (evalAll mine steady hold items) fun _ _ same =>
      .pure (same_tuple same))
  | .attr object member => by
    simp only [Script.eval]
    exact .nested mine (.bindSame (eval mine steady hold object) fun _ hv =>
      .getAttr mine hv member)
  | .call callee args => by
    simp only [Script.eval]
    refine .nested mine (.bindSame (eval mine steady hold callee) fun _ hv => ?_)
    refine .bind (evalAll mine steady hold args) fun items _ ⟨same, holds⟩ => ?_
    subst same
    exact .call mine steady hv holds
  | .index object key => by
    simp only [Script.eval]
    exact .nested mine (.bindSame (eval mine steady hold object) fun _ hv =>
      .bindSame (eval mine steady hold key) fun index _ => .getItem mine hv index)
  | .unary op operand => by
    simp only [Script.eval]
    exact .nested mine (.bindSame (eval mine steady hold operand) fun _ hv =>
      .applyUnary mine op hv)
  | .binary op left right => by
    simp only [Script.eval]
    exact .nested mine (.bindSame (eval mine steady hold left) fun _ hl =>
      .bindSame (eval mine steady hold right) fun _ hr => .applyBinary mine op hl hr)
  | .logical op left right => by
    simp only [Script.eval]
    refine .nested mine (.bindSame (eval mine steady hold left) fun v hv => ?_)
    rw [needsRight_rename]
    split
    · exact eval mine steady hold right
    · exact .pure ⟨rfl, hv⟩
  | .lambda params body => by
    simp only [Script.eval]
    exact .nested mine (.pure ⟨rfl, holds_lambda.2 hold.globals⟩)

theorem evalAll (mine : π.compared ts) (steady : π.Steady ts body) {scope : Scope}
    (hold : π.HoldsScope scope) : ∀ exprs : List Expr,
    π.Lockstep ts π.SameAll (Script.evalAll (Engine.closed body) ts scope exprs)
      (Script.evalAll (Engine.closed body) ts (π.movedScope scope) exprs)
  | [] => .pure ⟨rfl, nofun⟩
  | expr :: rest => by
    simp only [Script.evalAll]
    refine .bindSame (eval mine steady hold expr) fun v hv => ?_
    refine .bind (evalAll mine steady hold rest) fun items _ ⟨same, holds⟩ => .pure ⟨?_, ?_⟩
    · rw [same, List.map_cons]
    · exact List.forall_mem_cons.2 ⟨hv, holds⟩

end

end Lockstep

/-- Whatever the number of levels, bodies keep pace. -/
theorem steady_alone (mine : π.compared ts) : ∀ calls : Nat,
    ∃ body : InterpreterId → Scope → Expr → ScriptM σ Value,
      Engine.alone calls = Engine.closed body ∧ π.Steady ts body
  | 0 => ⟨_, rfl, fun _ _ _ => .giveUp⟩
  | calls + 1 => by
    obtain ⟨body, below, steady⟩ := steady_alone mine calls
    refine ⟨Script.eval (Engine.closed body), ?_, fun scope expr hold => ?_⟩
    · rw [Engine.alone, below]
    · exact .eval mine steady hold expr

end ScriptBridge.Isolation.Pairing
