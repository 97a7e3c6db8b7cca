import ScriptBridge.Proofs.Limits.Engines
import ScriptBridge.Proofs.Limits.Heights

/-!
# Evaluators side by side

Two evaluators over engines that keep pace do so themselves, wherever the ways in which they enter
expressions and bodies of lambdas do. By induction on an expression, which tells at what numbers its
parts find the counters; a program is then taken statement by statement.
-/

namespace ScriptBridge.Syntax

/-- What is evaluated in turn when an expression is evaluated. -/
def Expr.parts : Expr → List Expr
  | .literal _ | .name _ | .lambda _ _ => []
  | .tuple items => items
  | .attr object _ => [object]
  | .call callee args => callee :: args
  | .index object key => [object, key]
  | .unary _ operand => [operand]
  | .binary _ left right | .logical _ left right => [left, right]

theorem Expr.height_le_heights {items : List Expr} {e : Expr} (mem : e ∈ items) :
    e.height ≤ Expr.heights items := by
  induction mem with
  | head => exact Nat.le_max_left _ _
  | tail _ _ ih => exact Nat.le_trans ih (Nat.le_max_right _ _)

theorem Expr.height_of_part {e part : Expr} (mem : part ∈ e.parts) : part.height < e.height := by
  cases e with
  | literal | name | lambda => cases mem
  | tuple items => exact Nat.lt_succ_of_le (height_le_heights mem)
  | attr | unary =>
    obtain rfl := List.mem_singleton.mp mem
    exact Nat.lt_succ_self _
  | call callee args =>
    refine Nat.lt_succ_of_le ?_
    rcases List.mem_cons.mp mem with rfl | mem
    · exact Nat.le_max_right _ _
    · exact Nat.le_trans (height_le_heights mem) (Nat.le_max_left _ _)
  | index first second | binary _ first second | logical _ first second =>
    refine Nat.lt_succ_of_le ?_
    rcases List.mem_cons.mp mem with rfl | mem
    · exact Nat.le_max_left _ _
    · obtain rfl := List.mem_singleton.mp mem
      exact Nat.le_max_right _ _

end ScriptBridge.Syntax

namespace ScriptBridge.Script

open Syntax (Expr Statement Target ImportNames)

/-- The outermost expressions of compiled source. -/
def Code.exprs : Code → List Expr
  | .expression value => [value]
  | .statements _ _ program => program.exprs

theorem compile_within {σ : Type} {ts : InterpreterId} {source file : String} {mode : Mode}
    {code : Code} {w w' : World σ} (h : compile ts source mode file w = .ok code w') :
    ∀ expr ∈ code.exprs, expr.height ≤ Syntax.maxHeight + Syntax.maxDepth - 1 := by
  cases mode with
  | eval =>
    cases read : Syntax.readExpr source with
    | ok value =>
      simp only [compile, read] at h
      cases h
      intro expr mem
      obtain rfl := List.mem_singleton.mp mem
      exact Syntax.readExpr_within read
    | error error =>
      simp only [compile, read] at h
      cases h
  | single | file =>
    cases read : Syntax.readProgram source with
    | ok program =>
      simp only [compile, read] at h
      cases h
      exact Syntax.readProgram_within read
    | error error =>
      simp only [compile, read] at h
      cases h

namespace Comparison

variable {σ σ' : Type}

/-- The ways into expressions and bodies of lambdas keep pace over engines that do, for expressions
that fit in where the counters stand, and where there is room for calls. -/
structure Regime (C : Comparison σ σ') (ts : InterpreterId) (fits : Nat → Nat → Expr → Prop)
    (room : Nat → Nat → Prop) (g : Entries σ) (e : Engine σ) (g' : Entries σ') (e' : Engine σ') :
    Prop where
  engines : C.Engines ts e e'
  part : ∀ {d n expr}, fits d n expr → n < maxNesting → ∀ part ∈ expr.parts, fits d (n + 1) part
  inside : ∀ {d n expr}, fits d n expr → n < maxNesting → room d (n + 1)
  expression : ∀ {d n expr step step'}, fits d n expr →
    (n < maxNesting → C.Pace ts d (n + 1) step step') →
    C.Pace ts d n (g.expression ts step) (g'.expression ts step')
  body : ∀ {d n} scope expr, room d n →
    C.Pace ts d n (g.body ts (e.body ts scope expr)) (g'.body ts (e'.body ts scope expr))

variable {C : Comparison σ σ'} {ts : InterpreterId} {fits : Nat → Nat → Expr → Prop}
  {room : Nat → Nat → Prop} {g : Entries σ} {e : Engine σ} {g' : Entries σ'} {e' : Engine σ'}
  {globals : ModuleRef} {d n : Nat}

namespace Regime

theorem call (r : C.Regime ts fits room g e g' e') (free : room d n) (callee : Value)
    (args : List Value) :
    C.Pace ts d n (callBy g e ts callee args) (callBy g' e' ts callee args) := by
  cases callee with
  | lambda params body globals =>
    unfold callBy
    dsimp only
    split
    · exact r.body _ _ free
    · exact .raise _
  | native function => exact r.engines.callNative function args
  | errorType type =>
    cases args with
    | nil => exact .pure _
    | cons arg rest => exact .bind (r.engines.valueText arg) fun _ => .pure _
  | foreign object => exact r.engines.call object args
  | _ => exact .raise _

/-! ### Expressions -/

mutual

/-- Evaluators keep pace on an expression that fits. -/
theorem eval (r : C.Regime ts fits room g e g' e') (scope : Scope) :
    ∀ (expr : Expr) {d n}, fits d n expr →
      C.Pace ts d n (evalBy g e ts scope expr) (evalBy g' e' ts scope expr)
  | .literal value, _, _, fit => r.expression fit fun _ => .pure _
  | .name word, _, _, fit => r.expression fit fun _ => .lookupName scope word
  | .tuple items, _, _, fit => r.expression fit fun room =>
    .bind (r.evalAll scope items fun part mem => r.part fit room part mem) fun _ => .pure _
  | .attr object member, _, _, fit => r.expression fit fun room =>
    .bind (r.eval scope object (r.part fit room _ List.mem_cons_self)) fun _ =>
      r.engines.valueAttr _ member
  | .call callee args, _, _, fit => r.expression fit fun room =>
    .bind (r.eval scope callee (r.part fit room _ List.mem_cons_self)) fun _ =>
      .bind (r.evalAll scope args fun part mem => r.part fit room part (List.mem_cons_of_mem _ mem))
        fun _ => r.call (r.inside fit room) _ _
  | .index object key, _, _, fit => r.expression fit fun room =>
    .bind (r.eval scope object (r.part fit room _ List.mem_cons_self)) fun _ =>
      .bind (r.eval scope key (r.part fit room _ (List.mem_cons_of_mem _ List.mem_cons_self)))
        fun _ => r.engines.valueItem _ _
  | .unary op operand, _, _, fit => r.expression fit fun room =>
    .bind (r.eval scope operand (r.part fit room _ List.mem_cons_self)) fun _ =>
      r.engines.applyUnary op _
  | .binary op left right, _, _, fit => r.expression fit fun room =>
    .bind (r.eval scope left (r.part fit room _ List.mem_cons_self)) fun _ =>
      .bind (r.eval scope right (r.part fit room _ (List.mem_cons_of_mem _ List.mem_cons_self)))
        fun _ => r.engines.applyBinary op _ _
  | .logical op left right, _, _, fit => r.expression fit fun room =>
    .bind (r.eval scope left (r.part fit room _ List.mem_cons_self)) fun value => by
      split
      · exact r.eval scope right (r.part fit room _ (List.mem_cons_of_mem _ List.mem_cons_self))
      · exact .pure _
  | .lambda params body, _, _, fit => r.expression fit fun _ => .pure _

theorem evalAll (r : C.Regime ts fits room g e g' e') (scope : Scope) :
    ∀ (items : List Expr) {d n}, (∀ item ∈ items, fits d n item) →
      C.Pace ts d n (evalAllBy g e ts scope items) (evalAllBy g' e' ts scope items)
  | [], _, _, _ => .pure _
  | item :: rest, _, _, fit =>
    .bind (r.eval scope item (fit item List.mem_cons_self)) fun _ =>
      .bind (r.evalAll scope rest fun other mem => fit other (List.mem_cons_of_mem _ mem))
        fun _ => .pure _

end

end Regime

/-! ### Statements -/

/-- The values of expressions are shown alike. -/
def Shows (C : Comparison σ σ') (ts : InterpreterId) (g : Entries σ) (e : Engine σ)
    (e' : Engine σ') (mode mode' : Mode) : Prop :=
  ∀ {d n step w v w'}, g.expression ts step w = .ok v w' →
    C.Pace ts d n (echo e ts mode v) (echo e' ts mode' v)

theorem Engines.shows (h : C.Engines ts e e') (mode : Mode) : C.Shows ts g e e' mode mode := by
  intro d n step w v w' _
  unfold echo
  split
  · exact .bind (h.repr v) fun _ => .printLine _
  · exact .pure _

namespace Regime

variable (r : C.Regime ts fits room g e g' e') (free : room d n) {mode mode' : Mode}

include r

theorem assign {target : Target} (fit : ∀ expr ∈ target.exprs, fits d n expr) (value : Value) :
    C.Pace ts d n (assignBy g e ts globals target value)
      (assignBy g' e' ts globals target value) := by
  cases target with
  | name word => exact .bindName _ _ _
  | attr object member =>
    exact .bind (r.eval _ object (fit _ List.mem_cons_self)) fun _ =>
      r.engines.setValueAttr _ _ _
  | index object key =>
    exact .bind (r.eval _ object (fit _ List.mem_cons_self)) fun _ =>
      .bind (r.eval _ key (fit _ (List.mem_cons_of_mem _ List.mem_cons_self))) fun _ =>
        r.engines.setValueItem _ _ _

include free

theorem importModule (path : String) (list : Value) :
    C.Pace ts d n (importModuleBy g e ts globals path list)
      (importModuleBy g' e' ts globals path list) := by
  refine .bind .interpreter fun i => .bind (.lookup _ _) fun found => ?_
  cases found with
  | some entry => exact r.call free _ _
  | none => exact .raise _

theorem fromImport (path : String) (names : ImportNames) :
    C.Pace ts d n (fromImportBy g e ts globals path names)
      (fromImportBy g' e' ts globals path names) := by
  refine .bind (r.importModule free path _) fun module => ?_
  cases names with
  | all => exact .bind (r.engines.starEntries _) fun _ => .bindAll _ _
  | listed names => exact r.engines.bindImported _ _ _

theorem execute (shows : C.Shows ts g e e' mode mode') {statement : Statement}
    (fit : ∀ expr ∈ statement.exprs, fits d n expr) :
    C.Pace ts d n (executeBy g e ts globals mode statement)
      (executeBy g' e' ts globals mode' statement) := by
  cases statement with
  | expr expr =>
    refine .bindOf (r.eval _ expr (fit _ List.mem_cons_self))
      (fun w value w' found => ?_) (fun value shown => shown)
    obtain ⟨step, entered⟩ := evalBy_entered found
    exact shows entered
  | assign target value =>
    refine .bind (r.eval _ value (fit _ ?_)) fun _ => r.assign (fun expr mem => fit expr ?_) _
    · exact List.mem_append_right _ List.mem_cons_self
    · exact List.mem_append_left _ mem
  | imports path newName => exact .bind (r.importModule free _ _) fun _ => .bindName _ _ _
  | fromImport path names => exact r.fromImport free _ _
  | raise value =>
    cases value with
    | none => exact .raise _
    | some value => exact .bind (r.eval _ value (fit _ List.mem_cons_self)) fun _ => .raiseValue _
  | pass => exact .pure _

/-- By induction on the statements; each finds the counters where the first one did. -/
theorem executeAll (shows : C.Shows ts g e e' mode mode') (file : String)
    {program : Syntax.Program} (fit : ∀ expr ∈ program.exprs, fits d n expr) :
    C.Pace ts d n (executeAllBy g e ts globals mode file program)
      (executeAllBy g' e' ts globals mode' file program) := by
  induction program with
  | nil => exact .pure _
  | cons first rest ih =>
    obtain ⟨line, statement⟩ := first
    refine .attempt (r.execute free shows fun expr mem => fit expr (List.mem_append_left _ mem))
      (fun outcome => .bind r.engines.settle fun _ => ?_) fun x v => ?_
    · cases outcome with
      | ok done => exact ih fun expr mem => fit expr (List.mem_append_right _ mem)
      | error raised => exact .bind (.pushTrace _ _) fun _ => .throw _
    · simp only [Bind.bind, EStateM.bind]
      cases e.settle v <;> exact ⟨_, _, rfl⟩

theorem run (shows : ∀ mode, C.Shows ts g e e' mode mode) {code : Code}
    (fit : ∀ expr ∈ code.exprs, fits d n expr) :
    C.Pace ts d n (code.runBy g e ts globals) (code.runBy g' e' ts globals) := by
  cases code with
  | expression value => exact r.eval _ value (fit _ List.mem_cons_self)
  | statements mode file program =>
    exact .bind (r.executeAll free (shows mode) file fit) fun _ => .pure _

/-- Source texts keep pace if whatever is no higher than what can be read fits. -/
theorem execSource (shows : ∀ mode, C.Shows ts g e e' mode mode)
    (fit : ∀ expr : Expr, expr.height ≤ Syntax.maxHeight + Syntax.maxDepth - 1 → fits d n expr)
    (source : String) (mode : Mode) (file : String) (globals : ModuleRef) :
    C.Pace ts d n (execSourceBy g e ts source mode file globals)
      (execSourceBy g' e' ts source mode file globals) :=
  .bindOf (.compile source mode file) (fun _ _ _ compiled => compile_within compiled)
    fun _ within => r.run free shows fun expr mem => fit expr (within expr mem)

end Regime
end Comparison
end ScriptBridge.Script
