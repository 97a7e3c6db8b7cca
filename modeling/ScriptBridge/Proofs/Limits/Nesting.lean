import ScriptBridge.Proofs.Limits.Runs

/-!
# The nesting limit and what can be read

A tree that can be read is lower than evaluation may nest. Evaluated where nothing else is being
evaluated, it meets the limit only through the lambdas that it calls: the refusal at the limit could
be any other step, and it would not be noticed.
-/

namespace ScriptBridge.Script

open Syntax (Expr)

variable {σ : Type}

namespace Comparison

/-- The same worlds, whether runs fail or not. -/
def same : Comparison σ σ where
  whole := Eq
  kept _ := congrArg _
  lenient := False

variable {ts : InterpreterId} {d n : Nat} {w : World σ}

theorem Level.same (made : ts.place < w.memory.interpreters.size) :
    Comparison.same.Level ts (w.memory.interpreter ts).depth (w.memory.interpreter ts).nesting w
      w :=
  ⟨rfl, ⟨rfl, rfl, rfl⟩, made, rfl, rfl⟩

theorem Ends.same {ε α : Type} {r r' : EStateM.Result ε (World σ) α}
    (h : Comparison.same.Ends ts d n r r') : r = r' := by
  cases h with
  | ok level =>
    obtain rfl := level.whole
    rfl
  | error level =>
    obtain rfl := level.whole
    rfl
  | failed never => exact never.elim

variable {σ' : Type} {C : Comparison σ σ'}

/-- Evaluators keep pace over engines that do, if bodies of lambdas keep pace. -/
theorem Regime.usual {e : Engine σ} {e' : Engine σ'} (engines : C.Engines ts e e')
    (body : ∀ {d n} scope expr, C.Pace ts d n (e.body ts scope expr) (e'.body ts scope expr)) :
    C.Regime ts (fun _ _ _ => True) (fun _ _ => True) .usual e .usual e' where
  engines := engines
  part _ _ _ _ := trivial
  inside _ _ := trivial
  expression _ h := .nested h
  body scope expr _ := .inCall fun _ => body scope expr

/-- Without anything foreign an evaluator keeps pace with itself, by induction on the lambda calls
that it may still make. -/
theorem Regime.alone (calls : Nat) : C.Regime ts (fun _ _ _ => True) (fun _ _ => True) .usual
    (.alone calls) .usual (.alone calls) := by
  induction calls with
  | zero => exact .usual (.closed _ _) fun _ _ => .giveUp
  | succ calls ih =>
    refine .usual (.closed _ _) fun {d n} scope expr => ?_
    have body : C.Pace ts d n _ _ := ih.eval scope expr trivial
    rwa [evalBy_usual, evalBy_usual] at body

end Comparison

/-- At the limit an expression is refused in a way of its own; bodies of lambdas are entered as
usual. -/
def Entries.refusing (refuse : ScriptM σ Value) : Entries σ where
  expression ts step := do
    if maxNesting ≤ (← getInterpreter ts).nesting then refuse else nested ts step
  body := inCall

/-- Refused with the usual error, expressions are entered as usual. -/
theorem refusing_usual (ts : InterpreterId) (step : ScriptM σ Value) :
    (Entries.refusing (raise ts .nesting)).expression ts step = nested ts step := by
  funext w
  show (if maxNesting ≤ (w.memory.interpreter ts).nesting then raise ts .nesting else _) w = _
  split
  · rename_i deep
    exact (if_pos deep).symm
  · rfl

namespace Comparison

variable {ts : InterpreterId} {d n : Nat}

/-- Below the limit nothing is refused. -/
theorem Pace.refusing {refuse : ScriptM σ Value} {step step' : ScriptM σ Value}
    (room : n < maxNesting) (h : n < maxNesting → Comparison.same.Pace ts d (n + 1) step step') :
    Comparison.same.Pace ts d n ((Entries.refusing refuse).expression ts step)
      (Script.nested ts step') := by
  intro w w' level
  have entered : (Entries.refusing refuse).expression ts step w = Script.nested ts step w := by
    have shallow : ¬ maxNesting ≤ (w.memory.interpreter ts).nesting := by
      rw [level.nesting]
      exact Nat.not_le_of_lt room
    show (if maxNesting ≤ (w.memory.interpreter ts).nesting then refuse else _) w = _
    rw [if_neg shallow]
  rw [entered]
  exact Pace.nested h w w' level

/-- Trees fit that do not reach the limit from where the counter stands. -/
theorem Regime.refusing (refuse : ScriptM σ Value) (calls : Nat) :
    Comparison.same.Regime ts (fun _ n expr => n + expr.height ≤ maxNesting) (fun _ _ => True)
      (.refusing refuse) (.alone calls) .usual (.alone calls) where
  engines := (Regime.alone calls).engines
  part fit _ part mem := by
    have lower := Expr.height_of_part mem
    omega
  inside _ _ := trivial
  expression fit h := by
    refine .refusing ?_ h
    exact Nat.lt_of_lt_of_le (Nat.lt_add_of_pos_right (Expr.height_pos _)) fit
  body := (Regime.alone calls).body

end Comparison

/-- Whatever can be read is lower than the limits of the parser add up to; so, where no expression
is being evaluated, running it alone meets the nesting limit in bodies of lambdas only. -/
theorem nesting_enough (source : String) :
    (∀ expr, Syntax.readExpr source = .ok expr →
      expr.height ≤ Syntax.maxHeight + Syntax.maxDepth - 1) ∧
    (∀ program, Syntax.readProgram source = .ok program → ∀ expr ∈ program.exprs,
      expr.height ≤ Syntax.maxHeight + Syntax.maxDepth - 1) ∧
    ∀ (refuse : ScriptM σ Value) (calls : Nat) (ts : InterpreterId) (mode : Mode) (file : String)
      (globals : ModuleRef) (w : World σ), ts.place < w.memory.interpreters.size →
      (w.memory.interpreter ts).nesting = 0 →
      execSourceBy (.refusing refuse) (.alone calls) ts source mode file globals w =
        execSource (.alone calls) ts source mode file globals w := by
  refine ⟨fun _ => Syntax.readExpr_within, fun _ => Syntax.readProgram_within, ?_⟩
  intro refuse calls ts mode file globals w made rests
  have regime : Comparison.same.Regime ts _ _ _ _ _ _ := .refusing refuse calls
  have fit (expr : Expr) (low : expr.height ≤ Syntax.maxHeight + Syntax.maxDepth - 1) :
      0 + expr.height ≤ maxNesting := by
    rw [Nat.zero_add]
    exact Nat.le_trans low (by decide)
  have level := Comparison.Level.same made
  rw [rests] at level
  have ends := regime.execSource trivial (fun mode => regime.engines.shows mode) fit source mode
    file globals w w level
  rw [ends.same, execSourceBy_usual]

/-! ### A single interpreter -/

/-- A world with one interpreter, in which nothing is bound. -/
def World.bare : World Unit where
  memory := {
    namespaces := #[{}]
    interpreters := #[{
      number := 1
      runtime := ⟨0⟩
      modules := {}
      builtins := ⟨0, "__main__", .main⟩
      main := ⟨0, "__main__", .main⟩ }]
    runtimes := #[{}] }
  outside := ()

theorem read_of_check {α : Type} {read : Except Syntax.SyntaxError α} (h : read.isOk = true) :
    ∃ a, read = .ok a := by
  cases read with
  | ok a => exact ⟨a, rfl⟩
  | error e => cases h

theorem nesting_enough_tuple :
    (∃ expr, Syntax.readExpr "(1, -2)" = .ok expr ∧
      expr.height ≤ Syntax.maxHeight + Syntax.maxDepth - 1) ∧
    (∃ program, Syntax.readProgram "(1, -2)" = .ok program ∧
      ∀ expr ∈ program.exprs, expr.height ≤ Syntax.maxHeight + Syntax.maxDepth - 1) ∧
    execSourceBy (.refusing giveUp) (.alone 0) ⟨0⟩ "(1, -2)" .eval "f" ⟨0, "__main__", .main⟩
        World.bare =
      execSource (.alone 0) ⟨0⟩ "(1, -2)" .eval "f" ⟨0, "__main__", .main⟩ World.bare := by
  obtain ⟨expr_within, program_within, runs⟩ := nesting_enough (σ := Unit) "(1, -2)"
  obtain ⟨expr, read⟩ := read_of_check
    (by decide +kernel : (Syntax.readExpr "(1, -2)").isOk = true)
  obtain ⟨program, read'⟩ := read_of_check
    (by decide +kernel : (Syntax.readProgram "(1, -2)").isOk = true)
  exact ⟨⟨expr, read, expr_within expr read⟩, ⟨program, read', program_within program read'⟩,
    runs _ 0 ⟨0⟩ _ _ _ _ (by decide) rfl⟩

end ScriptBridge.Script
