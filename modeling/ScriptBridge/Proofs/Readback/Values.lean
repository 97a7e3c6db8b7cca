import ScriptBridge.Proofs.Grammar.RoundTrip
import ScriptBridge.Proofs.Isolation.Memory
import ScriptBridge.Proofs.Limits.Counters
import ScriptBridge.Proofs.Readback.Texts

/-!
# Values read back from their texts

A value that is made of literals and tuples is what the evaluation of its text gives, with the same
types at every level. A sign takes a level of nesting in the grammar and in the evaluation, as a
tuple does, so the tuples may be nested two levels less deep than the grammar allows.
-/

namespace ScriptBridge.Script

open Syntax (Expr Literal readExpr tokens Token)

variable {value : Int64} {v : Value} {vs : List Value} {depth n m : Nat} {σ α : Type}
  {e : Engine σ} {ts : InterpreterId} {scope : Scope} {w : World σ}

/-! ### Limits -/

/-- What the grammar and the evaluation limit in a tree. -/
structure Within (levels height : Nat) (expr : Expr) : Prop where
  levels : expr.levels ≤ levels
  chains : expr.chainHeight = 0
  height : expr.height ≤ height

theorem signed_within (literal : Int64 → Literal) (value : Int64) :
    Within (depth + 1) (depth + 2) (signed literal value) := by
  unfold signed
  split
  · have levels : (Expr.unary .negate (.literal (literal (-value)))).levels = 1 := rfl
    exact ⟨levels.trans_le (Nat.le_add_left 1 depth), rfl, Nat.le_add_left 2 depth⟩
  · exact ⟨Nat.zero_le _, rfl, Nat.le_add_left 1 (depth + 1)⟩

theorem exprs_within (within : ∀ v ∈ vs, Within n m v.expr) :
    Expr.listLevels (Value.exprs vs) ≤ n + 1 ∧ Expr.listChainHeight (Value.exprs vs) = 0 ∧
      Expr.heights (Value.exprs vs) ≤ m := by
  induction vs with
  | nil => exact ⟨Nat.zero_le _, rfl, Nat.zero_le _⟩
  | cons v vs ih =>
    rw [List.forall_mem_cons] at within
    obtain ⟨first, others⟩ := within
    obtain ⟨levels, chains, height⟩ := ih others
    simp only [Value.exprs, Expr.listLevels, Expr.listChainHeight, Expr.heights, first.chains,
      chains]
    have := first.levels
    have := first.height
    omega

/-- Each tuple takes one level, and so does the sign of a number in the innermost one. -/
theorem Value.Written.within (written : v.Written depth) :
    Within (depth + 1) (depth + 2) v.expr := by
  induction written with
  | none | bool | text => exact ⟨Nat.zero_le _, rfl, Nat.le_add_left 1 _⟩
  | int => exact signed_within _ _
  | long => exact signed_within _ _
  | tuple _ ih =>
    obtain ⟨levels, chains, height⟩ := exprs_within ih
    exact ⟨levels, chains, Nat.succ_le_succ height⟩

/-! ### Reading -/

/-- The text of a value that is written is read as its tree. -/
theorem Value.Written.reads (written : v.Written depth) (shallow : depth ≤ 48) :
    ∃ text, v.repr? = some text ∧ readExpr text = .ok v.expr := by
  obtain ⟨text, repr, lexes⟩ := written.isShown
  obtain ⟨ts, kinds, read⟩ := lexes [] nofun 0 .start []
  have whole : tokens text = .ok ((⟨.endOfInput, Syntax.Position.start.afterAll text.toList⟩ ::
      ⟨.newline, Syntax.Position.start.afterAll text.toList⟩ :: (ts.reverse ++ [])).reverse) := by
    rw [List.append_nil] at read
    exact read
  have fits : v.expr.Fits := by
    have bounds := written.within
    refine ⟨?_, ?_⟩
    · have levels := bounds.levels
      unfold Syntax.maxDepth
      omega
    · rw [bounds.chains]
      exact Nat.zero_le _
  have spelt : ((⟨.endOfInput, Syntax.Position.start.afterAll text.toList⟩ ::
      ⟨.newline, Syntax.Position.start.afterAll text.toList⟩ :: (ts.reverse ++ [])).reverse).map
        Token.kind = v.expr.kinds ++ [.newline, .endOfInput] := by
    simp [kinds]
  refine ⟨text, repr, ?_⟩
  rw [readExpr, whole]
  exact (Syntax.ofTokens_reads spelt).1 fits

/-! ### Evaluation -/

/-- So many more levels of evaluation may be nested. -/
def World.Room (ts : InterpreterId) (levels : Nat) (w : World σ) : Prop :=
  (w.memory.interpreter ts).nesting + levels ≤ maxNesting

instance : Decidable (w.Room ts n) := inferInstanceAs (Decidable (_ ≤ _))

/-- The world in which the parts of a node are evaluated. -/
def World.inNode (ts : InterpreterId) (w : World σ) : World σ :=
  w.onMemory (·.onInterpreter ts fun i => { i with nesting := i.nesting + 1 })

/-- An interpreter in which nothing runs has room for as many levels as there may be. -/
theorem World.Room.of_rests (rests : w.Rests ts) (low : n ≤ maxNesting) : w.Room ts n := by
  unfold World.Room
  rwa [rests.2, Nat.zero_add]

theorem World.Room.inNode (room : w.Room ts (n + 1)) : (w.inNode ts).Room ts n := by
  unfold World.Room at room ⊢
  by_cases made : ts.place < w.memory.interpreters.size
  · rw [World.inNode, World.onMemory, Memory.interpreter_at _ _ _ _ made, if_pos rfl]
    show (w.memory.interpreter ts).nesting + 1 + n ≤ maxNesting
    omega
  · have missing : (w.inNode ts).memory.interpreter ts = w.memory.interpreter ts := by
      have still : ¬ts.place < (w.inNode ts).memory.interpreters.size := by
        rwa [World.inNode, World.onMemory, Memory.onInterpreter, Array.size_modify]
      rw [Memory.interpreter, Memory.interpreter, Array.getElem?_eq_none (Nat.not_lt.mp made),
        Array.getElem?_eq_none (Nat.not_lt.mp still)]
    rw [missing]
    omega

/-- A node has the value that its parts give, and afterwards nothing is changed. -/
theorem nested_ok {step : ScriptM σ α} {a : α} (room : w.Room ts (n + 1))
    (inner : step (w.inNode ts) = .ok a (w.inNode ts)) : nested ts step w = .ok a w := by
  have back : (w.inNode ts).memory.onInterpreter ts (fun i => { i with nesting := i.nesting - 1 }) =
      w.memory := (Memory.onInterpreter_onInterpreter _ _).trans Memory.onInterpreter_id
  have open_ : ¬maxNesting ≤ (w.memory.interpreter ts).nesting := by
    unfold World.Room at room
    omega
  unfold World.inNode at inner
  unfold nested guarded
  rw [if_neg open_]
  simp only [inner]
  exact congrArg (fun m => EStateM.Result.ok a (⟨m, w.outside⟩ : World σ)) back

theorem eval_literal (literal : Literal) (room : w.Room ts (n + 1)) :
    eval e ts scope (.literal literal) w = .ok (literalValue literal) w := by
  rw [eval]
  exact nested_ok room rfl

theorem fit_neg_neg (notLeast : value ≠ Int64.minValue) : fit (-(-value).toInt) = .ok value := by
  rw [toInt_neg_of_ne_minValue notLeast, Int.neg_neg, fit_inRange (inRange_toInt value),
    Int64.ofInt_toInt]

/-- A sign is the negation of the literal behind it. -/
theorem eval_signed (literal : Int64 → Literal) (room : w.Room ts (n + 2))
    (negates : applyUnary e ts .negate (literalValue (literal (-value))) =
      pure (literalValue (literal value))) :
    eval e ts scope (signed literal value) w = .ok (literalValue (literal value)) w := by
  unfold signed
  split
  · rw [eval]
    refine nested_ok room ?_
    rw [bind_ok (eval_literal _ room.inNode), negates]
    rfl
  · exact eval_literal _ room

/-- By induction on the values. -/
theorem evalAll_exprs (evals : ∀ v ∈ vs, eval e ts scope v.expr w = .ok v w) :
    evalAll e ts scope (Value.exprs vs) w = .ok vs w := by
  induction vs with
  | nil => rfl
  | cons v vs ih =>
    rw [List.forall_mem_cons] at evals
    rw [Value.exprs, evalAll, bind_ok evals.1, bind_ok (ih evals.2)]
    rfl

/-- The tree of a value that is written has this value, and its evaluation changes nothing. -/
theorem Value.Written.evaluates (written : v.Written depth) (room : w.Room ts (depth + 2)) :
    eval e ts scope v.expr w = .ok v w := by
  induction written generalizing w with
  | none => exact eval_literal _ room
  | bool => exact eval_literal _ room
  | text => exact eval_literal _ room
  | @int depth value notLeast =>
    refine eval_signed .int room ?_
    show orRaise ts ((fit (-(-value).toInt)).map Value.int) = _
    rw [fit_neg_neg notLeast]
    rfl
  | @long depth value notLeast =>
    refine eval_signed .long room ?_
    show orRaise ts ((fit (-(-value).toInt)).map Value.long) = _
    rw [fit_neg_neg notLeast]
    rfl
  | tuple _ ih =>
    rw [Value.expr, eval]
    refine nested_ok room ?_
    rw [bind_ok (evalAll_exprs fun v found => ih v found room.inNode)]
    rfl

theorem Value.Written.repr (written : v.Written depth) {text : String}
    (shown : v.repr? = some text) : repr e ts v w = .ok text w := by
  cases written <;> simp only [Script.repr, shown] <;> rfl

/-- The text of a value that is made of literals and tuples, nested at most 48 deep, is accepted as
an expression, and wherever fifty more levels may be nested, as in every interpreter in which
nothing runs, its value is the same again. -/
theorem text_reads_back (written : v.Written 48) :
    ∃ text expr, v.repr? = some text ∧ readExpr text = .ok expr ∧
      ∀ {σ : Type} (e : Engine σ) (ts : InterpreterId) (scope : Scope) (w : World σ),
        Script.repr e ts v w = .ok text w ∧
          (w.Room ts 50 → eval e ts scope expr w = .ok v w) := by
  obtain ⟨text, shown, read⟩ := written.reads (Nat.le_refl 48)
  exact ⟨text, v.expr, shown, read, fun e ts scope w => ⟨written.repr shown, written.evaluates⟩⟩

/-- A text with a quote in it, the empty tuple, a tuple of one negative number, and a long. -/
theorem text_reads_back_tuple : ∃ expr, readExpr "('it\\'s', (), (-5,), 7L)" = .ok expr ∧
    eval (.alone 0) ⟨0⟩ ⟨[], ⟨0, "__main__", .main⟩⟩ expr (⟨{}, ()⟩ : World Unit) =
      .ok (.tuple [.text "it's", .tuple [], .tuple [.int (-5)], .long 7]) ⟨{}, ()⟩ := by
  have written :
      (Value.tuple [.text "it's", .tuple [], .tuple [.int (-5)], .long 7]).Written 48 := by
    refine .tuple ?_
    simp only [List.forall_mem_cons]
    refine ⟨.text (by decide) (by decide), .tuple nofun, .tuple ?_, .long (by decide), nofun⟩
    exact List.forall_mem_singleton.mpr (.int (by decide))
  obtain ⟨text, expr, shown, read, evaluates⟩ := text_reads_back written
  obtain rfl : "('it\\'s', (), (-5,), 7L)" = text := Option.some.inj (rfl.trans shown)
  exact ⟨expr, read, (evaluates (.alone 0) _ _ _).2 (.of_rests ⟨rfl, rfl⟩ (by decide))⟩

end ScriptBridge.Script
