import ScriptBridge.Proofs.Grammar.Descent
import ScriptBridge.Syntax.Reading

/-!
# How high trees get

The parser counts nesting and the height of chains, but not the height of a tree. A tuple, a prefix
operator or a lambda makes a tree higher than its parts without being counted as a chain, so a tree
may exceed the limit for chains; only, each of them opens a level of nesting. By induction on the
levels that are left, a tree exceeds the limit for chains by fewer than there are levels.
-/

namespace ScriptBridge.Syntax

/-- Every tree that the parser reads is at most so high. -/
def Within (bound : Nat) (parse : Parser Expr) : Prop :=
  ∀ {ts e rest}, parse ts = .ok (e, rest) → e.height ≤ bound

/-- What the parsers of the next level read is at most so high. -/
structure Inner.Within (bound : Nat) (inner : Inner) : Prop where
  expression : Syntax.Within bound inner.expression
  negated : Syntax.Within bound inner.negated
  negative : Syntax.Within bound inner.negative

variable {inner : Inner} {inside bound : Nat} {ts rest : List Token} {e : Expr}

/-! ### Brackets and primaries -/

theorem arguments_within {item : Parser Expr} (within : Within inside item) {fuel : Nat} :
    ∀ {ts items rest}, arguments item fuel ts = .ok (items, rest) →
      Expr.heights items ≤ inside := by
  induction fuel with
  | zero => exact fun h => nomatch h
  | succ fuel ih =>
    intro ts items rest h
    unfold arguments at h
    split at h
    · cases h
      exact Nat.zero_le _
    · obtain ⟨⟨first, more⟩, read, h⟩ := bind_eq_ok h
      have first := within read
      dsimp only at h
      split at h
      · obtain ⟨⟨others, more⟩, read, h⟩ := bind_eq_ok h
        cases h
        exact Nat.max_le.mpr ⟨first, ih read⟩
      · obtain ⟨more, closed, h⟩ := bind_eq_ok h
        cases h
        exact Nat.max_le.mpr ⟨first, Nat.zero_le _⟩

theorem parenthesized_within (within : inner.Within inside) :
    Within (inside + 1) (parenthesized inner) := by
  intro ts e rest h
  unfold parenthesized at h
  split at h
  · cases h
    exact Nat.le_add_left 1 inside
  · obtain ⟨⟨first, more⟩, read, h⟩ := bind_eq_ok h
    have first := within.expression read
    dsimp only at h
    split at h
    · cases h
      exact Nat.le_succ_of_le first
    · obtain ⟨more, separated, h⟩ := bind_eq_ok h
      obtain ⟨⟨items, more⟩, read, h⟩ := bind_eq_ok h
      cases h
      exact Nat.succ_le_succ (Nat.max_le.mpr ⟨first, arguments_within within.expression read⟩)

theorem primary_within (within : inner.Within inside) : Within (inside + 1) (primary inner) := by
  intro ts e rest h
  have leaf : 1 ≤ inside + 1 := Nat.le_add_left 1 inside
  cases ts with
  | nil => cases h
  | cons t more =>
    obtain ⟨kind, p⟩ := t
    cases kind with
    | integer | long | float | text | name =>
      cases h
      exact leaf
    | keyword word =>
      cases word with
      | none | true | false =>
        cases h
        exact leaf
      | _ => cases h
    | symbol sign =>
      cases sign with
      | leftParen => exact parenthesized_within within h
      | _ => cases h
    | newline | endOfInput => cases h

/-! ### Chains -/

/-- A suffix makes a tree higher, and not higher than a chain may be. -/
theorem suffix?_height {left left' : Expr} {height : Nat}
    (h : suffix? inner left left.height ts = .ok (some (left', height, rest))) :
    left'.height = height ∧ height ≤ maxHeight := by
  unfold suffix? at h
  split at h
  · obtain ⟨⟨name, more⟩, -, h⟩ := bind_eq_ok h
    obtain ⟨height, grows, h⟩ := bind_eq_ok h
    cases h
    obtain ⟨rfl, le⟩ := grown_eq_ok grows
    exact ⟨by rw [Expr.height, Nat.max_zero], le⟩
  · split at h
    · obtain ⟨⟨args, more⟩, -, h⟩ := bind_eq_ok h
      obtain ⟨height, grows, h⟩ := bind_eq_ok h
      cases h
      obtain ⟨rfl, le⟩ := grown_eq_ok grows
      exact ⟨by rw [Expr.height, Nat.max_comm], le⟩
    · split at h
      · obtain ⟨⟨index, more⟩, -, h⟩ := bind_eq_ok h
        obtain ⟨more, -, h⟩ := bind_eq_ok h
        obtain ⟨height, grows, h⟩ := bind_eq_ok h
        cases h
        obtain ⟨rfl, le⟩ := grown_eq_ok grows
        exact ⟨by rw [Expr.height], le⟩
      · cases h

theorem suffixes_within (limit : maxHeight ≤ bound) (room : Nat) :
    ∀ {left ts e rest}, left.height ≤ bound →
      suffixes inner room left left.height ts = .ok (e, rest) → e.height ≤ bound := by
  induction room with
  | zero =>
    intro left ts e rest fits h
    unfold suffixes at h
    obtain ⟨found, -, h⟩ := bind_eq_ok h
    cases found with
    | none =>
      cases h
      exact fits
    | some found => cases h
  | succ room ih =>
    intro left ts e rest fits h
    unfold suffixes at h
    obtain ⟨found, read, h⟩ := bind_eq_ok h
    cases found with
    | none =>
      cases h
      exact fits
    | some found =>
      obtain ⟨left', height, more⟩ := found
      obtain ⟨rfl, le⟩ := suffix?_height read
      exact ih (Nat.le_trans le limit) h

/-- The operator makes a node over its operands. -/
def Grows (operator? : List Token → Option Joining) : Prop :=
  ∀ {ts join rest}, operator? ts = some (join, rest) →
    ∀ left right, (join left right).height = max left.height right.height + 1

theorem chain_within {operator? : List Token → Option Joining} (grows : Grows operator?)
    {operand : Parser Expr} (limit : maxHeight ≤ bound) (room : Nat) :
    ∀ {left ts e rest}, left.height ≤ bound →
      chain operator? operand room left left.height ts = .ok (e, rest) → e.height ≤ bound := by
  induction room with
  | zero =>
    intro left ts e rest fits h
    unfold chain at h
    split at h
    · cases h
      exact fits
    · obtain ⟨⟨right, more⟩, -, h⟩ := bind_eq_ok h
      obtain ⟨height, -, h⟩ := bind_eq_ok h
      cases h
  | succ room ih =>
    intro left ts e rest fits h
    unfold chain at h
    split at h
    · cases h
      exact fits
    · rename_i join more found
      obtain ⟨⟨right, more⟩, -, h⟩ := bind_eq_ok h
      obtain ⟨height, grown, h⟩ := bind_eq_ok h
      obtain ⟨same, le⟩ := grown_eq_ok grown
      rw [← grows found left right] at same
      subst same
      exact ih (Nat.le_trans le limit) h

theorem chained_within {operator? : List Token → Option Joining} (grows : Grows operator?)
    {operand : Parser Expr} (limit : maxHeight ≤ bound) (within : Within bound operand) :
    Within bound (chained operator? operand) := by
  intro ts e rest h
  obtain ⟨⟨left, more⟩, read, h⟩ := bind_eq_ok h
  exact chain_within grows limit maxHeight (within read) h

theorem productOp?_grows : Grows productOp? := by
  intro ts join rest h
  unfold productOp? at h
  split at h <;> cases h <;> exact fun _ _ => rfl

theorem sumOp?_grows : Grows sumOp? := by
  intro ts join rest h
  unfold sumOp? at h
  split at h <;> cases h <;> exact fun _ _ => rfl

theorem comparisonOp?_grows : Grows comparisonOp? := by
  intro ts join rest h
  unfold comparisonOp? at h
  split at h <;> cases h <;> exact fun _ _ => rfl

theorem andOp?_grows : Grows andOp? := by
  intro ts join rest h
  unfold andOp? at h
  split at h <;> cases h
  exact fun _ _ => rfl

theorem orOp?_grows : Grows orOp? := by
  intro ts join rest h
  unfold orOp? at h
  split at h <;> cases h
  exact fun _ _ => rfl

/-! ### Levels of precedence -/

section

variable (deeper : inside + 1 ≤ bound) (limit : maxHeight ≤ bound) (within : inner.Within inside)

include deeper limit within

theorem negation_within : Within bound (negation inner) := by
  intro ts e rest h
  unfold negation at h
  split at h
  · obtain ⟨⟨operand, more⟩, read, h⟩ := bind_eq_ok h
    cases h
    exact Nat.le_trans (Nat.succ_le_succ (within.negative read)) deeper
  · obtain ⟨⟨left, more⟩, read, h⟩ := bind_eq_ok h
    exact suffixes_within limit maxHeight (Nat.le_trans (primary_within within read) deeper) h

theorem inversion_within : Within bound (inversion inner) := by
  intro ts e rest h
  unfold inversion at h
  split at h
  · obtain ⟨⟨operand, more⟩, read, h⟩ := bind_eq_ok h
    cases h
    exact Nat.le_trans (Nat.succ_le_succ (within.negated read)) deeper
  · exact chained_within comparisonOp?_grows limit (chained_within sumOp?_grows limit
      (chained_within productOp?_grows limit (negation_within deeper limit within))) h

theorem disjunction_within : Within bound (disjunction inner) :=
  chained_within orOp?_grows limit
    (chained_within andOp?_grows limit (inversion_within deeper limit within))

omit limit in
theorem lambda_within : Within bound (lambda inner) := by
  intro ts e rest h
  have body {names : List String} {ts : List Token}
      (h : (do
        let rest ← dropSymbol .colon .colon ts
        let r ← inner.expression rest
        Except.ok (Expr.lambda names r.1, r.2)) = .ok (e, rest)) : e.height ≤ bound := by
    obtain ⟨more, -, h⟩ := bind_eq_ok h
    obtain ⟨⟨body, more⟩, read, h⟩ := bind_eq_ok h
    cases h
    exact Nat.le_trans (Nat.succ_le_succ (within.expression read)) deeper
  unfold lambda at h
  split at h
  · exact body h
  · obtain ⟨⟨names, more⟩, -, h⟩ := bind_eq_ok h
    exact body h

end

/-- By induction on the levels that are left: each of them adds at most one to the height of a
chain. -/
theorem Inner.ofLevels_within (levels : Nat) :
    (Inner.ofLevels levels).Within (maxHeight + levels - 1) := by
  induction levels with
  | zero =>
    have none : Syntax.Within (maxHeight + 0 - 1) tooDeep := fun h => nomatch h
    exact ⟨none, none, none⟩
  | succ levels ih =>
    have positive : 0 < maxHeight := by decide
    have deeper : maxHeight + levels - 1 + 1 ≤ maxHeight + (levels + 1) - 1 := by omega
    have limit : maxHeight ≤ maxHeight + (levels + 1) - 1 := by omega
    refine ⟨fun {ts e rest} h => ?_, inversion_within deeper limit ih,
      negation_within deeper limit ih⟩
    simp only [Inner.ofLevels] at h
    split at h
    · exact lambda_within deeper ih h
    · exact disjunction_within deeper limit ih h

theorem expression_within : Within (maxHeight + maxDepth - 1) expression :=
  (Inner.ofLevels_within maxDepth).expression

/-! ### Statements -/

def Target.exprs : Target → List Expr
  | .name _ => []
  | .attr object _ => [object]
  | .index object key => [object, key]

/-- The outermost expressions of a statement. -/
def Statement.exprs : Statement → List Expr
  | .expr value => [value]
  | .assign target value => target.exprs ++ [value]
  | .raise (some value) => [value]
  | .raise none | .imports _ _ | .fromImport _ _ | .pass => []

/-- The outermost expressions of a program. -/
def Program.exprs (p : Program) : List Expr := p.flatMap fun (_, s) => s.exprs

/-- What is assigned to is part of an expression. -/
theorem Expr.target?_lower {target : Target} (h : e.target? = some target) :
    ∀ part ∈ target.exprs, part.height < e.height := by
  cases e with
  | name word =>
    cases h
    exact fun part found => nomatch found
  | attr object member =>
    cases h
    intro part found
    obtain rfl := List.mem_singleton.mp found
    exact Nat.lt_succ_self _
  | index object key =>
    cases h
    intro part found
    rcases List.mem_cons.mp found with rfl | found
    · exact Nat.lt_succ_of_le (Nat.le_max_left _ _)
    · obtain rfl := List.mem_singleton.mp found
      exact Nat.lt_succ_of_le (Nat.le_max_right _ _)
  | _ => cases h

theorem simpleStatement_within {s : Statement} (h : simpleStatement ts = .ok (s, rest)) :
    ∀ e ∈ s.exprs, e.height ≤ maxHeight + maxDepth - 1 := by
  obtain ⟨⟨left, more⟩, read, h⟩ := bind_eq_ok h
  have left_within := expression_within read
  dsimp only at h
  split at h
  · cases h
    intro e found
    obtain rfl := List.mem_singleton.mp found
    exact left_within
  · split at h
    · cases h
    · rename_i target aimed
      obtain ⟨⟨value, more⟩, read, h⟩ := bind_eq_ok h
      cases h
      intro e found
      rcases List.mem_append.mp found with part | value
      · exact Nat.le_trans (Nat.le_of_lt (Expr.target?_lower aimed e part)) left_within
      · obtain rfl := List.mem_singleton.mp value
        exact expression_within read

theorem statement_within {s : Statement} (h : statement ts = .ok (s, rest)) :
    ∀ e ∈ s.exprs, e.height ≤ maxHeight + maxDepth - 1 := by
  have nothing (e : Expr) (found : e ∈ ([] : List Expr)) : e.height ≤ maxHeight + maxDepth - 1 :=
    nomatch found
  cases ts with
  | nil => exact simpleStatement_within h
  | cons t more =>
    simp only [statement] at h
    split at h
    · obtain ⟨⟨path, more⟩, -, h⟩ := bind_eq_ok h
      obtain ⟨⟨name, more⟩, -, h⟩ := bind_eq_ok h
      cases h
      exact nothing
    · obtain ⟨⟨path, more⟩, -, h⟩ := bind_eq_ok h
      dsimp only at h
      split at h
      · cases h
      · obtain ⟨⟨names, more⟩, -, h⟩ := bind_eq_ok h
        cases h
        exact nothing
    · split at h
      · cases h
        exact nothing
      · obtain ⟨⟨value, more⟩, read, h⟩ := bind_eq_ok h
        cases h
        intro e found
        obtain rfl := List.mem_singleton.mp found
        exact expression_within read
    · cases h
      exact nothing
    · exact simpleStatement_within h

theorem statements_within {fuel : Nat} : ∀ {ts p}, statements fuel ts = .ok p →
    ∀ e ∈ Program.exprs p, e.height ≤ maxHeight + maxDepth - 1 := by
  induction fuel with
  | zero => exact fun h => nomatch h
  | succ fuel ih =>
    intro ts p h
    unfold statements at h
    dsimp only at h
    split at h
    · cases h
      exact fun e found => nomatch found
    · obtain ⟨⟨first, more⟩, read, h⟩ := bind_eq_ok h
      dsimp only at h
      split at h
      · obtain ⟨others, follow, h⟩ := bind_eq_ok h
        cases h
        intro e found
        rcases List.mem_append.mp found with first | other
        · exact statement_within read e first
        · exact ih follow e other
      · cases h

/-- No expression of a program that can be read is higher. -/
theorem readProgram_within {source : String} {p : Program} (h : readProgram source = .ok p) :
    ∀ e ∈ p.exprs, e.height ≤ maxHeight + maxDepth - 1 := by
  obtain ⟨ts, -, h⟩ := bind_eq_ok h
  exact statements_within h

/-- No expression that can be read is higher. -/
theorem readExpr_within {source : String} (h : readExpr source = .ok e) :
    e.height ≤ maxHeight + maxDepth - 1 := by
  obtain ⟨ts, -, h⟩ := bind_eq_ok h
  obtain ⟨⟨read, more⟩, parsed, h⟩ := bind_eq_ok h
  dsimp only at h
  split at h
  · cases h
    exact expression_within parsed
  · cases h

end ScriptBridge.Syntax
