import Mathlib.Data.Option.Basic
import ScriptBridge.Syntax.Grammar

/-!
# What a parser does not look at

Two token lists run beside each other: up to a seam they hold the same tokens, though maybe at other
places, and the seam itself is the end of a line or of the input in both. No expression goes over
such an end, so whatever stands behind it, an expression parser does the same on both lists. It
answers with the same tree and stops at corresponding places before the seam, or it finds the same
fault at corresponding places.
-/

namespace ScriptBridge.Syntax

/-- A place where two token lists begin to differ. -/
structure Seam where
  /-- The places before the seam that correspond. -/
  moves : Position → Position → Prop
  ends : Kind
  halts : ends = .newline ∨ ends = .endOfInput
  here : Position
  here' : Position
  moved : moves here here'
  after : List Token
  after' : List Token

/-- The lists hold so many tokens before the seam, of the same kinds. -/
inductive Beside (s : Seam) : Nat → List Token → List Token → Prop
  | seam : Beside s 0 (⟨s.ends, s.here⟩ :: s.after) (⟨s.ends, s.here'⟩ :: s.after')
  | token {n : Nat} {kind : Kind} {p p' : Position} {ts ts' : List Token} :
    s.moves p p' → kind ≠ .endOfInput → Beside s n ts ts' →
      Beside s (n + 1) (⟨kind, p⟩ :: ts) (⟨kind, p'⟩ :: ts')

/-- Fewer tokens are left before the seam. -/
def Nearer (s : Seam) (n : Nat) (ts ts' : List Token) : Prop := ∃ m < n, Beside s m ts ts'

/-- The results are the same, and fewer tokens are left. -/
def Follow (s : Seam) {α : Type} (n : Nat) (r r' : α × List Token) : Prop :=
  r'.1 = r.1 ∧ Nearer s n r.2 r'.2

/-- The results correspond, or the faults are the same at corresponding places. -/
inductive Agree (s : Seam) {α β : Type} (R : α → β → Prop) :
    Except SyntaxError α → Except SyntaxError β → Prop
  | ok {a : α} {b : β} : R a b → Agree s R (.ok a) (.ok b)
  | error {reason : Reason} {p p' : Position} : s.moves p p' →
    Agree s R (.error ⟨reason, p⟩) (.error ⟨reason, p'⟩)

variable {s : Seam} {α β γ δ : Type} {m n : Nat} {ts ts' : List Token}

theorem Agree.bind {R : α → β → Prop} {Q : γ → δ → Prop} {x : Except SyntaxError α}
    {x' : Except SyntaxError β} {f : α → Except SyntaxError γ} {f' : β → Except SyntaxError δ}
    (h : Agree s R x x') (next : ∀ a b, R a b → Agree s Q (f a) (f' b)) :
    Agree s Q (x >>= f) (x' >>= f') := by
  cases h with
  | ok related => exact next _ _ related
  | error moved => exact .error moved

theorem Agree.mono {R Q : α → β → Prop} {x : Except SyntaxError α} {x' : Except SyntaxError β}
    (h : Agree s R x x') (weaker : ∀ a b, R a b → Q a b) : Agree s Q x x' := by
  cases h with
  | ok related => exact .ok (weaker _ _ related)
  | error moved => exact .error moved

theorem Nearer.mono (h : Nearer s m ts ts') (le : m ≤ n) : Nearer s n ts ts' := by
  obtain ⟨k, less, beside⟩ := h
  exact ⟨k, Nat.lt_of_lt_of_le less le, beside⟩

theorem Follow.mono {r r' : α × List Token} (h : Follow s m r r') (le : m ≤ n) :
    Follow s n r r' := ⟨h.1, h.2.mono le⟩

theorem Follow.of_nearer {a : α} (h : Nearer s n ts ts') : Follow s n (a, ts) (a, ts') := ⟨rfl, h⟩

/-! ### The front of the lists -/

namespace Beside

theorem nearer (h : Beside s n ts ts') : Nearer s (n + 1) ts ts' := ⟨n, Nat.lt_succ_self n, h⟩

/-- Both lists begin with tokens of one kind, which only an end of a line or of the input keeps from
being a token before the seam. -/
theorem front (h : Beside s n ts ts') : ∃ kind p p' rest rest', ts = ⟨kind, p⟩ :: rest ∧
    ts' = ⟨kind, p'⟩ :: rest' ∧ s.moves p p' ∧
    (kind ≠ .newline → kind ≠ .endOfInput → Nearer s n rest rest') := by
  cases h with
  | seam =>
    refine ⟨_, _, _, _, _, rfl, rfl, s.moved, fun line input => ?_⟩
    exact (s.halts.elim line input).elim
  | token moved _ h => exact ⟨_, _, _, _, _, rfl, rfl, moved, fun _ _ => h.nearer⟩

theorem nextPosition (h : Beside s n ts ts') :
    s.moves (Syntax.nextPosition ts) (Syntax.nextPosition ts') := by
  obtain ⟨kind, p, p', rest, rest', rfl, rfl, moved, -⟩ := h.front
  exact moved

theorem unexpected (h : Beside s n ts ts') (expected : Expectation) {R : α → β → Prop} :
    Agree s R (.error (Syntax.unexpected expected ts)) (.error (Syntax.unexpected expected ts')) := by
  obtain ⟨kind, p, p', rest, rest', rfl, rfl, moved, -⟩ := h.front
  cases kind <;> exact .error moved

theorem dropSymbol? (h : Beside s n ts ts') (sign : Symbol) :
    Option.Rel (Nearer s n) (Syntax.dropSymbol? sign ts) (Syntax.dropSymbol? sign ts') := by
  obtain ⟨kind, p, p', rest, rest', rfl, rfl, moved, near⟩ := h.front
  cases kind with
  | symbol found =>
    by_cases same : found = sign
    · simpa only [Syntax.dropSymbol?, if_pos same] using .some (near nofun nofun)
    · simpa only [Syntax.dropSymbol?, if_neg same] using .none
  | _ => exact .none

theorem dropKeyword? (h : Beside s n ts ts') (word : Keyword) :
    Option.Rel (Nearer s n) (Syntax.dropKeyword? word ts) (Syntax.dropKeyword? word ts') := by
  obtain ⟨kind, p, p', rest, rest', rfl, rfl, moved, near⟩ := h.front
  cases kind with
  | keyword found =>
    by_cases same : found = word
    · simpa only [Syntax.dropKeyword?, if_pos same] using .some (near nofun nofun)
    · simpa only [Syntax.dropKeyword?, if_neg same] using .none
  | _ => exact .none

theorem dropSymbol (h : Beside s n ts ts') (sign : Symbol) (expected : Expectation) :
    Agree s (Nearer s n) (Syntax.dropSymbol sign expected ts)
      (Syntax.dropSymbol sign expected ts') := by
  unfold Syntax.dropSymbol
  have found := h.dropSymbol? sign
  generalize Syntax.dropSymbol? sign ts = d, Syntax.dropSymbol? sign ts' = d' at found
  cases found with
  | some near => exact .ok near
  | none => exact h.unexpected expected

theorem identifier (h : Beside s n ts ts') (expected : Expectation) :
    Agree s (Follow s n) (Syntax.identifier expected ts) (Syntax.identifier expected ts') := by
  have refused := h.unexpected expected (R := Follow s (α := String) n)
  obtain ⟨kind, p, p', rest, rest', rfl, rfl, moved, near⟩ := h.front
  cases kind with
  | name word => exact .ok (.of_nearer (near nofun nofun))
  | _ => exact refused

theorem grown (h : Beside s n ts ts') (left right : Nat) :
    Agree s (fun height height' => height' = height) (Syntax.grown left right ts)
      (Syntax.grown left right ts') := by
  unfold Syntax.grown
  split
  · exact .error h.nextPosition
  · exact .ok rfl

end Beside

/-! ### Brackets and primaries -/

/-- The parser does the same on lists that run beside each other, and takes at least one token. -/
def Keeps (s : Seam) (parse : Parser α) : Prop :=
  ∀ {n ts ts'}, Beside s n ts ts' → Agree s (Follow s n) (parse ts) (parse ts')

/-- The parsers of the next level do the same on lists that run beside each other. -/
structure Inner.Keeps (s : Seam) (inner : Inner) : Prop where
  expression : Syntax.Keeps s inner.expression
  negated : Syntax.Keeps s inner.negated
  negative : Syntax.Keeps s inner.negative

/-- By induction on what bounds the number of the arguments, which is enough in both lists. -/
theorem arguments_agree {item : Parser Expr} (keeps : Keeps s item) {fuel fuel' : Nat}
    (h : Beside s n ts ts') (enough : n < fuel) (enough' : n < fuel') :
    Agree s (Follow s n) (arguments item fuel ts) (arguments item fuel' ts') := by
  induction fuel generalizing n ts ts' fuel' with
  | zero => exact absurd enough (Nat.not_lt_zero n)
  | succ fuel ih =>
    cases fuel' with
    | zero => exact absurd enough' (Nat.not_lt_zero n)
    | succ fuel' =>
      unfold arguments
      have closed := h.dropSymbol? .rightParen
      generalize dropSymbol? .rightParen ts = d, dropSymbol? .rightParen ts' = d' at closed
      cases closed with
      | some near => exact .ok (.of_nearer near)
      | none =>
        refine (keeps h).bind ?_
        rintro ⟨_, rest⟩ ⟨first, rest'⟩ ⟨rfl, m, less, h⟩
        have comma := h.dropSymbol? .comma
        dsimp only at h ⊢ comma
        generalize dropSymbol? .comma rest = d, dropSymbol? .comma rest' = d' at comma
        cases comma with
        | none =>
          refine (h.dropSymbol .rightParen .rightParen).bind fun rest rest' near => ?_
          exact .ok (.of_nearer (near.mono (Nat.le_of_lt less)))
        | some near =>
          obtain ⟨k, closer, h⟩ := near
          refine (ih h (by omega) (by omega)).bind ?_
          rintro ⟨_, rest⟩ ⟨items, rest'⟩ ⟨rfl, near⟩
          exact .ok (.of_nearer (near.mono (by omega)))

/-- There are more tokens than before the seam. -/
theorem Beside.lt_length (h : Beside s n ts ts') : n < ts.length ∧ n < ts'.length := by
  induction h with
  | seam => simp
  | token _ _ _ ih => simpa using ih

theorem arguments_keeps {item : Parser Expr} (keeps : Keeps s item) :
    Keeps s fun ts => arguments item (ts.length + 1) ts := fun h =>
  arguments_agree keeps h (Nat.lt_succ_of_lt h.lt_length.1) (Nat.lt_succ_of_lt h.lt_length.2)

variable {inner : Inner}

theorem parenthesized_keeps (keeps : inner.Keeps s) : Keeps s (parenthesized inner) := by
  intro n ts ts' h
  unfold parenthesized
  have closed := h.dropSymbol? .rightParen
  generalize dropSymbol? .rightParen ts = d, dropSymbol? .rightParen ts' = d' at closed
  cases closed with
  | some near => exact .ok (.of_nearer near)
  | none =>
    refine (keeps.expression h).bind ?_
    rintro ⟨_, rest⟩ ⟨first, rest'⟩ ⟨rfl, m, less, h⟩
    have closed := h.dropSymbol? .rightParen
    dsimp only at h ⊢ closed
    generalize dropSymbol? .rightParen rest = d, dropSymbol? .rightParen rest' = d' at closed
    cases closed with
    | some near => exact .ok (.of_nearer (near.mono (Nat.le_of_lt less)))
    | none =>
      refine (h.dropSymbol .comma .commaOrParen).bind ?_
      rintro rest rest' ⟨k, closer, h⟩
      refine (arguments_keeps keeps.expression h).bind ?_
      rintro ⟨_, rest⟩ ⟨items, rest'⟩ ⟨rfl, near⟩
      exact .ok (.of_nearer (near.mono (by omega)))

theorem adjacentTexts_follow (h : Beside s n ts ts') :
    Follow s (n + 1) (adjacentTexts ts) (adjacentTexts ts') := by
  induction h with
  | seam =>
    have stays := (Beside.seam (s := s)).nearer
    rcases s.halts with ends | ends <;> rw [ends] at stays ⊢ <;> exact .of_nearer stays
  | @token m kind p p' rest rest' moved inside h ih =>
    cases kind with
    | text value =>
      obtain ⟨same, near⟩ := ih
      exact ⟨congrArg (value ++ ·) same, near.mono (Nat.le_succ _)⟩
    | _ => exact .of_nearer (Beside.token moved inside h).nearer

theorem primary_keeps (keeps : inner.Keeps s) : Keeps s (primary inner) := by
  intro n ts ts' h
  have refused := h.unexpected .expression (R := Follow s (α := Expr) n)
  obtain ⟨kind, p, p', rest, rest', rfl, rfl, moved, near⟩ := h.front
  cases kind with
  | integer | long | float | name => exact .ok (.of_nearer (near nofun nofun))
  | text value =>
    obtain ⟨m, less, h⟩ := near nofun nofun
    obtain ⟨same, near⟩ := adjacentTexts_follow h
    refine .ok ⟨?_, near.mono less⟩
    exact congrArg (fun more => Expr.literal (.text (value ++ more))) same
  | keyword word =>
    cases word with
    | none | true | false => exact .ok (.of_nearer (near nofun nofun))
    | _ => exact refused
  | symbol sign =>
    cases sign with
    | leftParen =>
      obtain ⟨m, less, h⟩ := near nofun nofun
      exact (parenthesized_keeps keeps h).mono fun _ _ follow => follow.mono (Nat.le_of_lt less)
    | _ => exact refused
  | newline | endOfInput => exact refused

/-! ### Chains -/

/-- Results of `suffix?` that correspond. -/
def SuffixFollow (s : Seam) (n : Nat) (r r' : Option (Expr × Nat × List Token)) : Prop :=
  Option.Rel (fun x x' => x'.1 = x.1 ∧ x'.2.1 = x.2.1 ∧ Nearer s n x.2.2 x'.2.2) r r'

theorem suffix?_agree (keeps : inner.Keeps s) (left : Expr) (height : Nat)
    (h : Beside s n ts ts') :
    Agree s (SuffixFollow s n) (suffix? inner left height ts) (suffix? inner left height ts') := by
  unfold suffix?
  have dot := h.dropSymbol? .dot
  generalize dropSymbol? .dot ts = d, dropSymbol? .dot ts' = d' at dot
  cases dot with
  | some near =>
    obtain ⟨m, less, h⟩ := near
    refine (h.identifier .attributeName).bind ?_
    rintro ⟨_, rest⟩ ⟨name, rest'⟩ ⟨rfl, k, closer, h⟩
    refine (h.grown height 0).bind ?_
    rintro _ grown rfl
    exact .ok (.some ⟨rfl, rfl, k, by omega, h⟩)
  | none =>
    have opening := h.dropSymbol? .leftParen
    dsimp only
    generalize dropSymbol? .leftParen ts = d, dropSymbol? .leftParen ts' = d' at opening
    cases opening with
    | some near =>
      obtain ⟨m, less, h⟩ := near
      refine (arguments_keeps keeps.expression h).bind ?_
      rintro ⟨_, rest⟩ ⟨args, rest'⟩ ⟨rfl, k, closer, h⟩
      refine (h.grown height (Expr.heights args)).bind ?_
      rintro _ grown rfl
      exact .ok (.some ⟨rfl, rfl, k, by omega, h⟩)
    | none =>
      have bracket := h.dropSymbol? .leftBracket
      dsimp only
      generalize dropSymbol? .leftBracket ts = d, dropSymbol? .leftBracket ts' = d' at bracket
      cases bracket with
      | some near =>
        obtain ⟨m, less, h⟩ := near
        refine (keeps.expression h).bind ?_
        rintro ⟨_, rest⟩ ⟨index, rest'⟩ ⟨rfl, k, closer, h⟩
        refine (h.dropSymbol .rightBracket .rightBracket).bind ?_
        rintro rest rest' ⟨j, nearer, h⟩
        refine (h.grown height index.height).bind ?_
        rintro _ grown rfl
        exact .ok (.some ⟨rfl, rfl, j, by omega, h⟩)
      | none => exact .ok .none

theorem suffixes_agree (keeps : inner.Keeps s) (room : Nat) : ∀ {n ts ts'} (left : Expr)
    (height : Nat), Beside s n ts ts' →
      Agree s (Follow s (n + 1)) (suffixes inner room left height ts)
        (suffixes inner room left height ts') := by
  induction room with
  | zero =>
    intro n ts ts' left height h
    unfold suffixes
    refine (suffix?_agree keeps left height h).bind fun r r' related => ?_
    cases related with
    | none => exact .ok (.of_nearer h.nearer)
    | @some r r' related =>
      obtain ⟨_, _, rest⟩ := r
      obtain ⟨left, height, rest'⟩ := r'
      obtain ⟨rfl, rfl, m, less, h⟩ := related
      exact .error h.nextPosition
  | succ room ih =>
    intro n ts ts' left height h
    unfold suffixes
    refine (suffix?_agree keeps left height h).bind fun r r' related => ?_
    cases related with
    | none => exact .ok (.of_nearer h.nearer)
    | @some r r' related =>
      obtain ⟨_, _, rest⟩ := r
      obtain ⟨left, height, rest'⟩ := r'
      obtain ⟨rfl, rfl, m, less, h⟩ := related
      exact (ih left height h).mono fun _ _ follow => follow.mono (Nat.le_succ_of_le less)

/-- An operator is found in both lists or in none. -/
def Joins (s : Seam) (operator? : List Token → Option Joining) : Prop :=
  ∀ {n ts ts'}, Beside s n ts ts' → Option.Rel (Follow s n) (operator? ts) (operator? ts')

theorem chain_agree {operator? : List Token → Option Joining} {operand : Parser Expr}
    (joins : Joins s operator?) (keeps : Keeps s operand) (room : Nat) : ∀ {n ts ts'}
    (left : Expr) (height : Nat), Beside s n ts ts' →
      Agree s (Follow s (n + 1)) (chain operator? operand room left height ts)
        (chain operator? operand room left height ts') := by
  induction room with
  | zero =>
    intro n ts ts' left height h
    unfold chain
    have found := joins h
    generalize operator? ts = d, operator? ts' = d' at found
    cases found with
    | none => exact .ok (.of_nearer h.nearer)
    | @some r r' related =>
      obtain ⟨_, rest⟩ := r
      obtain ⟨join, rest'⟩ := r'
      obtain ⟨rfl, m, less, h⟩ := related
      refine (keeps h).bind ?_
      rintro ⟨_, rest⟩ ⟨right, rest'⟩ ⟨rfl, k, closer, h⟩
      refine (h.grown height right.height).bind ?_
      rintro _ grown rfl
      exact .error h.nextPosition
  | succ room ih =>
    intro n ts ts' left height h
    unfold chain
    have found := joins h
    generalize operator? ts = d, operator? ts' = d' at found
    cases found with
    | none => exact .ok (.of_nearer h.nearer)
    | @some r r' related =>
      obtain ⟨_, rest⟩ := r
      obtain ⟨join, rest'⟩ := r'
      obtain ⟨rfl, m, less, h⟩ := related
      refine (keeps h).bind ?_
      rintro ⟨_, rest⟩ ⟨right, rest'⟩ ⟨rfl, k, closer, h⟩
      refine (h.grown height right.height).bind ?_
      rintro _ grown rfl
      exact (ih _ _ h).mono fun _ _ follow => follow.mono (by omega)

theorem chained_keeps {operator? : List Token → Option Joining} {operand : Parser Expr}
    (joins : Joins s operator?) (keeps : Keeps s operand) : Keeps s (chained operator? operand) := by
  intro n ts ts' h
  refine (keeps h).bind ?_
  rintro ⟨_, rest⟩ ⟨left, rest'⟩ ⟨rfl, m, less, h⟩
  exact (chain_agree joins keeps maxHeight left left.height h).mono fun _ _ follow =>
    follow.mono less

theorem productOp?_joins : Joins s productOp? := by
  intro n ts ts' h
  obtain ⟨kind, p, p', rest, rest', rfl, rfl, moved, near⟩ := h.front
  cases kind with
  | symbol sign =>
    cases sign with
    | star | slash | percent => exact .some (.of_nearer (near nofun nofun))
    | _ => exact .none
  | _ => exact .none

theorem sumOp?_joins : Joins s sumOp? := by
  intro n ts ts' h
  obtain ⟨kind, p, p', rest, rest', rfl, rfl, moved, near⟩ := h.front
  cases kind with
  | symbol sign =>
    cases sign with
    | plus | minus => exact .some (.of_nearer (near nofun nofun))
    | _ => exact .none
  | _ => exact .none

theorem comparisonOp?_joins : Joins s comparisonOp? := by
  intro n ts ts' h
  obtain ⟨kind, p, p', rest, rest', rfl, rfl, moved, near⟩ := h.front
  cases kind with
  | symbol sign =>
    cases sign with
    | equalEqual | notEqual | less | greater | lessEqual | greaterEqual =>
      exact .some (.of_nearer (near nofun nofun))
    | _ => exact .none
  | keyword word =>
    cases word with
    | within => exact .some (.of_nearer (near nofun nofun))
    | not =>
      -- the second word of the operator is looked at as well
      obtain ⟨m, less, h⟩ := near nofun nofun
      obtain ⟨kind, q, q', rest, rest', rfl, rfl, moved, near⟩ := h.front
      cases kind with
      | keyword word =>
        cases word with
        | within => exact .some (.of_nearer ((near nofun nofun).mono (Nat.le_of_lt less)))
        | _ => exact .none
      | _ => exact .none
    | _ => exact .none
  | _ => exact .none

theorem andOp?_joins : Joins s andOp? := by
  intro n ts ts' h
  obtain ⟨kind, p, p', rest, rest', rfl, rfl, moved, near⟩ := h.front
  cases kind with
  | keyword word =>
    cases word with
    | and => exact .some (.of_nearer (near nofun nofun))
    | _ => exact .none
  | _ => exact .none

theorem orOp?_joins : Joins s orOp? := by
  intro n ts ts' h
  obtain ⟨kind, p, p', rest, rest', rfl, rfl, moved, near⟩ := h.front
  cases kind with
  | keyword word =>
    cases word with
    | or => exact .some (.of_nearer (near nofun nofun))
    | _ => exact .none
  | _ => exact .none

/-! ### Levels of precedence -/

theorem suffixed_keeps (keeps : inner.Keeps s) : Keeps s (suffixed inner) := by
  intro n ts ts' h
  refine (primary_keeps keeps h).bind ?_
  rintro ⟨_, rest⟩ ⟨left, rest'⟩ ⟨rfl, m, less, h⟩
  exact (suffixes_agree keeps maxHeight left left.height h).mono fun _ _ follow =>
    follow.mono less

theorem negation_keeps (keeps : inner.Keeps s) : Keeps s (negation inner) := by
  intro n ts ts' h
  unfold negation
  have minus := h.dropSymbol? .minus
  generalize dropSymbol? .minus ts = d, dropSymbol? .minus ts' = d' at minus
  cases minus with
  | none => exact suffixed_keeps keeps h
  | some near =>
    obtain ⟨m, less, h⟩ := near
    refine (keeps.negative h).bind ?_
    rintro ⟨_, rest⟩ ⟨operand, rest'⟩ ⟨rfl, near⟩
    exact .ok (.of_nearer (near.mono (Nat.le_of_lt less)))

theorem comparison_keeps (keeps : inner.Keeps s) : Keeps s (comparison inner) :=
  chained_keeps comparisonOp?_joins (chained_keeps sumOp?_joins
    (chained_keeps productOp?_joins (negation_keeps keeps)))

theorem inversion_keeps (keeps : inner.Keeps s) : Keeps s (inversion inner) := by
  intro n ts ts' h
  unfold inversion
  have not := h.dropKeyword? .not
  generalize dropKeyword? .not ts = d, dropKeyword? .not ts' = d' at not
  cases not with
  | none => exact comparison_keeps keeps h
  | some near =>
    obtain ⟨m, less, h⟩ := near
    refine (keeps.negated h).bind ?_
    rintro ⟨_, rest⟩ ⟨operand, rest'⟩ ⟨rfl, near⟩
    exact .ok (.of_nearer (near.mono (Nat.le_of_lt less)))

theorem disjunction_keeps (keeps : inner.Keeps s) : Keeps s (disjunction inner) :=
  chained_keeps orOp?_joins (chained_keeps andOp?_joins (inversion_keeps keeps))

theorem parameters_agree {fuel fuel' : Nat} (h : Beside s n ts ts') (enough : n < fuel)
    (enough' : n < fuel') : Agree s (Follow s n) (parameters fuel ts) (parameters fuel' ts') := by
  induction fuel generalizing n ts ts' fuel' with
  | zero => exact absurd enough (Nat.not_lt_zero n)
  | succ fuel ih =>
    cases fuel' with
    | zero => exact absurd enough' (Nat.not_lt_zero n)
    | succ fuel' =>
      unfold parameters
      refine (h.identifier .parameterName).bind ?_
      rintro ⟨_, rest⟩ ⟨name, rest'⟩ ⟨rfl, m, less, h⟩
      have comma := h.dropSymbol? .comma
      dsimp only at h ⊢ comma
      generalize dropSymbol? .comma rest = d, dropSymbol? .comma rest' = d' at comma
      cases comma with
      | none => exact .ok (.of_nearer ⟨m, less, h⟩)
      | some near =>
        obtain ⟨k, closer, h⟩ := near
        refine (ih h (by omega) (by omega)).bind ?_
        rintro ⟨_, rest⟩ ⟨names, rest'⟩ ⟨rfl, near⟩
        exact .ok (.of_nearer (near.mono (by omega)))

theorem lambda_keeps (keeps : inner.Keeps s) : Keeps s (lambda inner) := by
  intro n ts ts' h
  have body (names : List String) {m : Nat} {ts ts' : List Token} (h : Beside s m ts ts')
      (le : m ≤ n) : Agree s (Follow s n)
        (do
          let rest ← dropSymbol .colon .colon ts
          let r ← inner.expression rest
          .ok (Expr.lambda names r.1, r.2))
        (do
          let rest ← dropSymbol .colon .colon ts'
          let r ← inner.expression rest
          .ok (Expr.lambda names r.1, r.2)) := by
    refine (h.dropSymbol .colon .colon).bind ?_
    rintro rest rest' ⟨k, closer, h⟩
    refine (keeps.expression h).bind ?_
    rintro ⟨_, rest⟩ ⟨body, rest'⟩ ⟨rfl, near⟩
    exact .ok (.of_nearer (near.mono (by omega)))
  unfold lambda
  have colon := h.dropSymbol? .colon
  generalize dropSymbol? .colon ts = d, dropSymbol? .colon ts' = d' at colon
  cases colon with
  | some near => exact body [] h (Nat.le_refl n)
  | none =>
    have enough := h.lt_length
    refine (parameters_agree h (Nat.lt_succ_of_lt enough.1) (Nat.lt_succ_of_lt enough.2)).bind ?_
    rintro ⟨_, rest⟩ ⟨names, rest'⟩ ⟨rfl, m, less, h⟩
    exact body names h (Nat.le_of_lt less)

/-- By induction on the levels that are left. -/
theorem Inner.ofLevels_keeps (s : Seam) (levels : Nat) : (Inner.ofLevels levels).Keeps s := by
  induction levels with
  | zero =>
    have high : Syntax.Keeps s tooDeep := fun h => .error h.nextPosition
    exact ⟨high, high, high⟩
  | succ levels ih =>
    refine ⟨fun {n ts ts'} h => ?_, inversion_keeps ih, negation_keeps ih⟩
    simp only [Inner.ofLevels]
    have lambda := h.dropKeyword? .lambda
    generalize dropKeyword? .lambda ts = d, dropKeyword? .lambda ts' = d' at lambda
    cases lambda with
    | none => exact disjunction_keeps ih h
    | some near =>
      obtain ⟨m, less, h⟩ := near
      exact (lambda_keeps ih h).mono fun _ _ follow => follow.mono (Nat.le_of_lt less)

/-- No expression goes over a seam. -/
theorem expression_keeps : Keeps s expression := (Inner.ofLevels_keeps s maxDepth).expression

end ScriptBridge.Syntax
