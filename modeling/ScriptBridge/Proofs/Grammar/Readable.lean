import ScriptBridge.Proofs.Grammar.Descent

/-!
# Spellings that read back

A tree is readable if in every slot the parser of the slot answers its spelling with the tree, and
goes on from there, or reports that it exceeds a limit. It is enough to know this of the tree's own
slot. Each kind of node is readable when its parts are.
-/

/-! ## Slots and their parsers

Each slot of the grammar has a parser, and each parser begins with that of the next tighter slot.
A tree that has been read in a tighter slot is passed up unchanged as long as nothing that follows
belongs to it. Brackets and prefix operators are the places where a level of nesting is used.
-/

namespace ScriptBridge.Syntax

/-! ### What a token list does not begin with -/

theorem dropSymbol?_of_opens {rank : Nat} {sign : Symbol} {ts : List Token} (h : Opens rank ts)
    (hs : ∀ n ∈ (Kind.symbol sign).opens?, n < rank) : dropSymbol? sign ts = none := by
  obtain ⟨k, p, more, n, rfl, hk, hn⟩ := h
  unfold dropSymbol?
  split
  · rename_i found _ _ heq
    cases heq
    rw [if_neg]
    rintro rfl
    have := hs n hk
    omega
  · rfl

theorem dropKeyword?_of_opens {rank : Nat} {word : Keyword} {ts : List Token} (h : Opens rank ts)
    (hs : ∀ n ∈ (Kind.keyword word).opens?, n < rank) : dropKeyword? word ts = none := by
  obtain ⟨k, p, more, n, rfl, hk, hn⟩ := h
  unfold dropKeyword?
  split
  · rename_i found _ _ heq
    cases heq
    rw [if_neg]
    rintro rfl
    have := hs n hk
    omega
  · rfl

theorem dropSymbol?_of_stops {rank : Nat} {sign : Symbol} {ts : List Token} (h : Stops rank ts)
    (hs : rank ≤ (Kind.symbol sign).binds) : dropSymbol? sign ts = none := by
  unfold dropSymbol?
  split
  · rename_i found p rest
    have := stops_cons.1 h
    rw [if_neg]
    rintro rfl
    omega
  · rfl

/-! ### Operators -/

/-- The operators that the parser of a slot joins trees by. -/
def Slot.operator? : Slot → List Token → Option Joining
  | .disjunction => orOp?
  | .conjunction => andOp?
  | .comparison => comparisonOp?
  | .sum => sumOp?
  | .product => productOp?
  | _ => fun _ => none

theorem Slot.operator?_of_stops {s : Slot} {ts : List Token} (h : Stops s.rank ts) :
    s.operator? ts = none := by
  have front : ∀ k p rest, ts = ⟨k, p⟩ :: rest → k.binds < s.rank := by
    rintro k p rest rfl
    exact stops_cons.1 h
  cases s with
  | expression | inversion | negation | suffixed | primary => rfl
  | disjunction | conjunction | comparison | sum | product =>
    simp only [Slot.operator?, orOp?, andOp?, comparisonOp?, sumOp?, productOp?]
    split <;> first | rfl | exact absurd (front _ _ _ rfl) (by decide)

theorem BinaryOp.operator?_kinds {op : BinaryOp} {ts rest : List Token}
    (h : Spelt op.kinds ts rest) : op.slot.operator? ts = some (.binary op, rest) := by
  cases op <;> simp only [BinaryOp.kinds, spelt_cons, spelt_nil] at h <;>
    first
    | (obtain ⟨_, _, rfl, rfl⟩ := h; rfl)
    | (obtain ⟨_, _, rfl, _, _, rfl, rfl⟩ := h; rfl)

theorem LogicalOp.operator?_kinds {op : LogicalOp} {ts rest : List Token}
    (h : Spelt op.kinds ts rest) : op.slot.operator? ts = some (.logical op, rest) := by
  cases op <;> simp only [LogicalOp.kinds, spelt_cons, spelt_nil] at h <;>
    obtain ⟨_, _, rfl, rfl⟩ := h <;> rfl

/-! ### Parsers -/

/-- The parser of a slot. -/
def Slot.parser (inner : Inner) : Slot → Parser Expr
  | .expression => fun ts =>
    match dropKeyword? .lambda ts with
    | some rest => lambda inner rest
    | none => Syntax.disjunction inner ts
  | .disjunction => Syntax.disjunction inner
  | .conjunction => Syntax.conjunction inner
  | .inversion => Syntax.inversion inner
  | .comparison => Syntax.comparison inner
  | .sum => Syntax.sum inner
  | .product => Syntax.product inner
  | .negation => Syntax.negation inner
  | .suffixed => Syntax.suffixed inner
  | .primary => Syntax.primary inner

/-- Goes on in a slot after a tree that has been read. -/
def Slot.resume (inner : Inner) (s : Slot) (e : Expr) : Parser Expr :=
  if s = .suffixed then suffixesFrom inner e else chainFrom s.operator? (s.tighter.parser inner) e

theorem Slot.resume_expression (inner : Inner) (e : Expr) (rest : List Token) :
    Slot.expression.resume inner e rest = .ok (e, rest) :=
  chainFrom_of_none rfl

theorem suffix?_of_stops {inner : Inner} {left : Expr} {height : Nat} {ts : List Token}
    (h : Stops 8 ts) : suffix? inner left height ts = .ok none := by
  unfold suffix?
  rw [dropSymbol?_of_stops h (by decide), dropSymbol?_of_stops h (by decide),
    dropSymbol?_of_stops h (by decide)]

theorem Slot.resume_of_stops {inner : Inner} {s : Slot} {e : Expr} {rest : List Token}
    (h : Stops s.rank rest) : s.resume inner e rest = .ok (e, rest) := by
  unfold Slot.resume
  split
  · rename_i hs
    subst hs
    exact suffixesFrom_of_none (suffix?_of_stops h)
  · exact chainFrom_of_none (Slot.operator?_of_stops h)

/-- A tree that was read in the next tighter slot is passed up. -/
theorem Slot.reads_of_tighter {inner : Inner} {s : Slot} {fits : Prop} {e : Expr}
    {ts rest : List Token} (hs : s ≠ .primary) (front : Opens s.tighter.rank ts)
    (h : Reads fits (s.tighter.parser inner ts) (.ok (e, rest))) :
    Reads fits (s.parser inner ts) (s.resume inner e rest) := by
  cases s with
  | primary => exact absurd rfl hs
  | expression =>
    have none_next : dropKeyword? .lambda ts = none := dropKeyword?_of_opens front (by decide)
    have below : Slot.expression.parser inner ts = Syntax.disjunction inner ts := by
      simp only [Slot.parser, none_next]
    rw [Slot.resume_expression, below]
    exact h
  | inversion =>
    have none_next : dropKeyword? .not ts = none := dropKeyword?_of_opens front (by decide)
    have below : Slot.inversion.parser inner ts = Syntax.comparison inner ts := by
      simp only [Slot.parser, Syntax.inversion, none_next]
    have done : Slot.inversion.resume inner e rest = .ok (e, rest) := chainFrom_of_none rfl
    rw [done, below]
    exact h
  | negation =>
    have none_next : dropSymbol? .minus ts = none := dropSymbol?_of_opens front (by decide)
    have below : Slot.negation.parser inner ts = Syntax.suffixed inner ts := by
      simp only [Slot.parser, Syntax.negation, none_next]
    have done : Slot.negation.resume inner e rest = .ok (e, rest) := chainFrom_of_none rfl
    rw [done, below]
    exact h
  | disjunction | conjunction | comparison | sum | product | suffixed => exact h.bind _

/-! ### Levels -/

/-- A parser of the next level of nesting uses one level. -/
theorem deeper_reads (at_ : Nat → Parser Expr) {inside : Nat → Parser Expr}
    (none_left : at_ 0 = tooDeep) (one_less : ∀ n, at_ (n + 1) = inside n) {levels : Nat}
    {low : Prop} {ts : List Token}
    {result : Except SyntaxError (Expr × List Token)}
    (h : ∀ n, Reads (levels ≤ n ∧ low) (inside n ts) result) (n : Nat) :
    Reads (levels + 1 ≤ n ∧ low) (at_ n ts) result := by
  cases n with
  | zero =>
    rw [none_left]
    exact ⟨fun h => absurd h.1 (by omega), fun _ => ⟨_, rfl⟩⟩
  | succ n =>
    rw [one_less]
    exact (h n).of_iff (by rw [Nat.add_le_add_iff_right])

theorem inner_expression_reads {levels : Nat} {low : Prop} {ts : List Token}
    {result : Except SyntaxError (Expr × List Token)}
    (h : ∀ n, Reads (levels ≤ n ∧ low) (Slot.expression.parser (.ofLevels n) ts) result) (n : Nat) :
    Reads (levels + 1 ≤ n ∧ low) ((Inner.ofLevels n).expression ts) result :=
  deeper_reads (fun n => (Inner.ofLevels n).expression) rfl (fun _ => rfl) h n

end ScriptBridge.Syntax

namespace ScriptBridge.Syntax

open Expr

/-! ### How spellings begin -/

/-- The first of the kinds begins a tree of a slot of at least this rank. -/
def KindsOpen (rank : Nat) (kinds : List Kind) : Prop :=
  ∃ k more n, kinds = k :: more ∧ k.opens? = some n ∧ rank ≤ n

theorem KindsOpen.append {rank : Nat} {kinds : List Kind} (h : KindsOpen rank kinds)
    (others : List Kind) : KindsOpen rank (kinds ++ others) := by
  obtain ⟨k, more, n, rfl, hk, hn⟩ := h
  exact ⟨k, more ++ others, n, rfl, hk, hn⟩

theorem KindsOpen.enclosed {own : Slot} {kinds : List Kind} (h : KindsOpen own.rank kinds)
    (slot : Slot) : KindsOpen slot.rank (enclosed slot own kinds) := by
  unfold Expr.enclosed
  split
  · refine ⟨.symbol .leftParen, _, 9, rfl, rfl, ?_⟩
    cases slot <;> decide
  · obtain ⟨k, more, n, rfl, hk, hn⟩ := h
    exact ⟨k, more, n, rfl, hk, by omega⟩

theorem kinds_open (e : Expr) : KindsOpen e.slot.rank e.kinds := by
  induction e using Expr.induct with
  | literal value =>
    rw [kinds]
    cases value with
    | bool value => cases value <;> exact ⟨_, _, 9, rfl, rfl, Nat.le_refl _⟩
    | _ => exact ⟨_, _, 9, rfl, rfl, Nat.le_refl _⟩
  | name word => exact ⟨_, _, 9, by rw [kinds], rfl, Nat.le_refl _⟩
  | tuple items _ => exact ⟨_, _, 9, by rw [kinds]; rfl, rfl, Nat.le_refl _⟩
  | attr object member ih => rw [kinds]; exact (ih.enclosed .suffixed).append _
  | call callee args ih _ =>
    rw [kinds, List.append_assoc]
    exact (ih.enclosed .suffixed).append _
  | index object key ih _ =>
    rw [kinds, List.append_assoc]
    exact (ih.enclosed .suffixed).append _
  | unary op operand _ =>
    cases op
    · exact ⟨_, _, 7, by rw [kinds], rfl, Nat.le_refl _⟩
    · exact ⟨_, _, 3, by rw [kinds], rfl, Nat.le_refl _⟩
  | binary op left right ih _ =>
    rw [kinds, List.append_assoc]
    exact (ih.enclosed op.slot).append _
  | logical op left right ih _ =>
    rw [kinds, List.append_assoc]
    exact (ih.enclosed op.slot).append _
  | lambda params body _ => exact ⟨_, _, 0, by rw [kinds]; rfl, rfl, Nat.le_refl _⟩

theorem opens_of_spelt {e : Expr} {s : Slot} {ts rest : List Token}
    (h : Spelt (e.spelling s) ts rest) : Opens s.rank ts := by
  obtain ⟨k, more, n, hk, hn, hr⟩ := (kinds_open e).enclosed s
  rw [spelling, hk, spelt_cons] at h
  obtain ⟨p, others, rfl, _⟩ := h
  exact ⟨k, p, others, n, rfl, hn, hr⟩

/-! ### Readable trees -/

/-- The spelling of the tree in any slot reads back, unless a limit is exceeded. -/
def Expr.Readable (e : Expr) : Prop :=
  ∀ (s : Slot) (n : Nat) (ts rest : List Token), Spelt (e.spelling s) ts rest →
    Stops s.tighter.rank rest →
    Reads (e.FitsIn s n) (s.parser (.ofLevels n) ts) (s.resume (.ofLevels n) e rest)

theorem spelling_of_le {e : Expr} {s : Slot} (h : s.rank ≤ e.slot.rank) : e.spelling s = e.kinds :=
  if_neg (by omega)

theorem fitsIn_of_le {e : Expr} {s : Slot} {n : Nat} (h : s.rank ≤ e.slot.rank) :
    e.FitsIn s n ↔ e.levels ≤ n ∧ e.chainHeight ≤ maxHeight := by
  rw [FitsIn, enclosedLevels, if_neg (by omega)]

theorem spelling_of_lt {e : Expr} {s : Slot} (h : e.slot.rank < s.rank) :
    e.spelling s = .symbol .leftParen :: e.kinds ++ [.symbol .rightParen] :=
  if_pos h

theorem fitsIn_of_lt {e : Expr} {s : Slot} {n : Nat} (h : e.slot.rank < s.rank) :
    e.FitsIn s n ↔ e.levels + 1 ≤ n ∧ e.chainHeight ≤ maxHeight := by
  rw [FitsIn, enclosedLevels, if_pos h]

theorem Slot.rank_le_tighter (s : Slot) : s.rank ≤ s.tighter.rank := by cases s <;> decide

theorem Slot.rank_tighter {s : Slot} (h : s ≠ .primary) : s.tighter.rank = s.rank + 1 := by
  cases s <;> first | rfl | exact absurd rfl h

theorem Slot.eq_of_rank {s t : Slot} (h : s.rank = t.rank) : s = t := by
  cases s <;> cases t <;> first | rfl | exact absurd h (by decide)

/-- What holds of primaries and is passed up holds of every slot. -/
theorem Slot.upwards {P : Slot → Prop} (top : P .primary)
    (step : ∀ s, s ≠ .primary → P s.tighter → P s) (s : Slot) : P s := by
  have suffixed := step .suffixed (by decide) top
  have negation := step .negation (by decide) suffixed
  have product := step .product (by decide) negation
  have sum := step .sum (by decide) product
  have comparison := step .comparison (by decide) sum
  have inversion := step .inversion (by decide) comparison
  have conjunction := step .conjunction (by decide) inversion
  have disjunction := step .disjunction (by decide) conjunction
  have expression := step .expression (by decide) disjunction
  cases s <;> assumption

/-- Reading in one slot what was read in the next tighter one. -/
theorem reads_up {e : Expr} {s : Slot} {n : Nat} {ts rest : List Token} (hs : s ≠ .primary)
    (same : e.spelling s = e.spelling s.tighter) (limits : e.FitsIn s n ↔ e.FitsIn s.tighter n)
    (h : ∀ ts rest, Spelt (e.spelling s.tighter) ts rest → Stops s.tighter.tighter.rank rest →
      Reads (e.FitsIn s.tighter n) (s.tighter.parser (.ofLevels n) ts)
        (s.tighter.resume (.ofLevels n) e rest))
    (spelt : Spelt (e.spelling s) ts rest) (stops : Stops s.tighter.rank rest) :
    Reads (e.FitsIn s n) (s.parser (.ofLevels n) ts) (s.resume (.ofLevels n) e rest) := by
  rw [same] at spelt
  have below := h ts rest spelt (stops.mono s.tighter.rank_le_tighter)
  rw [Slot.resume_of_stops stops] at below
  exact (Slot.reads_of_tighter hs (opens_of_spelt spelt) below).of_iff limits.symm

/-- The tree reads back in its own slot. -/
def Expr.ReadsBack (e : Expr) : Prop :=
  ∀ (n : Nat) (ts rest : List Token), Spelt e.kinds ts rest → Stops e.slot.tighter.rank rest →
    Reads (e.levels ≤ n ∧ e.chainHeight ≤ maxHeight) (e.slot.parser (.ofLevels n) ts)
      (e.slot.resume (.ofLevels n) e rest)

/-- A tree that reads back in its own slot does so in every looser one. -/
theorem Expr.ReadsBack.of_le {e : Expr} (own : e.ReadsBack) (n : Nat) : ∀ s : Slot,
    s.rank ≤ e.slot.rank → ∀ ts rest, Spelt (e.spelling s) ts rest → Stops s.tighter.rank rest →
      Reads (e.FitsIn s n) (s.parser (.ofLevels n) ts) (s.resume (.ofLevels n) e rest) := by
  have at_own : ∀ ts rest, Spelt (e.spelling e.slot) ts rest → Stops e.slot.tighter.rank rest →
      Reads (e.FitsIn e.slot n) (e.slot.parser (.ofLevels n) ts)
        (e.slot.resume (.ofLevels n) e rest) := by
    intro ts rest spelt stops
    rw [spelling_of_le (Nat.le_refl _)] at spelt
    exact (own n ts rest spelt stops).of_iff (fitsIn_of_le (Nat.le_refl _)).symm
  intro s
  induction s using Slot.upwards with
  | top =>
    intro hle
    have : e.slot = .primary := Slot.eq_of_rank (by
      have : e.slot.rank ≤ 9 := by cases e.slot <;> decide
      exact Nat.le_antisymm this hle)
    rwa [this] at at_own
  | step s hs ih =>
    intro hle ts rest spelt stops
    by_cases heq : s.rank = e.slot.rank
    · obtain rfl := Slot.eq_of_rank heq
      exact at_own ts rest spelt stops
    · have hlt : s.tighter.rank ≤ e.slot.rank := by
        have := Slot.rank_tighter hs
        omega
      exact reads_up hs ((spelling_of_le hle).trans (spelling_of_le hlt).symm)
        ((fitsIn_of_le hle).trans (fitsIn_of_le hlt).symm) (ih hlt) spelt stops

/-- Inside brackets a tree is read with one level less. -/
theorem Expr.ReadsBack.inner {e : Expr} (own : e.ReadsBack) {n : Nat} {ts rest : List Token}
    (spelt : Spelt e.kinds ts rest) (stops : Stops 1 rest) :
    Reads (e.levels + 1 ≤ n ∧ e.chainHeight ≤ maxHeight) ((Inner.ofLevels n).expression ts)
      (.ok (e, rest)) := by
  have loose : Slot.expression.rank ≤ e.slot.rank := Nat.zero_le _
  refine inner_expression_reads (fun n => ?_) n
  have outer := own.of_le n .expression loose ts rest (by rwa [spelling_of_le loose]) stops
  rw [Slot.resume_expression] at outer
  exact outer.of_iff (fitsIn_of_le loose)

theorem parenthesized_reads {e : Expr} (own : e.ReadsBack) {n : Nat} {ts rest : List Token}
    {p : Position} (spelt : Spelt e.kinds ts (⟨.symbol .rightParen, p⟩ :: rest)) :
    Reads (e.levels + 1 ≤ n ∧ e.chainHeight ≤ maxHeight) (parenthesized (.ofLevels n) ts)
      (.ok (e, rest)) := by
  have front : Opens 0 ts := opens_of_spelt (s := .expression) (by
    rwa [spelling_of_le (Nat.zero_le _)])
  have item := own.inner (n := n) spelt (stops_cons.2 (by decide))
  rw [parenthesized, dropSymbol?_of_opens front (by decide)]
  exact item.bind _

/-- A tree that reads back in its own slot does so in every slot. -/
theorem Expr.ReadsBack.readable {e : Expr} (own : e.ReadsBack) : e.Readable := by
  intro s n
  by_cases loose : s.rank ≤ e.slot.rank
  · exact own.of_le n s loose
  · have tight : e.slot.rank < s.rank := by omega
    clear loose
    induction s using Slot.upwards with
    | top =>
      intro ts rest spelt _
      simp only [spelling_of_lt tight, List.cons_append, spelt_cons, spelt_append, spelt_nil] at spelt
      obtain ⟨_, more, rfl, _, spelt, _, rest, rfl, rfl⟩ := spelt
      have done : Slot.primary.resume (.ofLevels n) e rest = .ok (e, rest) := chainFrom_of_none rfl
      rw [done]
      exact (parenthesized_reads own spelt).of_iff (fitsIn_of_lt tight).symm
    | step s hs ih =>
      have higher : e.slot.rank < s.tighter.rank := Nat.lt_of_lt_of_le tight s.rank_le_tighter
      intro ts rest spelt stops
      exact reads_up hs ((spelling_of_lt tight).trans (spelling_of_lt higher).symm)
        ((fitsIn_of_lt tight).trans (fitsIn_of_lt higher).symm) (ih higher) spelt stops

theorem Expr.Readable.readsBack {e : Expr} (h : e.Readable) : e.ReadsBack := by
  intro n ts rest spelt stops
  exact (h e.slot n ts rest (by rwa [spelling_of_le (Nat.le_refl _)]) stops).of_iff
    (fitsIn_of_le (Nat.le_refl _))

end ScriptBridge.Syntax
