import ScriptBridge.Proofs.Grammar.Spelling

/-!
# The descent, one step at a time

What each parser of the grammar does at the front of a token list. A parse of a canonical spelling
has only two outcomes: it goes on with the tree in hand, or it reports that the tree exceeds a
limit. `Reads` says which, and is carried from part to part. The counters that bound the loops of
the grammar are shown to be large enough once, so that a chain has one equation for each operator.
-/

namespace ScriptBridge.Syntax

variable {α β : Type}

/-! ### Outcomes -/

/-- The outcome is the result if the limits are kept, and a report of their excess if not. -/
def Reads (fits : Prop) (outcome result : Except SyntaxError α) : Prop :=
  (fits → outcome = result) ∧ (¬fits → ∃ p, outcome = .error ⟨.tooDeep, p⟩)

namespace Reads

theorem refl (outcome : Except SyntaxError α) : Reads True outcome outcome :=
  ⟨fun _ => rfl, fun h => absurd trivial h⟩

theorem of_iff {fits fits' : Prop} {outcome result : Except SyntaxError α}
    (h : Reads fits outcome result) (same : fits ↔ fits') : Reads fits' outcome result :=
  ⟨fun hf => h.1 (same.2 hf), fun hf => h.2 fun hf' => hf (same.1 hf')⟩

theorem trans {fits fits' : Prop} {outcome middle result : Except SyntaxError α}
    (h : Reads fits outcome middle) (h' : Reads fits' middle result) :
    Reads (fits ∧ fits') outcome result := by
  constructor
  · rintro ⟨hf, hf'⟩
    exact (h.1 hf).trans (h'.1 hf')
  · intro hn
    by_cases hf : fits
    · obtain ⟨p, hp⟩ := h'.2 fun hf' => hn ⟨hf, hf'⟩
      exact ⟨p, (h.1 hf).trans hp⟩
    · exact h.2 hf

/-- A report passes through whatever would have come next. -/
theorem bind {fits : Prop} {outcome result : Except SyntaxError α}
    (h : Reads fits outcome result) (next : α → Except SyntaxError β) :
    Reads fits (outcome >>= next) (result >>= next) := by
  constructor
  · intro hf
    rw [h.1 hf]
  · intro hf
    obtain ⟨p, hp⟩ := h.2 hf
    exact ⟨p, by rw [hp]; rfl⟩

end Reads

theorem bind_eq_ok {outcome : Except SyntaxError α} {next : α → Except SyntaxError β} {b : β}
    (h : outcome >>= next = .ok b) : ∃ a, outcome = .ok a ∧ next a = .ok b := by
  cases outcome with
  | error => cases h
  | ok a => exact ⟨a, rfl, h⟩

/-! ### Token lists that begin with a spelling -/

/-- `ts` is a spelling of `kinds` followed by `rest`. -/
def Spelt (kinds : List Kind) (ts rest : List Token) : Prop :=
  ∃ front, ts = front ++ rest ∧ front.map Token.kind = kinds

@[simp] theorem spelt_nil {ts rest : List Token} : Spelt [] ts rest ↔ ts = rest := by
  simp [Spelt]

@[simp] theorem spelt_cons {k : Kind} {ks : List Kind} {ts rest : List Token} :
    Spelt (k :: ks) ts rest ↔ ∃ p more, ts = ⟨k, p⟩ :: more ∧ Spelt ks more rest := by
  constructor
  · rintro ⟨front, rfl, hk⟩
    obtain ⟨⟨_, p⟩, more, rfl, rfl, rfl⟩ := List.map_eq_cons_iff.1 hk
    exact ⟨p, more ++ rest, rfl, more, rfl, rfl⟩
  · rintro ⟨p, more, rfl, front, rfl, rfl⟩
    exact ⟨⟨k, p⟩ :: front, rfl, rfl⟩

@[simp] theorem spelt_append {as bs : List Kind} {ts rest : List Token} :
    Spelt (as ++ bs) ts rest ↔ ∃ mid, Spelt as ts mid ∧ Spelt bs mid rest := by
  constructor
  · rintro ⟨front, rfl, hk⟩
    obtain ⟨xs, ys, rfl, rfl, rfl⟩ := List.map_eq_append_iff.1 hk
    exact ⟨ys ++ rest, ⟨xs, by simp, rfl⟩, ys, rfl, rfl⟩
  · rintro ⟨_, ⟨xs, rfl, rfl⟩, ys, rfl, rfl⟩
    exact ⟨xs ++ ys, by simp, by simp⟩

theorem Spelt.length {kinds : List Kind} {ts rest : List Token} (h : Spelt kinds ts rest) :
    ts.length = kinds.length + rest.length := by
  obtain ⟨front, rfl, rfl⟩ := h
  simp

/-! ### What a token can begin and continue -/

/-- The tightest slot of the trees whose spelling can begin with the token, by its rank. -/
def Kind.opens? : Kind → Option Nat
  | .integer _ | .long _ | .float _ | .text _ | .name _ => some 9
  | .keyword .none | .keyword .true | .keyword .false | .symbol .leftParen => some 9
  | .symbol .minus => some 7
  | .keyword .not => some 3
  | .keyword .lambda => some 0
  | _ => none

/-- The rank of the slot whose parser would go on with the token after a tree. -/
def Kind.binds : Kind → Nat
  | .keyword .or => 1
  | .keyword .and => 2
  | .keyword .not | .keyword .within => 4
  | .symbol .equalEqual | .symbol .notEqual | .symbol .less | .symbol .greater => 4
  | .symbol .lessEqual | .symbol .greaterEqual => 4
  | .symbol .plus | .symbol .minus => 5
  | .symbol .star | .symbol .slash | .symbol .percent => 6
  | .symbol .dot | .symbol .leftParen | .symbol .leftBracket => 8
  | .text _ => 9
  | _ => 0

/-- Nothing at the front goes on with a tree of a slot of at least this rank. -/
def Stops (rank : Nat) (ts : List Token) : Prop := ∀ t ∈ ts.head?, t.kind.binds < rank

theorem Stops.mono {m n : Nat} {ts : List Token} (h : Stops m ts) (hmn : m ≤ n) : Stops n ts :=
  fun t ht => Nat.lt_of_lt_of_le (h t ht) hmn

@[simp] theorem stops_cons {rank : Nat} {k : Kind} {p : Position} {ts : List Token} :
    Stops rank (⟨k, p⟩ :: ts) ↔ k.binds < rank := by
  simp [Stops]

/-- The list begins like a tree of a slot of at least this rank. -/
def Opens (rank : Nat) (ts : List Token) : Prop :=
  ∃ k p more n, ts = ⟨k, p⟩ :: more ∧ k.opens? = some n ∧ rank ≤ n

/-! ### Bounded loops -/

/-- Goes on with a chain after a tree. -/
def chainFrom (operator? : List Token → Option Joining) (operand : Parser Expr) (left : Expr) :
    Parser Expr :=
  chain operator? operand maxHeight left left.height

/-- Goes on with suffixes after a tree. -/
def suffixesFrom (inner : Inner) (left : Expr) : Parser Expr :=
  suffixes inner maxHeight left left.height

theorem grown_eq_ok {left right height : Nat} {ts : List Token}
    (h : grown left right ts = .ok height) :
    height = max left right + 1 ∧ height ≤ maxHeight := by
  unfold grown at h
  split at h
  · cases h
  · injection h with h
    omega

theorem grown_reads (left right : Nat) (ts : List Token) :
    Reads (max left right + 1 ≤ maxHeight) (grown left right ts) (.ok (max left right + 1)) := by
  constructor
  · intro h
    rw [grown, if_neg (Nat.not_lt.2 h)]
  · intro h
    exact ⟨_, by rw [grown, if_pos (Nat.lt_of_not_ge h)]⟩

/-- Any counter that reaches the height limit does. -/
theorem chain_room (operator? : List Token → Option Joining) (operand : Parser Expr)
    (room : Nat) : ∀ (room' : Nat) (left : Expr) (height : Nat) (ts : List Token),
      maxHeight < room + height → maxHeight < room' + height →
      chain operator? operand room left height ts =
        chain operator? operand room' left height ts := by
  induction room with
  | zero =>
    intro room' left height ts h h'
    unfold chain
    split
    · rfl
    · rename_i join rest _
      -- a counter of zero means that the tree is too high already
      have high : ∀ right ts, ∃ p, grown height right ts = .error ⟨.tooDeep, p⟩ := fun right ts =>
        (grown_reads height right ts).2 (by omega)
      cases operand rest with
      | error => rfl
      | ok result =>
        obtain ⟨p, hp⟩ := high result.1.height result.2
        simp only [Except.bind, bind, hp]
  | succ room ih =>
    intro room' left height ts h h'
    unfold chain
    split
    · rfl
    · rename_i join rest _
      cases operand rest with
      | error => rfl
      | ok result =>
        obtain ⟨right, rest⟩ := result
        simp only [Except.bind, bind]
        cases hg : grown height right.height rest with
        | error => rfl
        | ok grownHeight =>
          obtain ⟨hh, hm⟩ := grown_eq_ok hg
          cases room' with
          | zero => omega
          | succ room' => exact ih room' _ _ _ (by omega) (by omega)

theorem chainFrom_of_none {operator? : List Token → Option Joining} {operand : Parser Expr}
    {left : Expr} {ts : List Token} (h : operator? ts = none) :
    chainFrom operator? operand left ts = .ok (left, ts) := by
  unfold chainFrom chain
  rw [h]

/-- One operator of a chain: its operand is read, and the chain goes on from the larger tree. -/
theorem chainFrom_reads {operator? : List Token → Option Joining} {operand : Parser Expr}
    {left right : Expr} {ts mid rest : List Token} {join : Expr → Expr → Expr} {fits : Prop}
    (next : operator? ts = some (join, mid))
    (grows : (join left right).height = max left.height right.height + 1)
    (h : Reads fits (operand mid) (.ok (right, rest))) :
    Reads (fits ∧ (join left right).height ≤ maxHeight) (chainFrom operator? operand left ts)
      (chainFrom operator? operand (join left right) rest) := by
  have unfolded : chainFrom operator? operand left ts =
      (operand mid >>= fun r => grown left.height r.1.height r.2 >>= fun height =>
        chain operator? operand (maxHeight - 1) (join left r.1) height r.2) := by
    unfold chainFrom
    rw [chain, next]
    rfl
  have high := left.height_pos
  rw [unfolded, grows]
  refine (h.bind _).trans (((grown_reads left.height right.height rest).bind _).trans ?_ |>.of_iff
    (by rw [and_true]))
  have same : chain operator? operand (maxHeight - 1) (join left right)
      (max left.height right.height + 1) rest = chainFrom operator? operand (join left right) rest := by
    rw [← grows]
    exact chain_room _ _ _ _ _ _ _ (by omega) (by omega)
  simp only [Except.bind, bind, same]
  exact .refl _

theorem suffix?_eq_ok {inner : Inner} {left left' : Expr} {height height' : Nat}
    {ts rest : List Token} (h : suffix? inner left height ts = .ok (some (left', height', rest))) :
    height < height' ∧ height' ≤ maxHeight := by
  have of_grown : ∀ {right : Nat} {ts : List Token},
      grown height right ts = .ok height' → height < height' ∧ height' ≤ maxHeight := by
    intro right ts hg
    obtain ⟨hh, hm⟩ := grown_eq_ok hg
    omega
  unfold suffix? at h
  split at h
  · obtain ⟨⟨_, _⟩, _, h⟩ := bind_eq_ok h
    obtain ⟨_, hg, h⟩ := bind_eq_ok h
    cases h
    exact of_grown hg
  · split at h
    · obtain ⟨⟨_, _⟩, _, h⟩ := bind_eq_ok h
      obtain ⟨_, hg, h⟩ := bind_eq_ok h
      cases h
      exact of_grown hg
    · split at h
      · obtain ⟨⟨_, _⟩, _, h⟩ := bind_eq_ok h
        obtain ⟨_, _, h⟩ := bind_eq_ok h
        obtain ⟨_, hg, h⟩ := bind_eq_ok h
        cases h
        exact of_grown hg
      · cases h

/-- Any counter that reaches the height limit does. -/
theorem suffixes_room (inner : Inner) (room : Nat) :
    ∀ (room' : Nat) (left : Expr) (height : Nat) (ts : List Token),
      maxHeight < room + height → maxHeight < room' + height →
      suffixes inner room left height ts = suffixes inner room' left height ts := by
  induction room with
  | zero =>
    intro room' left height ts h h'
    unfold suffixes
    cases hs : suffix? inner left height ts with
    | error => rfl
    | ok next =>
      match next with
      | none => rfl
      | some (left', height', rest) =>
        have := suffix?_eq_ok hs
        omega
  | succ room ih =>
    intro room' left height ts h h'
    unfold suffixes
    cases hs : suffix? inner left height ts with
    | error => rfl
    | ok next =>
      match next with
      | none => rfl
      | some (left', height', rest) =>
        obtain ⟨hh, hm⟩ := suffix?_eq_ok hs
        cases room' with
        | zero => omega
        | succ room' => exact ih room' _ _ _ (by omega) (by omega)

theorem suffixesFrom_of_none {inner : Inner} {left : Expr} {ts : List Token}
    (h : suffix? inner left left.height ts = .ok none) :
    suffixesFrom inner left ts = .ok (left, ts) := by
  unfold suffixesFrom suffixes
  rw [h]
  rfl

/-- One suffix: it is read, and the suffixes go on from the larger tree. -/
theorem suffixesFrom_reads {inner : Inner} {left left' : Expr} {ts rest : List Token} {fits : Prop}
    (grows : left.height < left'.height)
    (h : Reads fits (suffix? inner left left.height ts)
      (.ok (some (left', left'.height, rest)))) :
    Reads fits (suffixesFrom inner left ts) (suffixesFrom inner left' rest) := by
  have high := left.height_pos
  constructor
  · intro hf
    have same : suffixes inner (maxHeight - 1) left' left'.height rest =
        suffixesFrom inner left' rest := suffixes_room _ _ _ _ _ _ (by omega) (by omega)
    have step : suffixesFrom inner left ts =
        suffixes inner (maxHeight - 1) left' left'.height rest := by
      unfold suffixesFrom
      rw [suffixes, h.1 hf]
      rfl
    exact step.trans same
  · intro hf
    obtain ⟨p, hp⟩ := h.2 hf
    exact ⟨p, by unfold suffixesFrom suffixes; rw [hp]; rfl⟩

end ScriptBridge.Syntax
