import ScriptBridge.Proofs.Grammar.Readable

/-!
# Nodes that read back

Each kind of node reads back in its own slot when its parts do, so every tree does.
-/

namespace ScriptBridge.Syntax

open Expr

attribute [local simp] height kinds listKinds tupleKinds levels listLevels chainHeight listChainHeight
  separated

theorem enclosed_kinds (s : Slot) (e : Expr) : enclosed s e.slot e.kinds = e.spelling s := rfl

/-! ### Lists -/

theorem one_le_length_kinds (e : Expr) : 1 ≤ e.kinds.length := by
  obtain ⟨k, more, _, hk, _⟩ := kinds_open e
  simp [hk]

theorem length_le_listKinds (items : List Expr) : items.length ≤ (listKinds items).length := by
  induction items with
  | nil => exact Nat.zero_le _
  | cons item others ih =>
    have := one_le_length_kinds item
    cases others with
    | nil => simpa [listKinds] using this
    | cons second others =>
      simp only [listKinds, List.length_append, List.length_cons] at ih ⊢
      omega

/-- The rest of a list is read by the same loop, with a closing parenthesis at its end. -/
theorem arguments_reads {n : Nat} : ∀ {items : List Expr} (_ : ∀ item ∈ items, item.ReadsBack)
    {fuel : Nat} {ts rest : List Token} {p : Position}
    (_ : Spelt (listKinds items) ts (⟨.symbol .rightParen, p⟩ :: rest)) (_ : items.length < fuel),
    Reads (listLevels items ≤ n ∧ listChainHeight items ≤ maxHeight)
      (arguments (Inner.ofLevels n).expression fuel ts) (.ok (items, rest)) := by
  intro items
  induction items with
  | nil =>
    intro _ fuel ts rest p spelt room
    obtain ⟨fuel, rfl⟩ : ∃ k, fuel = k + 1 := ⟨fuel - 1, by simp at room; omega⟩
    obtain rfl : ts = _ := by simpa [listKinds] using spelt
    exact (Reads.refl _).of_iff (by simp [listLevels, listChainHeight])
  | cons item others ih =>
    intro own fuel ts rest p spelt room
    obtain ⟨fuel, rfl⟩ : ∃ k, fuel = k + 1 := ⟨fuel - 1, by simp at room; omega⟩
    have first := own item (by simp)
    have front : ∀ {mid}, Spelt item.kinds ts mid → Opens 0 ts := fun h =>
      opens_of_spelt (s := .expression) (by rwa [spelling_of_le (Nat.zero_le _)])
    cases others with
    | nil =>
      rw [listKinds] at spelt
      rw [arguments, dropSymbol?_of_opens (front spelt) (by decide)]
      have item_read := first.inner (n := n) spelt (stops_cons.2 (by decide))
      exact (item_read.bind _).of_iff (by simp [listLevels, listChainHeight])
    | cons second others =>
      simp only [listKinds, spelt_append, spelt_cons] at spelt
      obtain ⟨_, spelt, q, more, rfl, others_spelt⟩ := spelt
      rw [arguments, dropSymbol?_of_opens (front spelt) (by decide)]
      have item_read := first.inner (n := n) spelt (stops_cons.2 (by decide))
      have others_read := ih (fun e he => own e (by simp [he])) others_spelt
        (Nat.lt_of_succ_lt_succ room)
      refine ((item_read.bind _).trans (others_read.bind _)).of_iff ?_
      simp only [listLevels, listChainHeight]
      omega

theorem arguments_fuel {items : List Expr} {ts rest : List Token}
    (spelt : Spelt (listKinds items) ts rest) : items.length < ts.length + 1 := by
  have := length_le_listKinds items
  have := spelt.length
  omega

/-! ### Primaries -/

theorem adjacentTexts_of_stops {ts : List Token} (h : Stops 9 ts) : adjacentTexts ts = ("", ts) := by
  unfold adjacentTexts
  split
  · exact absurd (stops_cons.1 h) (Nat.lt_irrefl _)
  · rfl

theorem literal_readsBack (value : Literal) : (literal value).ReadsBack := by
  intro n ts rest spelt stops
  rw [kinds, spelt_cons] at spelt
  obtain ⟨p, rest, rfl, spelt⟩ := spelt
  obtain rfl := spelt_nil.1 spelt
  refine Reads.of_iff ?_ (iff_of_true trivial (by simp [levels, chainHeight]))
  cases value with
  | text value =>
    have alone := adjacentTexts_of_stops stops
    refine ⟨fun _ => ?_, fun h => absurd trivial h⟩
    have done : Slot.primary.resume (.ofLevels n) (literal (.text value)) rest =
        .ok (literal (.text value), rest) := chainFrom_of_none rfl
    rw [Expr.slot, done, Slot.parser, primary, Literal.kind, alone]
    simp only [String.append_empty]
  | bool value => cases value <;> exact .refl _
  | _ => exact .refl _

theorem name_readsBack (word : String) : (name word).ReadsBack := by
  intro n ts rest spelt _
  rw [kinds, spelt_cons] at spelt
  obtain ⟨p, rest, rfl, spelt⟩ := spelt
  obtain rfl := spelt_nil.1 spelt
  exact (Reads.refl _).of_iff (by simp [levels, chainHeight])

theorem tuple_readsBack {items : List Expr} (own : ∀ item ∈ items, item.ReadsBack) :
    (tuple items).ReadsBack := by
  intro n ts rest spelt _
  simp only [kinds, List.cons_append, spelt_cons, spelt_append, spelt_nil] at spelt
  obtain ⟨_, ts, rfl, _, spelt, p, rest, rfl, rfl⟩ := spelt
  have done : Slot.primary.resume (.ofLevels n) (tuple items) rest = .ok (tuple items, rest) :=
    chainFrom_of_none rfl
  show Reads _ (parenthesized _ ts) (Slot.primary.resume _ _ _)
  rw [done, levels, chainHeight]
  cases items with
  | nil =>
    obtain rfl : ts = _ := by simpa [tupleKinds] using spelt
    exact (Reads.refl _).of_iff (by simp [listLevels, listChainHeight])
  | cons first others =>
    simp only [tupleKinds, spelt_append, spelt_cons] at spelt
    obtain ⟨_, spelt, q, more, rfl, others_spelt⟩ := spelt
    have front : Opens 0 ts := opens_of_spelt (s := .expression) (by
      rwa [spelling_of_le (Nat.zero_le _)])
    rw [parenthesized, dropSymbol?_of_opens front (by decide)]
    have first_read := (own first (by simp)).inner (n := n) spelt (stops_cons.2 (by decide))
    have others_read := arguments_reads (n := n) (fun e he => own e (by simp [he])) others_spelt
      (arguments_fuel others_spelt)
    refine ((first_read.bind _).trans (others_read.bind _)).of_iff ?_
    simp only [listLevels, listChainHeight]
    omega

/-! ### Suffixes -/

/-- A suffix is read after the tree it extends. -/
theorem extended_reads {object extended : Expr} (own : object.ReadsBack) {n : Nat} {fits : Prop}
    {ts mid rest : List Token} (higher : object.height < extended.height)
    (spelt : Spelt (object.spelling .suffixed) ts mid) (stops : Stops 9 mid)
    (suffix : Reads (fits ∧ extended.height ≤ maxHeight)
      (suffix? (.ofLevels n) object object.height mid)
      (.ok (some (extended, extended.height, rest)))) :
    Reads (object.FitsIn .suffixed n ∧ fits ∧ extended.height ≤ maxHeight)
      (Slot.suffixed.parser (.ofLevels n) ts) (Slot.suffixed.resume (.ofLevels n) extended rest) :=
  (own.readable .suffixed n ts mid spelt stops).trans (suffixesFrom_reads higher suffix)

theorem attr_readsBack {object : Expr} (own : object.ReadsBack) (member : String) :
    (attr object member).ReadsBack := by
  intro n ts rest spelt _
  simp only [kinds, enclosed_kinds, spelt_append, spelt_cons, spelt_nil] at spelt
  obtain ⟨_, spelt, p, _, rfl, q, rest, rfl, rfl⟩ := spelt
  have suffix : Reads (True ∧ (attr object member).height ≤ maxHeight)
      (suffix? (.ofLevels n) object object.height
        (⟨.symbol .dot, p⟩ :: ⟨.name member, q⟩ :: rest))
      (.ok (some (attr object member, (attr object member).height, rest))) := by
    have grows := (grown_reads object.height 0 rest).bind
      fun height => .ok (some (attr object member, height, rest))
    have tall : (attr object member).height = max object.height 0 + 1 := by
      rw [height, Nat.max_zero]
    rw [tall]
    exact grows.of_iff (iff_of_eq (true_and _)).symm
  refine (extended_reads own (by simp [height]) spelt (stops_cons.2 (by decide)) suffix).of_iff ?_
  simp only [FitsIn, levels, chainHeight, true_and]
  omega

theorem call_readsBack {callee : Expr} {args : List Expr} (own : callee.ReadsBack)
    (args_own : ∀ arg ∈ args, arg.ReadsBack) : (call callee args).ReadsBack := by
  intro n ts rest spelt _
  simp only [kinds, enclosed_kinds, spelt_append, spelt_cons, spelt_nil, List.append_assoc,
    List.cons_append] at spelt
  obtain ⟨_, spelt, p, more, rfl, _, args_spelt, q, rest, rfl, rfl⟩ := spelt
  have args_read := arguments_reads (n := n) args_own args_spelt (arguments_fuel args_spelt)
  have suffix : Reads
      ((listLevels args ≤ n ∧ listChainHeight args ≤ maxHeight) ∧
        (call callee args).height ≤ maxHeight)
      (suffix? (.ofLevels n) callee callee.height (⟨.symbol .leftParen, p⟩ :: more))
      (.ok (some (call callee args, (call callee args).height, rest))) := by
    have grows := (grown_reads callee.height (heights args) rest).bind
      fun height => .ok (some (call callee args, height, rest))
    have tall : (call callee args).height = max callee.height (heights args) + 1 := by
      rw [height, Nat.max_comm]
    rw [tall]
    exact (args_read.bind _).trans grows
  refine (extended_reads own ?_ spelt (stops_cons.2 (by decide)) suffix).of_iff ?_
  · simp only [height]
    omega
  · simp only [FitsIn, levels, chainHeight]
    omega

theorem index_readsBack {object key : Expr} (own : object.ReadsBack) (key_own : key.ReadsBack) :
    (index object key).ReadsBack := by
  intro n ts rest spelt _
  simp only [kinds, enclosed_kinds, spelt_append, spelt_cons, spelt_nil, List.append_assoc,
    List.cons_append] at spelt
  obtain ⟨_, spelt, p, more, rfl, _, key_spelt, q, rest, rfl, rfl⟩ := spelt
  have key_read := key_own.inner (n := n) key_spelt (stops_cons.2 (by decide))
  have suffix : Reads
      ((key.levels + 1 ≤ n ∧ key.chainHeight ≤ maxHeight) ∧ (index object key).height ≤ maxHeight)
      (suffix? (.ofLevels n) object object.height (⟨.symbol .leftBracket, p⟩ :: more))
      (.ok (some (index object key, (index object key).height, rest))) := by
    have grows := (grown_reads object.height key.height rest).bind
      fun height => .ok (some (index object key, height, rest))
    rw [height]
    exact (key_read.bind _).trans grows
  refine (extended_reads own ?_ spelt (stops_cons.2 (by decide)) suffix).of_iff ?_
  · simp only [height]
    omega
  · simp only [FitsIn, levels, chainHeight]
    omega

/-! ### Prefix operators -/

theorem unary_readsBack (op : UnaryOp) {operand : Expr} (own : operand.ReadsBack) :
    (unary op operand).ReadsBack := by
  intro n ts rest spelt stops
  rw [kinds, enclosed_kinds, spelt_cons] at spelt
  obtain ⟨p, ts, rfl, spelt⟩ := spelt
  have below (n : Nat) : Reads (operand.FitsIn op.slot n) (op.slot.parser (.ofLevels n) ts)
      (.ok (operand, rest)) := by
    have loose : op.slot.rank ≤ op.slot.tighter.rank := op.slot.rank_le_tighter
    have read := own.readable op.slot n ts rest spelt stops
    have done : op.slot.resume (.ofLevels n) operand rest = .ok (operand, rest) := by
      cases op <;> exact chainFrom_of_none rfl
    rwa [done] at read
  have limits : (unary op operand).levels ≤ n ∧ (unary op operand).chainHeight ≤ maxHeight ↔
      enclosedLevels op.slot operand.slot operand.levels + 1 ≤ n ∧
        operand.chainHeight ≤ maxHeight := by
    rw [levels, chainHeight]
  have done : op.slot.resume (.ofLevels n) (unary op operand) rest =
      .ok (unary op operand, rest) := by
    cases op <;> exact chainFrom_of_none rfl
  show Reads _ (op.slot.parser _ _) (op.slot.resume _ _ _)
  rw [done]
  refine Reads.of_iff ?_ limits.symm
  cases op with
  | negate =>
    have read := deeper_reads (fun n => (Inner.ofLevels n).negative) rfl (fun _ => rfl) below n
    exact read.bind _
  | not =>
    have read := deeper_reads (fun n => (Inner.ofLevels n).negated) rfl (fun _ => rfl) below n
    exact read.bind _

/-! ### Operators between operands -/

/-- An operator of a slot is read between a tree of the slot and one of the next tighter slot. -/
theorem joined_reads {s : Slot} {join : Expr → Expr → Expr} {op : List Kind} {left right : Expr}
    (chains : s ≠ .primary ∧ s ≠ .suffixed)
    (operator : ∀ ts rest, Spelt op ts rest → s.operator? ts = some (join, rest))
    (binds : ∀ ts rest, Spelt op ts rest → Stops s.tighter.rank ts)
    (grows : (join left right).height = max left.height right.height + 1)
    (own : left.ReadsBack) (right_own : right.ReadsBack) {n : Nat} {ts rest : List Token}
    (spelt : Spelt (left.spelling s ++ op ++ right.spelling s.tighter) ts rest)
    (stops : Stops s.tighter.rank rest) :
    Reads (left.FitsIn s n ∧ right.FitsIn s.tighter n ∧ (join left right).height ≤ maxHeight)
      (s.parser (.ofLevels n) ts) (s.resume (.ofLevels n) (join left right) rest) := by
  simp only [spelt_append] at spelt
  obtain ⟨mid, ⟨front, left_spelt, op_spelt⟩, right_spelt⟩ := spelt
  have left_read := own.readable s n ts front left_spelt (binds front mid op_spelt)
  have right_read := right_own.readable s.tighter n mid rest right_spelt
    (stops.mono s.tighter.rank_le_tighter)
  rw [Slot.resume_of_stops stops] at right_read
  have joined := chainFrom_reads (operator front mid op_spelt) grows right_read
  have resume (e : Expr) : s.resume (.ofLevels n) e =
      chainFrom s.operator? (s.tighter.parser (.ofLevels n)) e := if_neg chains.2
  rw [resume] at left_read ⊢
  exact left_read.trans joined

theorem binary_readsBack (op : BinaryOp) {left right : Expr} (own : left.ReadsBack)
    (right_own : right.ReadsBack) : (binary op left right).ReadsBack := by
  intro n ts rest spelt stops
  rw [kinds, enclosed_kinds, enclosed_kinds] at spelt
  have read := joined_reads (s := op.slot) (by cases op <;> decide)
    (fun ts rest => op.operator?_kinds) (fun ts rest h => ?_) (by rw [height]) own right_own
    spelt stops (n := n)
  · refine read.of_iff ?_
    simp only [FitsIn, levels, chainHeight]
    omega
  · cases op <;> obtain ⟨_, _, rfl, _⟩ := spelt_cons.1 h <;> exact stops_cons.2 (by decide)

theorem logical_readsBack (op : LogicalOp) {left right : Expr} (own : left.ReadsBack)
    (right_own : right.ReadsBack) : (logical op left right).ReadsBack := by
  intro n ts rest spelt stops
  rw [kinds, enclosed_kinds, enclosed_kinds] at spelt
  have read := joined_reads (s := op.slot) (by cases op <;> decide)
    (fun ts rest => op.operator?_kinds) (fun ts rest h => ?_) (by rw [height]) own right_own
    spelt stops (n := n)
  · refine read.of_iff ?_
    simp only [FitsIn, levels, chainHeight]
    omega
  · cases op <;> obtain ⟨_, _, rfl, _⟩ := spelt_cons.1 h <;> exact stops_cons.2 (by decide)

/-! ### Lambdas -/

theorem parameters_separated {params : List String} : ∀ {fuel : Nat} {ts rest : List Token}
    {p : Position}, params ≠ [] →
    Spelt (separated (.symbol .comma) params) ts (⟨.symbol .colon, p⟩ :: rest) →
    params.length < fuel →
    parameters fuel ts = .ok (params, ⟨.symbol .colon, p⟩ :: rest) := by
  induction params with
  | nil => exact fun h => absurd rfl h
  | cons param others ih =>
    intro fuel ts rest p _ spelt room
    obtain ⟨fuel, rfl⟩ : ∃ k, fuel = k + 1 := ⟨fuel - 1, by omega⟩
    cases others with
    | nil =>
      simp only [separated, spelt_cons, spelt_nil] at spelt
      obtain ⟨_, _, rfl, rfl⟩ := spelt
      rfl
    | cons second others =>
      simp only [separated, spelt_cons] at spelt
      obtain ⟨_, _, rfl, _, more, rfl, spelt⟩ := spelt
      have others_read := ih (by simp) spelt (Nat.lt_of_succ_lt_succ room)
      show (parameters fuel more >>= _) = _
      rw [others_read]
      rfl

theorem length_le_separated (separator : Kind) (words : List String) :
    words.length ≤ (separated separator words).length := by
  induction words with
  | nil => exact Nat.zero_le _
  | cons word others ih =>
    cases others with
    | nil => exact Nat.le_refl _
    | cons second others =>
      simp only [separated, List.length_cons] at ih ⊢
      omega

theorem lambda_of_parameters (inner : Inner) {params : List String} {ts rest : List Token}
    {p : Position}
    (spelt : Spelt (separated (.symbol .comma) params) ts (⟨.symbol .colon, p⟩ :: rest)) :
    lambda inner ts =
      (inner.expression rest >>= fun (body, rest) => .ok (Expr.lambda params body, rest)) := by
  cases params with
  | nil =>
    obtain rfl := spelt_nil.1 spelt
    rfl
  | cons param others =>
    have room : (param :: others).length < ts.length + 1 := by
      have := length_le_separated (.symbol .comma) (param :: others)
      have := spelt.length
      omega
    have named : dropSymbol? .colon ts = none := by
      cases others <;> obtain ⟨_, _, rfl, _⟩ := spelt_cons.1 spelt <;> rfl
    unfold lambda
    rw [named, parameters_separated (by simp) spelt room]
    rfl

theorem lambda_readsBack (params : List String) {body : Expr} (own : body.ReadsBack) :
    (Expr.lambda params body).ReadsBack := by
  intro n ts rest spelt stops
  simp only [kinds, List.cons_append, spelt_cons, spelt_append] at spelt
  obtain ⟨p, ts, rfl, _, params_spelt, q, more, rfl, spelt⟩ := spelt
  have body_read := (own.inner (n := n) spelt stops).bind fun (body, rest) =>
    Except.ok (Expr.lambda params body, rest)
  show Reads _ (lambda _ ts) (Slot.expression.resume _ _ _)
  rw [lambda_of_parameters _ params_spelt, Slot.resume_expression, levels, chainHeight]
  exact body_read

/-! ### Trees -/

/-- Every tree reads back in its own slot. -/
theorem Expr.readsBack (e : Expr) : e.ReadsBack := by
  induction e using Expr.induct with
  | literal value => exact literal_readsBack value
  | name word => exact name_readsBack word
  | tuple items own => exact tuple_readsBack own
  | attr object member own => exact attr_readsBack own member
  | call callee args own args_own => exact call_readsBack own args_own
  | index object key own key_own => exact index_readsBack own key_own
  | unary op operand own => exact unary_readsBack op own
  | binary op left right own right_own => exact binary_readsBack op own right_own
  | logical op left right own right_own => exact logical_readsBack op own right_own
  | lambda params body own => exact lambda_readsBack params own

/-- An expression of its own reads back before anything that cannot go on with it. -/
theorem expression_reads (e : Expr) {ts rest : List Token} (spelt : Spelt e.kinds ts rest)
    (stops : Stops 1 rest) : Reads e.Fits (expression ts) (.ok (e, rest)) :=
  e.readsBack.inner spelt stops

end ScriptBridge.Syntax
