import ScriptBridge.Proofs.Grammar.Nodes

/-!
# Round trips

Statements and programs read back like expressions do, and the parser as a whole answers every
canonical spelling with what it spells, within the limits, and with a report beyond them.
-/

namespace ScriptBridge.Syntax

/-! ### Names -/

theorem dotted_words {words : List String} : ∀ {word : String} {ts rest : List Token},
    Spelt (separated (.symbol .dot) (word :: words)) ts rest → Stops 1 rest →
    dottedName ts = .ok (String.intercalate "." (word :: words), rest) := by
  have from_first : ∀ {word : String} {ts rest : List Token},
      Spelt (separated (.symbol .dot) (word :: words)) ts rest → Stops 1 rest →
      ∃ p more tail, ts = ⟨.name word, p⟩ :: more ∧ dottedRest more = .ok (tail, rest) ∧
        word ++ tail = String.intercalate "." (word :: words) := by
    induction words with
    | nil =>
      intro word ts rest spelt stops
      simp only [separated, spelt_cons, spelt_nil] at spelt
      obtain ⟨p, rest, rfl, rfl⟩ := spelt
      refine ⟨p, rest, "", rfl, ?_, by simp⟩
      unfold dottedRest
      split
      · exact absurd (stops_cons.1 stops) (by decide)
      · exact absurd (stops_cons.1 stops) (by decide)
      · rfl
    | cons second others ih =>
      intro word ts rest spelt stops
      simp only [separated, spelt_cons] at spelt
      obtain ⟨p, _, rfl, q, _, rfl, spelt⟩ := spelt
      obtain ⟨q', more, tail, rfl, read, joined⟩ := ih spelt stops
      refine ⟨p, _, "." ++ second ++ tail, rfl, ?_, ?_⟩
      · rw [dottedRest, read]
        rfl
      · rw [String.intercalate_cons_cons, ← joined]
        simp only [String.append_assoc]
  intro word ts rest spelt stops
  obtain ⟨p, more, tail, rfl, read, joined⟩ := from_first spelt stops
  rw [← joined]
  show (dottedRest more >>= _) = _
  rw [read]
  rfl

theorem intercalate_pathWords (path : String) : String.intercalate "." (pathWords path) = path := by
  have toList : (String.intercalate "." (pathWords path)).toList = path.toList := by
    rw [String.toList_intercalate, pathWords, List.map_map]
    have same : String.toList ∘ String.ofList = id := funext fun _ => String.toList_ofList
    rw [same, List.map_id]
    exact List.intercalate_splitOn '.'
  exact String.toList_injective toList

theorem dottedName_path {path : String} {ts rest : List Token}
    (spelt : Spelt (separated (.symbol .dot) (pathWords path)) ts rest) (stops : Stops 1 rest) :
    dottedName ts = .ok (path, rest) := by
  cases h : pathWords path with
  | nil => exact absurd (List.map_eq_nil_iff.1 h) (List.splitOn_ne_nil '.' _)
  | cons word words =>
    rw [h] at spelt
    rw [dotted_words spelt stops, ← h, intercalate_pathWords]

theorem newName?_spelt {newName : Option String} {ts rest : List Token}
    (spelt : Spelt (newNameKinds newName) ts rest) (ends : dropKeyword? .asName rest = none) :
    newName? ts = .ok (newName, rest) := by
  cases newName with
  | none =>
    obtain rfl := spelt_nil.1 spelt
    rw [newName?, ends]
  | some name =>
    simp only [newNameKinds, spelt_cons, spelt_nil] at spelt
    obtain ⟨_, _, rfl, _, _, rfl, rfl⟩ := spelt
    rfl

theorem importItems_spelt {names : List (String × Option String)} : ∀ {fuel : Nat}
    {ts rest : List Token}, names ≠ [] → Spelt (importItemKinds names) ts rest →
    dropKeyword? .asName rest = none → dropSymbol? .comma rest = none → names.length < fuel →
    importItems false fuel ts = .ok (names, rest) := by
  induction names with
  | nil => exact fun h => absurd rfl h
  | cons first others ih =>
    obtain ⟨name, newName⟩ := first
    intro fuel ts rest _ spelt not_renamed last room
    obtain ⟨fuel, rfl⟩ : ∃ k, fuel = k + 1 := ⟨fuel - 1, by omega⟩
    cases others with
    | nil =>
      rw [importItemKinds, spelt_cons] at spelt
      obtain ⟨p, more, rfl, spelt⟩ := spelt
      have read := newName?_spelt spelt not_renamed
      show (newName? more >>= _) = _
      rw [read]
      simp only [bind, Except.bind, last]
    | cons second others =>
      simp only [importItemKinds, List.cons_append, spelt_cons, spelt_append] at spelt
      obtain ⟨p, more, rfl, _, spelt, q, others_ts, rfl, others_spelt⟩ := spelt
      have read := newName?_spelt spelt rfl
      have others_read := ih (by simp) others_spelt not_renamed last (Nat.lt_of_succ_lt_succ room)
      show (newName? more >>= _) = _
      rw [read]
      show (importItems false fuel others_ts >>= _) = _
      rw [others_read]
      rfl

theorem length_le_importItemKinds (names : List (String × Option String)) :
    names.length ≤ (importItemKinds names).length := by
  induction names with
  | nil => exact Nat.zero_le _
  | cons first others ih =>
    cases others with
    | nil => simp [importItemKinds]
    | cons second others =>
      simp only [importItemKinds, List.length_cons, List.length_append] at ih ⊢
      omega

theorem importNames_spelt {names : ImportNames} {ts rest : List Token}
    (listed : names ≠ .listed []) (spelt : Spelt names.kinds ts rest)
    (not_renamed : dropKeyword? .asName rest = none) (last : dropSymbol? .comma rest = none) :
    importNames ts = .ok (names, rest) := by
  cases names with
  | all =>
    rw [ImportNames.kinds, spelt_cons] at spelt
    obtain ⟨_, _, rfl, spelt⟩ := spelt
    obtain rfl := spelt_nil.1 spelt
    rfl
  | listed names =>
    have room : names.length < ts.length + 1 := by
      have := length_le_importItemKinds names
      have := spelt.length
      rw [ImportNames.kinds] at this
      omega
    have read := importItems_spelt (by rintro rfl; exact listed rfl) spelt not_renamed last room
    have named : dropSymbol? .star ts = none ∧ dropSymbol? .leftParen ts = none := by
      match names, listed, spelt with
      | [(name, newName)], _, spelt | (name, newName) :: _ :: _, _, spelt =>
        obtain ⟨_, _, rfl, _⟩ := spelt_cons.1 spelt
        exact ⟨rfl, rfl⟩
      | [], listed, _ => exact absurd rfl listed
    rw [importNames, named.1, named.2, read]
    rfl

/-! ### Statements -/

theorem opens_of_kinds {e : Expr} {ts rest : List Token} (spelt : Spelt e.kinds ts rest) :
    Opens 0 ts :=
  opens_of_spelt (s := .expression) (by rwa [spelling_of_le (Nat.zero_le _)])

/-- A statement that begins like an expression is one, or an assignment. -/
theorem statement_of_opens {ts : List Token} (h : Opens 0 ts) :
    statement ts = simpleStatement ts := by
  obtain ⟨k, p, more, n, rfl, hk, _⟩ := h
  unfold statement
  split
  · rename_i heq
    cases heq
  · rename_i heq
    cases heq
    split <;> first | rfl | (rename_i hk'; cases hk'; cases hk)

theorem not_atStatementEnd_of_opens {ts : List Token} (h : Opens 0 ts) :
    atStatementEnd ts = false := by
  obtain ⟨k, p, more, n, rfl, hk, _⟩ := h
  unfold atStatementEnd
  split
  · rename_i heq
    cases heq
  · rename_i heq
    cases heq
    split <;> first | rfl | (rename_i hk'; cases hk'; cases hk)

theorem Target.target?_expr (target : Target) : target.expr.target? = some target := by
  cases target <;> rfl

/-- A statement reads back up to the end of its line. -/
theorem statement_reads {s : Statement} (listed : s.Listed) {ts rest : List Token} {p : Position}
    (spelt : Spelt s.kinds ts (⟨.newline, p⟩ :: rest)) :
    Reads s.Fits (statement ts) (.ok (s, ⟨.newline, p⟩ :: rest)) := by
  have ends : Stops 1 (⟨.newline, p⟩ :: rest) := stops_cons.2 (by decide)
  cases s with
  | expr value =>
    rw [statement_of_opens (opens_of_kinds spelt)]
    exact (expression_reads value spelt ends).bind _
  | assign target value =>
    simp only [Statement.kinds, spelt_append, spelt_cons] at spelt
    obtain ⟨_, target_spelt, q, more, rfl, spelt⟩ := spelt
    rw [statement_of_opens (opens_of_kinds target_spelt)]
    have target_read := expression_reads target.expr target_spelt (stops_cons.2 (by decide))
    have value_read := expression_reads value spelt ends
    refine (target_read.bind _).trans ?_
    simp only [bind, Except.bind, target.target?_expr]
    exact value_read.bind _
  | imports path newName =>
    simp only [Statement.kinds, List.cons_append, spelt_append, spelt_cons] at spelt
    obtain ⟨q, more, rfl, mid, path_spelt, spelt⟩ := spelt
    have mid_stops : Stops 1 mid := by
      cases newName with
      | none =>
        obtain rfl := spelt_nil.1 spelt
        exact ends
      | some name =>
        obtain ⟨_, _, rfl, _⟩ := spelt_cons.1 spelt
        exact stops_cons.2 (by decide)
    have path_read := dottedName_path path_spelt mid_stops
    have name_read := newName?_spelt spelt rfl
    show Reads _ (dottedName more >>= _) _
    rw [path_read]
    show Reads _ (newName? mid >>= _) _
    rw [name_read]
    exact .refl _
  | fromImport path names =>
    simp only [Statement.kinds, List.cons_append, spelt_append, spelt_cons] at spelt
    obtain ⟨q, more, rfl, _, path_spelt, q', more', rfl, spelt⟩ := spelt
    have path_read := dottedName_path path_spelt (stops_cons.2 (by decide))
    have names_read := importNames_spelt (by rintro rfl; exact listed rfl) spelt rfl rfl
    show Reads _ (dottedName more >>= _) _
    rw [path_read]
    show Reads _ (importNames more' >>= _) _
    rw [names_read]
    exact .refl _
  | raise value =>
    cases value with
    | none =>
      rw [Statement.kinds, spelt_cons] at spelt
      obtain ⟨_, _, rfl, spelt⟩ := spelt
      obtain rfl := spelt_nil.1 spelt
      exact .refl _
    | some value =>
      rw [Statement.kinds, spelt_cons] at spelt
      obtain ⟨_, more, rfl, spelt⟩ := spelt
      show Reads _ (if atStatementEnd more then _ else _) _
      rw [not_atStatementEnd_of_opens (opens_of_kinds spelt), if_neg (by decide)]
      exact (expression_reads value spelt ends).bind _
  | pass =>
    rw [Statement.kinds, spelt_cons] at spelt
    obtain ⟨_, _, rfl, spelt⟩ := spelt
    obtain rfl := spelt_nil.1 spelt
    exact .refl _

/-! ### Programs -/

/-- A token of the kind stands after a statement and not in front of one. -/
def Kind.Ends (k : Kind) : Prop := k = .newline ∨ k = .symbol .semicolon ∨ k = .endOfInput

theorem Kind.not_ends_of_opens {k : Kind} {n : Nat} (h : k.opens? = some n) : ¬k.Ends := by
  rintro (rfl | rfl | rfl) <;> cases h

theorem Statement.kinds_front (s : Statement) : ∃ k more, s.kinds = k :: more ∧ ¬k.Ends := by
  have of_expr : ∀ (e : Expr) (others : List Kind),
      ∃ k more, e.kinds ++ others = k :: more ∧ ¬k.Ends := by
    intro e others
    obtain ⟨k, more, n, hk, hn, _⟩ := (kinds_open e).append others
    exact ⟨k, more, hk, Kind.not_ends_of_opens hn⟩
  cases s with
  | expr value =>
    have front := of_expr value []
    rwa [List.append_nil] at front
  | assign target value => exact of_expr target.expr _
  | raise value => cases value <;> exact ⟨_, _, rfl, by simp [Kind.Ends]⟩
  | imports path newName | fromImport path names | pass =>
    exact ⟨_, _, rfl, by simp [Kind.Ends]⟩

theorem skipSeparators_of_not_ends {k : Kind} (h : ¬k.Ends) (p : Position) (ts : List Token) :
    skipSeparators (⟨k, p⟩ :: ts) = ⟨k, p⟩ :: ts := by
  unfold skipSeparators
  split
  · rename_i heq
    cases heq
    exact absurd (.inl rfl) h
  · rename_i heq
    cases heq
    exact absurd (.inr (.inl rfl)) h
  · rfl

theorem atEnd_of_not_ends {k : Kind} (h : ¬k.Ends) (p : Position) (ts : List Token) :
    atEnd (⟨k, p⟩ :: ts) = false := by
  show (k == Kind.endOfInput) = false
  rw [beq_eq_false_iff_ne]
  rintro rfl
  exact h (.inr (.inr rfl))

theorem statements_reads {program : Program} {ts : List Token} (spells : program.Spells ts) :
    program.Listed → ∀ {fuel : Nat}, program.length < fuel →
      Reads program.Fits (statements fuel ts) (.ok program) := by
  induction spells with
  | nil end_ =>
    intro _ fuel room
    obtain ⟨fuel, rfl⟩ : ∃ k, fuel = k + 1 := ⟨fuel - 1, by omega⟩
    exact (Reads.refl _).of_iff (by simp [Program.Fits])
  | @cons line first others front more lineEnd kinds starts spells ih =>
    intro listed fuel room
    obtain ⟨fuel, rfl⟩ : ∃ k, fuel = k + 1 := ⟨fuel - 1, by omega⟩
    have first_read := statement_reads (listed (line, first) (by simp))
      (⟨front, rfl, kinds⟩ : Spelt first.kinds (front ++ ⟨.newline, lineEnd⟩ :: more) _)
    have others_read : Reads others.Fits (statements fuel (⟨.newline, lineEnd⟩ :: more))
        (.ok others) := by
      cases fuel with
      | zero => exact absurd (Nat.lt_of_succ_lt_succ room) (Nat.not_lt_zero _)
      | succ fuel =>
        exact ih (fun entry h => listed entry (by simp [h])) (Nat.lt_of_succ_lt_succ room)
    obtain ⟨k, kinds', hk, not_ends⟩ := first.kinds_front
    rw [hk] at kinds
    obtain ⟨⟨_, p⟩, front, rfl, rfl, rfl⟩ := List.map_eq_cons_iff.1 kinds
    obtain rfl : p.line = line := starts
    rw [List.cons_append] at first_read
    rw [statements, List.cons_append]
    simp only [skipSeparators_of_not_ends not_ends, atEnd_of_not_ends not_ends]
    have first_done := first_read.bind fun r =>
      if atStatementEnd r.2 then
        statements fuel r.2 >>= fun more => .ok ((p.line, r.1) :: more)
      else .error (unexpected .endOfStatement r.2)
    have others_done := others_read.bind fun more => .ok ((p.line, first) :: more)
    refine (Reads.trans first_done others_done).of_iff ?_
    simp [Program.Fits]

theorem Program.Spells.length_le {program : Program} {ts : List Token}
    (spells : program.Spells ts) : program.length < ts.length := by
  induction spells with
  | nil end_ => exact Nat.zero_lt_one
  | cons lineEnd kinds starts others ih =>
    simp only [List.length_cons, List.length_append]
    omega

/-- The kinds as tokens of one line. -/
def onLine (line : Nat) (kinds : List Kind) : List Token := kinds.map (⟨·, ⟨line, 1⟩⟩)

@[simp] theorem onLine_kinds (line : Nat) (kinds : List Kind) :
    (onLine line kinds).map Token.kind = kinds := by
  simp [onLine, Function.comp_def]

/-- One spelling of a program. -/
def Program.tokens : Program → List Token
  | [] => [⟨.endOfInput, .start⟩]
  | (line, s) :: rest => onLine line s.kinds ++ ⟨.newline, ⟨line, 1⟩⟩ :: tokens rest

theorem Program.spells_tokens (program : Program) : program.Spells program.tokens := by
  induction program with
  | nil => exact .nil _
  | cons first others ih =>
    obtain ⟨line, s⟩ := first
    obtain ⟨k, more, hk, _⟩ := s.kinds_front
    refine .cons ⟨line, 1⟩ (onLine_kinds line _) ?_ ih
    rw [hk]
    rfl

/-! ### Source texts -/

theorem ofTokens_reads {e : Expr} {ts : List Token}
    (spelt : ts.map Token.kind = e.kinds ++ [.newline, .endOfInput]) :
    Reads e.Fits (Expr.ofTokens ts) (.ok e) := by
  have spelt : Spelt (e.kinds ++ [.newline, .endOfInput]) ts [] := ⟨ts, by simp, spelt⟩
  simp only [spelt_append, spelt_cons, spelt_nil] at spelt
  obtain ⟨_, spelt, p, _, rfl, q, _, rfl, rfl⟩ := spelt
  obtain ⟨k, p', more, n, rfl, hk, _⟩ := opens_of_kinds spelt
  have read := expression_reads e spelt (stops_cons.2 (by decide))
  rw [Expr.ofTokens, skipSeparators_of_not_ends (Kind.not_ends_of_opens hk)]
  exact read.bind _

/-- Parsing inverts spelling within the two limits, and reports their excess beyond them, for
expressions and for programs. -/
theorem parse_spelling :
    (∀ (e : Expr) (ts : List Token), ts.map Token.kind = e.kinds ++ [.newline, .endOfInput] →
      (e.Fits → Expr.ofTokens ts = .ok e) ∧
        (¬e.Fits → ∃ p, Expr.ofTokens ts = .error ⟨.tooDeep, p⟩)) ∧
    ∀ (program : Program) (ts : List Token), program.Listed → program.Spells ts →
      (program.Fits → Program.ofTokens ts = .ok program) ∧
        (¬program.Fits → ∃ p, Program.ofTokens ts = .error ⟨.tooDeep, p⟩) := by
  refine ⟨fun e ts spelt => ofTokens_reads spelt, fun program ts listed spells => ?_⟩
  have room : program.length < ts.length + 1 := Nat.lt_succ_of_lt spells.length_le
  exact statements_reads spells listed room

/-- So many pairs of parentheses, each around a tuple of one item. -/
def nested : Nat → Expr
  | 0 => .literal .none
  | levels + 1 => .tuple [nested levels]

/-- An import, an assignment and a call. -/
def threeLines : Program :=
  [(1, .fromImport "os.path" (.listed [("join", some "j"), ("exists", none)])),
    (2, .assign (.attr (.name "a") "x")
      (.binary .notWithin (.unary .not (.name "b")) (.tuple [.lambda ["c"] (.name "c")]))),
    (3, .expr (.call (.name "exists") [.name "b"]))]

/-- Forty-nine pairs of parentheses read back and fifty do not; a program of three lines does. -/
theorem parse_spelling_nested :
    Expr.ofTokens (onLine 1 ((nested 49).kinds ++ [.newline, .endOfInput])) = .ok (nested 49) ∧
    (∃ p, Expr.ofTokens (onLine 1 ((nested 50).kinds ++ [.newline, .endOfInput])) =
      .error ⟨.tooDeep, p⟩) ∧
    Program.ofTokens threeLines.tokens = .ok threeLines := by
  have fits : (nested 49).Fits := by decide +kernel
  have deep : ¬(nested 50).Fits := by decide +kernel
  have listed : threeLines.Listed := by decide
  have all_fit : threeLines.Fits := by decide
  exact ⟨(parse_spelling.1 _ _ (onLine_kinds 1 _)).1 fits,
    (parse_spelling.1 _ _ (onLine_kinds 1 _)).2 deep,
    (parse_spelling.2 _ _ listed threeLines.spells_tokens).1 all_fit⟩

end ScriptBridge.Syntax
