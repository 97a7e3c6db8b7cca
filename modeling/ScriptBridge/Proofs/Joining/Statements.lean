import ScriptBridge.Proofs.Joining.Reader
import ScriptBridge.Proofs.Joining.Seams
import ScriptBridge.Syntax.Reading

/-!
# Programs up to a seam

No statement goes over a seam either, and the statements of a program are read one after the other.
So a program whose tokens stand before the end of a line is read as it would be on its own, and the
rest of the tokens after it; and a program that stands further down keeps its statements.
-/

namespace ScriptBridge.Syntax

/-- The program so many lines further down. -/
def Program.lower (lines : Nat) (p : Program) : Program := p.map fun (line, s) => (line + lines, s)

@[simp] theorem Program.lower_zero (p : Program) : p.lower 0 = p := List.map_id p

variable {s : Seam} {α : Type} {m n : Nat} {ts ts' : List Token}

/-! ### Imports -/

theorem dottedRest_agree (n : Nat) : ∀ {ts ts'}, Beside s n ts ts' →
    Agree s (Follow s (n + 1)) (dottedRest ts) (dottedRest ts') := by
  induction n using Nat.strongRecOn with
  | ind n ih =>
    intro ts ts' h
    have stays : Follow s (n + 1) ("", ts) ("", ts') := .of_nearer h.nearer
    obtain ⟨kind, p, p', rest, rest', rfl, rfl, moved, near⟩ := h.front
    cases kind with
    | symbol sign =>
      cases sign with
      | dot =>
        obtain ⟨m, less, h⟩ := near nofun nofun
        have refused := h.unexpected .moduleName (R := Follow s (α := String) (n + 1))
        obtain ⟨kind, q, q', rest, rest', rfl, rfl, moved, near⟩ := h.front
        cases kind with
        | name word =>
          obtain ⟨k, closer, h⟩ := near nofun nofun
          refine (ih k (by omega) h).bind ?_
          rintro ⟨_, rest⟩ ⟨more, rest'⟩ ⟨rfl, near⟩
          exact .ok (.of_nearer (near.mono (by omega)))
        | _ => exact refused
      | _ => exact .ok stays
    | _ => exact .ok stays

theorem dottedName_keeps : Keeps s dottedName := by
  intro n ts ts' h
  refine (h.identifier .moduleName).bind ?_
  rintro ⟨_, rest⟩ ⟨first, rest'⟩ ⟨rfl, m, less, h⟩
  refine (dottedRest_agree m h).bind ?_
  rintro ⟨_, rest⟩ ⟨more, rest'⟩ ⟨rfl, near⟩
  exact .ok (.of_nearer (near.mono less))

theorem newName?_agree (h : Beside s n ts ts') :
    Agree s (Follow s (n + 1)) (newName? ts) (newName? ts') := by
  unfold newName?
  have as := h.dropKeyword? .asName
  generalize dropKeyword? .asName ts = d, dropKeyword? .asName ts' = d' at as
  cases as with
  | none => exact .ok (.of_nearer h.nearer)
  | some near =>
    obtain ⟨m, less, h⟩ := near
    refine (h.identifier .newName).bind ?_
    rintro ⟨_, rest⟩ ⟨name, rest'⟩ ⟨rfl, near⟩
    exact .ok (.of_nearer (near.mono (by omega)))

theorem importItems_agree (inParens : Bool) {fuel fuel' : Nat} (h : Beside s n ts ts')
    (enough : n < fuel) (enough' : n < fuel') :
    Agree s (Follow s n) (importItems inParens fuel ts) (importItems inParens fuel' ts') := by
  induction fuel generalizing n ts ts' fuel' with
  | zero => exact absurd enough (Nat.not_lt_zero n)
  | succ fuel ih =>
    cases fuel' with
    | zero => exact absurd enough' (Nat.not_lt_zero n)
    | succ fuel' =>
      unfold importItems
      refine (h.identifier .importedName).bind ?_
      rintro ⟨_, rest⟩ ⟨name, rest'⟩ ⟨rfl, m, less, h⟩
      refine (newName?_agree h).bind ?_
      rintro ⟨_, rest⟩ ⟨newName, rest'⟩ ⟨rfl, k, closer, h⟩
      have comma := h.dropSymbol? .comma
      dsimp only at h ⊢ comma
      generalize dropSymbol? .comma rest = d, dropSymbol? .comma rest' = d' at comma
      cases comma with
      | none => exact .ok (.of_nearer ⟨k, by omega, h⟩)
      | @some rest rest' near =>
        obtain ⟨j, nearer, h⟩ := near
        have closes : (dropSymbol? .rightParen rest).isSome =
            (dropSymbol? .rightParen rest').isSome := by
          have closed := h.dropSymbol? .rightParen
          generalize dropSymbol? .rightParen rest = d, dropSymbol? .rightParen rest' = d' at closed
          cases closed <;> rfl
        dsimp only
        rw [closes]
        split
        · exact .ok (.of_nearer ⟨j, by omega, h⟩)
        · refine (ih h (by omega) (by omega)).bind ?_
          rintro ⟨_, rest⟩ ⟨items, rest'⟩ ⟨rfl, near⟩
          exact .ok (.of_nearer (near.mono (by omega)))

theorem importNames_keeps : Keeps s importNames := by
  intro n ts ts' h
  unfold importNames
  have star := h.dropSymbol? .star
  generalize dropSymbol? .star ts = d, dropSymbol? .star ts' = d' at star
  cases star with
  | some near => exact .ok (.of_nearer near)
  | none =>
    have opening := h.dropSymbol? .leftParen
    dsimp only
    generalize dropSymbol? .leftParen ts = d, dropSymbol? .leftParen ts' = d' at opening
    cases opening with
    | some near =>
      obtain ⟨m, less, h⟩ := near
      have enough := h.lt_length
      refine (importItems_agree true h (by omega) (by omega)).bind ?_
      rintro ⟨_, rest⟩ ⟨items, rest'⟩ ⟨rfl, k, closer, h⟩
      refine (h.dropSymbol .rightParen .rightParen).bind ?_
      rintro rest rest' near
      exact .ok (.of_nearer (near.mono (by omega)))
    | none =>
      have enough := h.lt_length
      refine (importItems_agree false h (by omega) (by omega)).bind ?_
      rintro ⟨_, rest⟩ ⟨items, rest'⟩ ⟨rfl, near⟩
      exact .ok (.of_nearer near)

/-! ### Single statements -/

theorem simpleStatement_keeps : Keeps s simpleStatement := by
  intro n ts ts' h
  have place := h.nextPosition
  refine (expression_keeps h).bind ?_
  rintro ⟨_, rest⟩ ⟨left, rest'⟩ ⟨rfl, m, less, h⟩
  have equal := h.dropSymbol? .equal
  dsimp only at h ⊢ equal
  generalize dropSymbol? .equal rest = d, dropSymbol? .equal rest' = d' at equal
  cases equal with
  | none => exact .ok (.of_nearer ⟨m, less, h⟩)
  | some near =>
    obtain ⟨k, closer, h⟩ := near
    dsimp only
    cases left.target? with
    | none => exact .error place
    | some target =>
      refine (expression_keeps h).bind ?_
      rintro ⟨_, rest⟩ ⟨value, rest'⟩ ⟨rfl, near⟩
      exact .ok (.of_nearer (near.mono (by omega)))

theorem Beside.atStatementEnd (h : Beside s n ts ts') :
    Syntax.atStatementEnd ts = Syntax.atStatementEnd ts' := by
  obtain ⟨kind, p, p', rest, rest', rfl, rfl, -, -⟩ := h.front
  rfl

theorem statement_keeps : Keeps s statement := by
  intro n ts ts' h
  have simple := simpleStatement_keeps h
  obtain ⟨kind, p, p', rest, rest', rfl, rfl, moved, near⟩ := h.front
  cases kind with
  | keyword word =>
    obtain ⟨m, less, after⟩ := near nofun nofun
    cases word with
    | imports =>
      refine (dottedName_keeps after).bind ?_
      rintro ⟨_, rest⟩ ⟨path, rest'⟩ ⟨rfl, k, closer, h⟩
      refine (newName?_agree h).bind ?_
      rintro ⟨_, rest⟩ ⟨newName, rest'⟩ ⟨rfl, near⟩
      exact .ok (.of_nearer (near.mono (by omega)))
    | froms =>
      refine (dottedName_keeps after).bind ?_
      rintro ⟨_, rest⟩ ⟨path, rest'⟩ ⟨rfl, k, closer, h⟩
      have imports := h.dropKeyword? .imports
      have refused := h.unexpected .importWord (R := Follow s (α := Statement) n)
      dsimp only at h ⊢ imports refused
      generalize dropKeyword? .imports rest = d, dropKeyword? .imports rest' = d' at imports
      cases imports with
      | none => exact refused
      | some near =>
        obtain ⟨j, nearer, h⟩ := near
        refine (importNames_keeps h).bind ?_
        rintro ⟨_, rest⟩ ⟨names, rest'⟩ ⟨rfl, near⟩
        exact .ok (.of_nearer (near.mono (by omega)))
    | raise =>
      have ends := after.atStatementEnd
      simp only [statement]
      rw [ends]
      split
      · exact .ok (.of_nearer ⟨m, less, after⟩)
      · refine (expression_keeps after).bind ?_
        rintro ⟨_, rest⟩ ⟨value, rest'⟩ ⟨rfl, near⟩
        exact .ok (.of_nearer (near.mono (Nat.le_of_lt less)))
    | pass => exact .ok (.of_nearer ⟨m, less, after⟩)
    | _ => exact simple
  | _ => exact simple

/-! ### Statements in a row -/

/-- Only what comes after the separators is read. -/
theorem statements_skip (fuel : Nat) {us : List Token}
    (same : skipSeparators ts = skipSeparators us) :
    statements (fuel + 1) ts = statements (fuel + 1) us := by
  unfold statements
  rw [same]

/-- Before the seam comes a token that is no separator, or there are only separators. -/
theorem Beside.skipSeparators (h : Beside s n ts ts') :
    (Syntax.skipSeparators ts = Syntax.skipSeparators (⟨s.ends, s.here⟩ :: s.after) ∧
      Syntax.skipSeparators ts' = Syntax.skipSeparators (⟨s.ends, s.here'⟩ :: s.after')) ∨
    ∃ m ≤ n, Beside s m (Syntax.skipSeparators ts) (Syntax.skipSeparators ts') ∧
      atEnd (Syntax.skipSeparators ts) = false ∧ atEnd (Syntax.skipSeparators ts') = false := by
  induction h with
  | seam => exact .inl ⟨rfl, rfl⟩
  | @token n kind p p' rest rest' moved inside h ih =>
    have first (ts : List Token) (p : Position) : atEnd (⟨kind, p⟩ :: ts) = false :=
      beq_eq_false_iff_ne.mpr inside
    have stands : ∃ m ≤ n + 1, Beside s m (⟨kind, p⟩ :: rest) (⟨kind, p'⟩ :: rest') ∧
        atEnd (⟨kind, p⟩ :: rest) = false ∧ atEnd (⟨kind, p'⟩ :: rest') = false :=
      ⟨n + 1, Nat.le_refl _, Beside.token moved inside h, first _ _, first _ _⟩
    cases kind with
    | newline => exact ih.imp_right fun ⟨m, le, found⟩ => ⟨m, Nat.le_succ_of_le le, found⟩
    | symbol sign =>
      cases sign with
      | semicolon => exact ih.imp_right fun ⟨m, le, found⟩ => ⟨m, Nat.le_succ_of_le le, found⟩
      | _ => exact .inr stands
    | _ => exact .inr stands

/-- The second list holds the program of the first one, so many lines further down, and then what
else there is; or both have the same fault. -/
inductive Over (s : Seam) (lines : Nat) (more : Except SyntaxError Program) :
    Except SyntaxError Program → Except SyntaxError Program → Prop
  | ok (p : Program) : Over s lines more (.ok p) ((p.lower lines ++ ·) <$> more)
  | error {reason : Reason} {p p' : Position} : s.moves p p' →
    Over s lines more (.error ⟨reason, p⟩) (.error ⟨reason, p'⟩)

variable {lines : Nat} {more : Except SyntaxError Program}

theorem Over.cons {first : Statement} {line line' : Nat} {r r' : Except SyntaxError Program}
    (h : Over s lines more r r') (down : line' = line + lines) :
    Over s lines more (r >>= fun p => .ok ((line, first) :: p))
      (r' >>= fun p => .ok ((line', first) :: p)) := by
  cases h with
  | error moved => exact .error moved
  | ok p =>
    subst down
    cases more with
    | error e => exact .ok ((line, first) :: p)
    | ok q => exact .ok ((line, first) :: p)

/-- By induction on what bounds the number of the statements. The first list ends at the seam, and
behind it the second one holds what `more` says. -/
theorem statements_over (beyond : Nat)
    (down : ∀ p p', s.moves p p' → p'.line = p.line + lines)
    (ended : ∀ fuel, statements (fuel + 1) (⟨s.ends, s.here⟩ :: s.after) = .ok [])
    (goesOn : ∀ fuel, beyond ≤ fuel →
      statements (fuel + 1) (⟨s.ends, s.here'⟩ :: s.after') = more)
    {fuel fuel' : Nat} (h : Beside s n ts ts') (enough : n < fuel) (enough' : n + beyond < fuel') :
    Over s lines more (statements fuel ts) (statements fuel' ts') := by
  induction fuel generalizing n ts ts' fuel' with
  | zero => exact absurd enough (Nat.not_lt_zero n)
  | succ fuel ih =>
    cases fuel' with
    | zero => exact absurd enough' (Nat.not_lt_zero _)
    | succ fuel' =>
      rcases h.skipSeparators with ⟨left, right⟩ | ⟨m, le, h, first, first'⟩
      · rw [statements_skip fuel left, statements_skip fuel' right, ended, goesOn _ (by omega)]
        have nothing : Over s lines more (.ok []) _ := .ok []
        cases more <;> exact nothing
      · unfold statements
        simp only [first, first', Bool.false_eq_true, if_false]
        have place := down _ _ h.nextPosition
        have parsed := statement_keeps h
        generalize statement (skipSeparators ts) = r, statement (skipSeparators ts') = r' at parsed
        cases parsed with
        | error moved => exact .error moved
        | @ok a a' follow =>
          obtain ⟨_, rest⟩ := a
          obtain ⟨first, rest'⟩ := a'
          obtain ⟨rfl, k, closer, h⟩ := follow
          have ends := h.atStatementEnd
          dsimp only at h ends
          simp only [Bind.bind, Except.bind, ends]
          split
          · exact (ih h (by omega) (by omega)).cons place
          · have refused := h.unexpected .endOfStatement (R := fun (_ _ : Program) => False)
            generalize unexpected .endOfStatement rest = e,
              unexpected .endOfStatement rest' = e' at refused
            cases refused with
            | error moved => exact .error moved

end ScriptBridge.Syntax
