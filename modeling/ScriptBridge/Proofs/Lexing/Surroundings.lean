import ScriptBridge.Proofs.Lexing.Texts

/-!
# What surrounds a character

A source text seen character by character: a character stands in code, in a comment, in a string
literal, or behind a backslash in code or in a literal. The pieces of a text keep to this: each
begins in code or at the line end behind a comment, and a line end inside a piece stands behind a
backslash.
-/

namespace ScriptBridge.Syntax

/-- What surrounds a character of a source text. -/
inductive Surroundings where
  | code
  | comment
  | literal (quote : Char)
  /-- Behind a backslash in a string literal. -/
  | escape (quote : Char)
  /-- Behind a backslash in code. -/
  | continuation
deriving DecidableEq

namespace Surroundings

/-- What surrounds the character behind another one. -/
def after : Surroundings → Char → Surroundings
  | code, c =>
    if c == '#' then comment
    else if c == '"' || c == '\'' then literal c
    else if c == '\\' then continuation
    else code
  | comment, c => if c == '\n' then code else comment
  | literal quote, c =>
    if c == quote then code else if c == '\\' then escape quote else literal quote
  | escape quote, _ => literal quote
  | continuation, _ => code

/-- What surrounds the character behind several others. -/
def afterAll (s : Surroundings) (cs : List Char) : Surroundings := cs.foldl after s

/-- Behind a backslash, where a line end does not end the line. -/
def IsEscape (s : Surroundings) : Prop := (∃ quote, s = escape quote) ∨ s = continuation

/-- Every line end among the characters stands behind a backslash. -/
def Covers : Surroundings → List Char → Prop
  | _, [] => True
  | s, c :: rest => (c = '\n' → s.IsEscape) ∧ (s.after c).Covers rest

/-- A piece may begin before these characters: in code, or at the end of a comment. -/
def Ready (s : Surroundings) (ahead : List Char) : Prop :=
  s = code ∨ s = comment ∧ ∀ c ∈ ahead.head?, c = '\n'

end Surroundings

/-- The character stands for itself: it begins no comment, literal or continuation and ends no
line. -/
def isQuiet (c : Char) : Bool :=
  c != '\n' && c != '#' && c != '"' && c != '\'' && c != '\\'

variable {c quote : Char} {cs rest : List Char} {s : Surroundings} {p : Piece} {n j : Nat}
  {kind : Kind} {text : String}

namespace Surroundings

@[simp] theorem afterAll_nil (s : Surroundings) : s.afterAll [] = s := rfl

@[simp] theorem afterAll_cons (s : Surroundings) (c : Char) (cs : List Char) :
    s.afterAll (c :: cs) = (s.after c).afterAll cs := rfl

theorem afterAll_append (s : Surroundings) (cs ds : List Char) :
    s.afterAll (cs ++ ds) = (s.afterAll cs).afterAll ds := List.foldl_append

/-- By induction on the characters before the line end. -/
theorem Covers.isEscape (covers : s.Covers cs) (line : cs[j]? = some '\n') :
    (s.afterAll (cs.take j)).IsEscape := by
  induction cs generalizing s j with
  | nil => cases line
  | cons c rest ih =>
    cases j with
    | zero =>
      rw [List.getElem?_cons_zero, Option.some.injEq] at line
      exact covers.1 line
    | succ j =>
      rw [List.getElem?_cons_succ] at line
      exact ih covers.2 line

/-- A backslash stands before every character that it escapes. -/
theorem after_eq_escape (h : s.after c = escape quote) : c = '\\' := by
  cases s with
  | literal q =>
    simp only [after] at h
    split_ifs at h with closes backslash
    exact beq_iff_eq.mp backslash
  | code =>
    simp only [after] at h
    split_ifs at h
  | comment =>
    simp only [after] at h
    split_ifs at h
  | escape | continuation => cases h

theorem code_after_quiet (quiet : isQuiet c = true) : code.after c = code := by
  simp only [isQuiet, bne, Bool.and_eq_true, Bool.not_eq_true'] at quiet
  obtain ⟨⟨⟨⟨-, comment⟩, double⟩, single⟩, backslash⟩ := quiet
  simp only [after, comment, double, single, backslash, Bool.or_self, Bool.false_eq_true, if_false]

/-- Characters that stand for themselves are code behind code. -/
theorem quiet_run (quiet : cs.all isQuiet = true) : code.Covers cs ∧ code.afterAll cs = code := by
  induction cs with
  | nil => exact ⟨trivial, rfl⟩
  | cons c rest ih =>
    rw [List.all_cons, Bool.and_eq_true] at quiet
    obtain ⟨covers, ends⟩ := ih quiet.2
    have same := code_after_quiet quiet.1
    have noLine : c ≠ '\n' := by
      rintro rfl
      cases quiet.1
    refine ⟨⟨fun line => absurd line noLine, ?_⟩, ?_⟩
    · rwa [same]
    · rwa [afterAll_cons, same]

/-- A comment goes on to the end of its line. -/
theorem comment_run (noLine : '\n' ∉ cs) : comment.Covers cs ∧ comment.afterAll cs = comment := by
  induction cs with
  | nil => exact ⟨trivial, rfl⟩
  | cons c rest ih =>
    obtain ⟨first, others⟩ := not_or.mp (List.mem_cons.not.mp noLine)
    obtain ⟨covers, ends⟩ := ih others
    have same : comment.after c = comment := if_neg (by simpa using Ne.symm first)
    refine ⟨⟨fun line => absurd line.symm first, ?_⟩, ?_⟩
    · rwa [same]
    · rwa [afterAll_cons, same]

/-- A literal is left at its closing quote, and a line end in it stands behind a backslash. -/
theorem literal_run {done : List Char} {taken : Nat}
    (read : quoted quote done taken cs = .ok (text, n)) :
    (literal quote).Covers (cs.take (n - taken)) ∧
      (literal quote).afterAll (cs.take (n - taken)) = code := by
  fun_induction quoted quote done taken cs with
  | case1 | case2 | case4 => cases read
  | case3 done taken c rest line closes =>
    cases read
    have same : (literal quote).after c = code := if_pos closes
    have noLine : c ≠ '\n' := by simpa using line
    rw [Nat.add_sub_cancel_left, List.take_succ_cons, List.take_zero]
    exact ⟨⟨fun line => absurd line noLine, trivial⟩, same⟩
  | case5 done taken c line open_ escapes e more ih =>
    have longer := (quoted_taken read).1
    have taken_two : n - taken = n - (taken + 2) + 2 := by omega
    have first : (literal quote).after c = escape quote := by
      simp only [after, open_, escapes, Bool.false_eq_true, if_false, if_true]
    have second : (escape quote).after e = literal quote := rfl
    have noLine : c ≠ '\n' := by simpa using line
    obtain ⟨covers, ends⟩ := ih read
    rw [taken_two, List.take_succ_cons, List.take_succ_cons, afterAll_cons, afterAll_cons, first,
      second]
    refine ⟨⟨fun line => absurd line noLine, ?_, ?_⟩, ends⟩
    · exact fun _ => .inl ⟨quote, first⟩
    · rwa [first, second]
  | case6 done taken c rest line open_ plain ih =>
    have longer := (quoted_taken read).1
    have taken_one : n - taken = n - (taken + 1) + 1 := by omega
    have same : (literal quote).after c = literal quote := by
      simp only [after, open_, plain, Bool.false_eq_true, if_false]
    have noLine : c ≠ '\n' := by simpa using line
    obtain ⟨covers, ends⟩ := ih read
    rw [taken_one, List.take_succ_cons, afterAll_cons, same]
    refine ⟨⟨fun line => absurd line noLine, ?_⟩, ends⟩
    rwa [same]

end Surroundings

/-! ### The characters of a piece -/

/-- The characters of a class that has none of the others stand for themselves. -/
theorem isQuiet_of_class {p : Char → Bool} (h : p c = true)
    (none : p '\n' = false ∧ p '#' = false ∧ p '"' = false ∧ p '\'' = false ∧ p '\\' = false) :
    isQuiet c = true := by
  obtain ⟨line, comment, double, single, backslash⟩ := none
  have other {m : Char} (no : p m = false) := beq_false_of_class h no
  simp only [isQuiet, bne, other line, other comment, other double, other single, other backslash,
    Bool.not_false, Bool.and_self]

theorem isQuiet_of_isDigit (h : c.isDigit = true) : isQuiet c = true :=
  isQuiet_of_class h ⟨rfl, rfl, rfl, rfl, rfl⟩

theorem isQuiet_of_continuesName (h : continuesName c = true) : isQuiet c = true :=
  isQuiet_of_class h ⟨rfl, rfl, rfl, rfl, rfl⟩

theorem isQuiet_of_startsName (h : startsName c = true) : isQuiet c = true :=
  isQuiet_of_class h ⟨rfl, rfl, rfl, rfl, rfl⟩

/-- A number takes digits, underscores, points, exponent marks and their signs. -/
theorem numeral_quiet (cs : List Char) : ∀ m : Numeral,
    ∃ k, (numeral m cs).length = m.length + k ∧ (cs.take k).all isQuiet = true := by
  induction cs with
  | nil => exact fun m => ⟨0, rfl, rfl⟩
  | cons c rest ih =>
    intro m
    have further (m' : Numeral) (one : m'.length = m.length + 1) (quiet : isQuiet c = true) :
        ∃ k, (numeral m' rest).length = m.length + k ∧ ((c :: rest).take k).all isQuiet = true := by
      obtain ⟨k, length, others⟩ := ih m'
      refine ⟨k + 1, by omega, ?_⟩
      rw [List.take_succ_cons, List.all_cons, quiet, others, Bool.and_self]
    unfold numeral
    split_ifs with digit underscore point mark
    · refine further _ rfl ?_
      simp only [Bool.or_eq_true, Bool.and_eq_true, beq_iff_eq] at digit
      rcases digit with digit | ⟨-, rfl | rfl⟩
      · exact isQuiet_of_isDigit digit
      · rfl
      · rfl
    · obtain rfl := beq_iff_eq.mp underscore
      exact further _ rfl rfl
    · simp only [Bool.and_eq_true, beq_iff_eq] at point
      obtain ⟨⟨rfl, -⟩, -⟩ := point
      exact further _ rfl rfl
    · simp only [Bool.or_eq_true, Bool.and_eq_true, beq_iff_eq] at mark
      obtain ⟨rfl | rfl, -⟩ := mark
      · exact further _ rfl rfl
      · exact further _ rfl rfl
    · exact ⟨0, rfl, rfl⟩

theorem number_quiet (read : number cs = .ok (kind, n)) :
    (cs.take n).all isQuiet = true ∧ kind ≠ .newline := by
  obtain ⟨k, length, quiet⟩ := numeral_quiet cs {}
  have whole : (numeral {} cs).length = k := length.trans (Nat.zero_add k)
  simp only [number, whole] at read
  -- a long has one more character, its mark
  have marked (m : Char) (more : List Char) (mark : isQuiet m = true)
      (rest : cs.drop k = m :: more) : (cs.take (k + 1)).all isQuiet = true := by
    rw [List.take_add, rest, List.all_append, quiet]
    simpa using mark
  split at read
  · split at read <;> cases read
    exact ⟨quiet, by rintro ⟨⟩⟩
  · split at read
    · cases read
    · split at read <;> cases read
      · exact ⟨marked 'L' _ rfl ‹_›, by rintro ⟨⟩⟩
      · exact ⟨marked 'l' _ rfl ‹_›, by rintro ⟨⟩⟩
      · exact ⟨quiet, by rintro ⟨⟩⟩

theorem symbol?_quiet {sign : Symbol} (read : symbol? c rest = some (sign, n)) :
    isQuiet c = true ∧ (rest.take n).all isQuiet = true := by
  unfold symbol? at read
  dsimp only at read
  split at read <;> first | (cases read; exact ⟨rfl, rfl⟩) | skip
  all_goals first | (split at read <;> cases read <;> exact ⟨rfl, rfl⟩) | skip
  cases read

theorem take_length_takeWhile (p : Char → Bool) (cs : List Char) :
    cs.take (cs.takeWhile p).length = cs.takeWhile p :=
  (List.prefix_iff_eq_take.mp (List.takeWhile_prefix p)).symm

/-- What a piece can be. -/
inductive PieceShape (c : Char) (rest : List Char) : Piece → Nat → Prop where
  | space : c = ' ' ∨ c = '\t' ∨ c = '\r' → PieceShape c rest .blank 0
  | continued : c = '\\' → rest.head? = some '\n' → PieceShape c rest .blank 1
  | comment : c = '#' → PieceShape c rest .blank (rest.takeWhile (· != '\n')).length
  | lineEnd : c = '\n' → PieceShape c rest .lineEnd 0
  | literal {text : String} {n : Nat} : c = '"' ∨ c = '\'' → quoted c [] 0 rest = .ok (text, n) →
      PieceShape c rest (.token (.text text)) n
  | quiet {kind : Kind} {n : Nat} : isQuiet c = true → (rest.take n).all isQuiet = true →
      kind ≠ .newline → PieceShape c rest (.token kind) n

theorem piece_shape (read : piece c rest = .ok (p, n)) : PieceShape c rest p n := by
  unfold piece at read
  split_ifs at read with space continued comment lineEnd quote number_ name
  · cases read
    exact .space (by simpa [or_assoc] using space)
  · cases read
    simp only [Bool.and_eq_true, beq_iff_eq] at continued
    exact .continued continued.1 continued.2
  · cases read
    exact .comment (beq_iff_eq.mp comment)
  · cases read
    exact .lineEnd (beq_iff_eq.mp lineEnd)
  · cases literal : quoted c [] 0 rest with
    | error reason =>
      rw [literal] at read
      cases read
    | ok r =>
      rw [literal] at read
      cases read
      exact .literal (by simpa using quote) literal
  · cases digits : number (c :: rest) with
    | error reason =>
      rw [digits] at read
      cases read
    | ok r =>
      obtain ⟨kind, length⟩ := r
      rw [digits] at read
      cases read
      obtain ⟨quiet, other⟩ := number_quiet digits
      have first : isQuiet c = true := by
        simp only [startsNumber, Bool.or_eq_true, Bool.and_eq_true, beq_iff_eq] at number_
        rcases number_ with digit | ⟨rfl, -⟩
        · exact isQuiet_of_isDigit digit
        · rfl
      cases length with
      | zero => exact .quiet first rfl other
      | succ length =>
        rw [List.take_succ_cons, List.all_cons, Bool.and_eq_true] at quiet
        exact .quiet first quiet.2 other
  · cases read
    refine .quiet (isQuiet_of_startsName name) ?_ (by unfold word; split <;> rintro ⟨⟩)
    rw [take_length_takeWhile]
    exact List.all_eq_true.mpr fun e found =>
      isQuiet_of_continuesName (List.mem_takeWhile_imp found)
  · cases sign : symbol? c rest with
    | none =>
      rw [sign] at read
      cases read
    | some r =>
      rw [sign] at read
      cases read
      obtain ⟨first, others⟩ := symbol?_quiet sign
      exact .quiet first others (by rintro ⟨⟩)

/-- A line end is a piece of its own. -/
theorem piece_lineEnd_iff (read : piece c rest = .ok (p, n)) : p = .lineEnd ↔ c = '\n' := by
  cases piece_shape read with
  | lineEnd line => exact iff_of_true rfl line
  | space shape => exact iff_of_false nofun (by rcases shape with rfl | rfl | rfl <;> decide)
  | continued shape => exact iff_of_false nofun (by rw [shape]; decide)
  | comment shape => exact iff_of_false nofun (by rw [shape]; decide)
  | literal shape => exact iff_of_false nofun (by rcases shape with rfl | rfl <;> decide)
  | quiet shape =>
    refine iff_of_false nofun ?_
    rintro rfl
    cases shape

/-- The characters of a piece behind its first one cover their line ends, and a piece may begin
behind them. -/
theorem Surroundings.Ready.piece (ready : s.Ready (c :: rest)) (read : piece c rest = .ok (p, n)) :
    (s.after c).Covers (rest.take n) ∧
      ((s.after c).afterAll (rest.take n)).Ready (rest.drop n) := by
  -- only a line end begins behind a comment
  have inCode (other : c ≠ '\n') : s = .code :=
    ready.resolve_right fun ⟨_, line⟩ => other (line c rfl)
  cases piece_shape read with
  | space shape =>
    obtain rfl := inCode (by rcases shape with rfl | rfl | rfl <;> decide)
    have same : code.after c = .code := by rcases shape with rfl | rfl | rfl <;> rfl
    exact ⟨trivial, .inl same⟩
  | continued shape line =>
    subst shape
    obtain rfl := inCode (by decide)
    obtain ⟨more, rfl⟩ := List.head?_eq_some_iff.mp line
    exact ⟨⟨fun _ => .inr rfl, trivial⟩, .inl rfl⟩
  | comment shape =>
    subst shape
    obtain rfl := inCode (by decide)
    have behind : rest.drop (rest.takeWhile (· != '\n')).length = rest.dropWhile (· != '\n') :=
      calc rest.drop (rest.takeWhile (· != '\n')).length
        _ = (rest.takeWhile (· != '\n') ++ rest.dropWhile (· != '\n')).drop
            (rest.takeWhile (· != '\n')).length := by rw [List.takeWhile_append_dropWhile]
        _ = rest.dropWhile (· != '\n') := List.drop_left
    have noLine : '\n' ∉ rest.takeWhile (· != '\n') := fun found =>
      absurd (List.mem_takeWhile_imp found) (by decide)
    obtain ⟨covers, ends⟩ := comment_run noLine
    rw [take_length_takeWhile, behind]
    refine ⟨covers, .inr ⟨ends, fun e first => ?_⟩⟩
    have stops := List.head?_dropWhile_not (· != '\n') rest
    rw [Option.mem_def.mp first] at stops
    simpa using stops
  | lineEnd shape =>
    subst shape
    have same : s.after '\n' = .code := by
      rcases ready with rfl | ⟨rfl, -⟩ <;> rfl
    exact ⟨trivial, .inl same⟩
  | literal shape literal =>
    obtain rfl := inCode (by rcases shape with rfl | rfl <;> decide)
    have opens : code.after c = .literal c := by rcases shape with rfl | rfl <;> rfl
    obtain ⟨covers, ends⟩ := literal_run literal
    rw [Nat.sub_zero] at covers ends
    rw [opens, ends]
    exact ⟨covers, .inl rfl⟩
  | quiet shape others =>
    obtain rfl := inCode (by rintro rfl; cases shape)
    obtain ⟨covers, ends⟩ := quiet_run others
    rw [code_after_quiet shape, ends]
    exact ⟨covers, .inl rfl⟩

end ScriptBridge.Syntax
