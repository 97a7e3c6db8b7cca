import ScriptBridge.Proofs.Lexing.Surroundings

/-!
# Where tokens stand

Every token stands at an offset of the source text, from which its line and column follow, and the
line ends that count are exactly those outside brackets and literals that no backslash continues. A
text that is refused is refused where the lexeme starts that cannot be read, or at its end if a
bracket is open there.
-/

namespace ScriptBridge.Syntax

/-! ### Offsets -/

/-- The place behind some characters: its line counts the line ends among them, and its column the
characters behind the last one. -/
def Position.behind (before : List Char) : Position :=
  ⟨1 + before.count '\n', 1 + (before.reverse.takeWhile (· != '\n')).length⟩

/-- The place of the character at an offset of a text. -/
def Position.ofOffset (text : List Char) (offset : Nat) : Position := behind (text.take offset)

/-- What surrounds the character at an offset of a text. -/
def surroundings (text : List Char) (offset : Nat) : Surroundings :=
  Surroundings.code.afterAll (text.take offset)

/-- A line end there ends a line: it is neither in a literal nor continued by a backslash. -/
def Surroundings.EndsLines (s : Surroundings) : Prop := s = .code ∨ s = .comment

/-- The character is part of a string literal. -/
def Surroundings.InLiteral (s : Surroundings) : Prop :=
  ∃ quote, s = .literal quote ∨ s = .escape quote

/-- A lexeme begins at the offset, or the text ends there. -/
inductive Begins (text : List Char) : Nat → Prop where
  | first : Begins text 0
  | next {offset n : Nat} {c : Char} {rest : List Char} {p : Piece} : Begins text offset →
      text.drop offset = c :: rest → piece c rest = .ok (p, n) → Begins text (offset + (n + 1))

/-- The piece that is written for a token. -/
def Kind.asPiece : Kind → Piece
  | .newline => .lineEnd
  | kind => .token kind

/-- The lexeme at the offset is a token of the kind. -/
def LexemeAt (text : List Char) (offset : Nat) (kind : Kind) : Prop :=
  Begins text offset ∧
    ∃ c rest n, text.drop offset = c :: rest ∧ piece c rest = .ok (kind.asPiece, n)

/-! ### Layouts -/

/-- A token of a text and the offset of its first character. -/
structure Placed where
  offset : Nat
  token : Token

/-- The bracket depth behind the tokens before an offset. -/
def depthBefore (placed : List Placed) (offset : Nat) : Nat :=
  depthAfterAll 0 ((placed.filter (·.offset < offset)).map (·.token.kind))

/-- The text is cut into lexemes up to an offset, and these are the tokens among them. -/
structure Layout (text : List Char) (offset : Nat) (placed : List Placed) : Prop where
  begins : Begins text offset
  increasing : placed.Pairwise (·.offset < ·.offset)
  inside : ∀ t ∈ placed, t.offset < offset
  lexemes : ∀ t ∈ placed, LexemeAt text t.offset t.token.kind
  positions : ∀ t ∈ placed, t.token.position = .ofOffset text t.offset
  lineEnds : ∀ t ∈ placed, t.token.kind = .newline →
    text[t.offset]? = some '\n' ∧ depthBefore placed t.offset = 0
  everyLineEnd : ∀ i < offset, text[i]? = some '\n' → (surroundings text i).EndsLines →
    depthBefore placed i = 0 → ∃ t ∈ placed, t.offset = i ∧ t.token.kind = .newline
  escaped : ∀ i < offset, text[i]? = some '\n' → (surroundings text i).InLiteral →
    ∃ j, i = j + 1 ∧ text[j]? = some '\\'

/-- The outcome of cutting a text into tokens is laid out: all tokens but the last two stand where
their lexemes begin, and an error stands where a lexeme begins that cannot be read, or at the end of
the text inside brackets. -/
def LaidOut (text : List Char) : Except SyntaxError (List Token) → Prop
  | .ok ts => ∃ placed, Layout text text.length placed ∧ depthBefore placed text.length = 0 ∧
      ts = placed.map (·.token) ++
        [⟨.newline, .ofOffset text text.length⟩, ⟨.endOfInput, .ofOffset text text.length⟩]
  | .error e => ∃ offset placed, Layout text offset placed ∧ e.position = .ofOffset text offset ∧
      (offset = text.length ∧ 0 < depthBefore placed offset ∧
          e.reason = .unexpectedEnd .closingBracket ∨
        ∃ c rest, text.drop offset = c :: rest ∧ piece c rest = .error e.reason)

variable {text cs rest : List Char} {offset depth i j n : Nat} {c quote : Char} {p : Piece}
  {kind : Kind} {placed added : List Placed}

theorem Position.behind_append (before : List Char) (c : Char) :
    behind (before ++ [c]) = (behind before).after c := by
  unfold behind after
  by_cases line : c = '\n'
  · subst line
    simp [Nat.add_assoc]
  · simp [line, Nat.add_assoc]

theorem Position.afterAll_behind (before cs : List Char) :
    (behind before).afterAll cs = behind (before ++ cs) := by
  induction cs generalizing before with
  | nil => rw [List.append_nil, afterAll_nil]
  | cons c rest ih =>
    rw [afterAll_cons, ← behind_append, ih, List.append_assoc, List.singleton_append]

theorem take_of_drop (cut : text.drop offset = c :: rest) :
    text.take (offset + (j + 1)) = text.take offset ++ c :: rest.take j := by
  rw [List.take_add, cut, List.take_succ_cons]

theorem left_of_drop (cut : text.drop offset = c :: rest) :
    text.drop (offset + (j + 1)) = rest.drop j := by
  rw [← List.drop_drop, cut, List.drop_succ_cons]

theorem Position.ofOffset_of_drop (cut : text.drop offset = c :: rest) :
    (ofOffset text offset).afterAll (c :: rest.take j) = ofOffset text (offset + (j + 1)) := by
  rw [ofOffset, afterAll_behind, ofOffset, take_of_drop cut]

theorem surroundings_of_drop (cut : text.drop offset = c :: rest) :
    surroundings text (offset + (j + 1)) =
      ((surroundings text offset).after c).afterAll (rest.take j) := by
  rw [surroundings, take_of_drop cut, Surroundings.afterAll_append, Surroundings.afterAll_cons]
  rfl

theorem getElem?_of_drop (cut : text.drop offset = cs) : text[offset + j]? = cs[j]? := by
  rw [← cut, List.getElem?_drop]

/-- In a string literal, only a backslash escapes. -/
theorem backslash_of_escape (character : text[i]? = some c)
    (h : surroundings text i = .escape quote) : ∃ j, i = j + 1 ∧ text[j]? = some '\\' := by
  cases i with
  | zero => cases h
  | succ j =>
    refine ⟨j, rfl, ?_⟩
    cases found : text[j]? with
    | none =>
      have ended := List.getElem?_eq_none_iff.mp found
      rw [List.getElem?_eq_none (by omega)] at character
      cases character
    | some e =>
      rw [surroundings, List.take_add_one, found, Surroundings.afterAll_append] at h
      rw [Surroundings.after_eq_escape h]

theorem Surroundings.IsEscape.not_endsLines {s : Surroundings} (escape : s.IsEscape) :
    ¬s.EndsLines := by
  rintro (rfl | rfl)
  · rcases escape with ⟨_, same⟩ | same <;> cases same
  · rcases escape with ⟨_, same⟩ | same <;> cases same

theorem Surroundings.IsEscape.eq_escape {s : Surroundings} (escape : s.IsEscape)
    (literal : s.InLiteral) : ∃ quote, s = .escape quote := by
  refine escape.resolve_right ?_
  rintro rfl
  rcases literal with ⟨_, same | same⟩ <;> cases same

theorem Surroundings.Ready.not_inLiteral {s : Surroundings} (ready : s.Ready cs) :
    ¬s.InLiteral := by
  rintro ⟨quote, rfl | rfl⟩
  · rcases ready with same | ⟨same, -⟩ <;> cases same
  · rcases ready with same | ⟨same, -⟩ <;> cases same

/-- A line end inside a piece stands behind a backslash. -/
theorem isEscape_inside (ready : (surroundings text offset).Ready (c :: rest))
    (cut : text.drop offset = c :: rest) (read : piece c rest = .ok (p, n)) (taken : j < n)
    (line : text[offset + (j + 1)]? = some '\n') :
    (surroundings text (offset + (j + 1))).IsEscape := by
  rw [getElem?_of_drop cut, List.getElem?_cons_succ] at line
  have there : (rest.take n)[j]? = some '\n' := by rw [List.getElem?_take_of_lt taken, line]
  have escape := (ready.piece read).1.isEscape there
  rwa [List.take_take, Nat.min_eq_left taken.le, ← surroundings_of_drop cut] at escape

/-! ### Depths -/

theorem depthBefore_append (later : ∀ t ∈ added, i ≤ t.offset) :
    depthBefore (placed ++ added) i = depthBefore placed i := by
  have none : added.filter (·.offset < i) = [] := by
    rw [List.filter_eq_nil_iff]
    intro t found
    simpa using later t found
  rw [depthBefore, List.filter_append, none, List.append_nil]
  rfl

theorem depthBefore_all (inside : ∀ t ∈ placed, t.offset < i) :
    depthBefore placed i = depthAfterAll 0 (placed.map (·.token.kind)) := by
  have all : placed.filter (·.offset < i) = placed :=
    List.filter_eq_self.mpr fun t found => decide_eq_true (inside t found)
  rw [depthBefore, all]

/-! ### One piece -/

/-- The token that a piece gives at a bracket depth. -/
def Piece.kind? (depth : Nat) : Piece → Option Kind
  | .blank => none
  | .lineEnd => if depth = 0 then some .newline else none
  | .token kind => some kind

/-- What the piece at the offset adds to a layout. -/
def Piece.lays (text : List Char) (offset depth : Nat) (p : Piece) : List Placed :=
  (p.kind? depth).toList.map fun kind => ⟨offset, kind, .ofOffset text offset⟩

theorem Piece.mem_lays {t : Placed} : t ∈ p.lays text offset depth ↔
    p.kind? depth = some t.token.kind ∧ t.offset = offset ∧
      t.token.position = .ofOffset text offset := by
  obtain ⟨o, kind, position⟩ := t
  unfold Piece.lays
  cases p.kind? depth with
  | none => simp
  | some k => simp [eq_comm, and_left_comm]

theorem Piece.pairwise_lays : (p.lays text offset depth).Pairwise (·.offset < ·.offset) := by
  unfold Piece.lays
  cases p.kind? depth with
  | none => exact .nil
  | some kind => exact List.pairwise_singleton _ _

/-- The tokens of a piece are those that it is written for, and a line end is one outside
brackets. -/
theorem Piece.kind?_eq_some (read : piece c rest = .ok (p, n)) (gives : p.kind? depth = some kind) :
    p = kind.asPiece ∧ (kind = .newline → c = '\n' ∧ depth = 0) := by
  cases piece_shape read with
  | space | continued | comment => cases gives
  | lineEnd line =>
    simp only [kind?] at gives
    split_ifs at gives with flat
    cases gives
    exact ⟨rfl, fun _ => ⟨line, flat⟩⟩
  | literal =>
    cases gives
    exact ⟨rfl, nofun⟩
  | quiet _ _ other =>
    cases gives
    refine ⟨?_, fun same => absurd same other⟩
    cases kind <;> first | rfl | exact absurd rfl other

/-- A text that is cut up to a piece is cut up to the end of the piece. -/
theorem Layout.next (layout : Layout text offset placed)
    (ready : (surroundings text offset).Ready (text.drop offset))
    (cut : text.drop offset = c :: rest) (read : piece c rest = .ok (p, n)) :
    Layout text (offset + (n + 1))
      (placed ++ p.lays text offset (depthBefore placed offset)) := by
  have new {t : Placed} (found : t ∈ p.lays text offset (depthBefore placed offset)) :=
    Piece.mem_lays.mp found
  have same {i : Nat} (before : i ≤ offset) :
      depthBefore (placed ++ p.lays text offset (depthBefore placed offset)) i =
        depthBefore placed i :=
    depthBefore_append fun t found => before.trans_eq (new found).2.1.symm
  rw [cut] at ready
  have first : text[offset]? = some c := getElem?_of_drop (j := 0) cut
  have position {i : Nat} (before : i < offset + (n + 1)) :
      i < offset ∨ i = offset ∨ ∃ j < n, i = offset + (j + 1) := by
    by_cases later : offset < i
    · exact .inr (.inr ⟨i - offset - 1, by omega, by omega⟩)
    · omega
  constructor
  case begins => exact .next layout.begins cut read
  case increasing =>
    refine List.pairwise_append.mpr ⟨layout.increasing, Piece.pairwise_lays, ?_⟩
    intro t old u found
    rw [(new found).2.1]
    exact layout.inside t old
  case inside =>
    intro t found
    rcases List.mem_append.mp found with old | found
    · exact (layout.inside t old).trans (by omega)
    · rw [(new found).2.1]
      omega
  case lexemes =>
    intro t found
    rcases List.mem_append.mp found with old | found
    · exact layout.lexemes t old
    · obtain ⟨gives, at_, -⟩ := new found
      rw [at_]
      exact ⟨layout.begins, c, rest, n, cut, by rw [read, (Piece.kind?_eq_some read gives).1]⟩
  case positions =>
    intro t found
    rcases List.mem_append.mp found with old | found
    · exact layout.positions t old
    · obtain ⟨-, at_, position⟩ := new found
      rw [at_, position]
  case lineEnds =>
    intro t found line
    rcases List.mem_append.mp found with old | found
    · rw [same (layout.inside t old).le]
      exact layout.lineEnds t old line
    · obtain ⟨gives, at_, -⟩ := new found
      obtain ⟨ends, flat⟩ := (Piece.kind?_eq_some read gives).2 line
      rw [at_, same (Nat.le_refl _), first, ends]
      exact ⟨rfl, flat⟩
  case everyLineEnd =>
    intro i inPiece line ends flat
    rcases position inPiece with old | rfl | ⟨j, taken, rfl⟩
    · rw [same old.le] at flat
      obtain ⟨t, found, at_⟩ := layout.everyLineEnd i old line ends flat
      exact ⟨t, List.mem_append_left _ found, at_⟩
    · rw [same (Nat.le_refl _)] at flat
      rw [first, Option.some.injEq] at line
      have shape : p = .lineEnd := (piece_lineEnd_iff read).mpr line
      refine ⟨⟨i, .newline, .ofOffset text i⟩, List.mem_append_right _ ?_, rfl, rfl⟩
      rw [Piece.mem_lays, shape, flat]
      exact ⟨rfl, rfl, rfl⟩
    · exact absurd ends (isEscape_inside ready cut read taken line).not_endsLines
  case escaped =>
    intro i inPiece line literal
    rcases position inPiece with old | rfl | ⟨j, taken, rfl⟩
    · exact layout.escaped i old line literal
    · exact absurd literal ready.not_inLiteral
    · obtain ⟨quote, escape⟩ := (isEscape_inside ready cut read taken line).eq_escape literal
      exact backslash_of_escape line escape

/-! ### Whole texts -/

theorem Layout.start (text : List Char) : Layout text 0 [] where
  begins := .first
  increasing := .nil
  inside := nofun
  lexemes := nofun
  positions := nofun
  lineEnds := nofun
  everyLineEnd := nofun
  escaped := nofun

/-- The reader between two pieces of a text. -/
def readerAt (text : List Char) (offset : Nat) (placed : List Placed) : Reader where
  depth := depthBefore placed offset
  here := .ofOffset text offset
  skip := 0
  done := (placed.map (·.token)).reverse

/-- The reader goes from one piece to the next. -/
theorem Layout.behind (layout : Layout text offset placed) (cut : text.drop offset = c :: rest)
    (read : piece c rest = .ok (p, n)) :
    (readerAt text offset placed).behind p (c :: rest.take n) =
      readerAt text (offset + (n + 1))
        (placed ++ p.lays text offset (depthBefore placed offset)) := by
  have here : (Position.ofOffset text offset).afterAll (c :: rest.take n) =
      .ofOffset text (offset + (n + 1)) := Position.ofOffset_of_drop cut
  have inside : ∀ t ∈ placed ++ p.lays text offset (depthBefore placed offset),
      t.offset < offset + (n + 1) := by
    intro t found
    rcases List.mem_append.mp found with old | found
    · exact (layout.inside t old).trans (by omega)
    · rw [(Piece.mem_lays.mp found).2.1]
      omega
  have kinds : (p.lays text offset (depthBefore placed offset)).map (·.token.kind) =
      (p.kind? (depthBefore placed offset)).toList := by
    simp [Piece.lays, Function.comp_def]
  have depth : depthBefore (placed ++ p.lays text offset (depthBefore placed offset))
      (offset + (n + 1)) =
        depthAfterAll (depthBefore placed offset) (p.kind? (depthBefore placed offset)).toList := by
    rw [depthBefore_all inside, List.map_append, depthAfterAll_append, kinds,
      depthBefore_all layout.inside]
  have done : ((placed ++ p.lays text offset (depthBefore placed offset)).map (·.token)).reverse =
      (p.kind? (depthBefore placed offset)).toList.map (⟨·, .ofOffset text offset⟩) ++
        (placed.map (·.token)).reverse := by
    cases given : p.kind? (depthBefore placed offset) <;> simp [Piece.lays, given]
  simp only [readerAt, Reader.behind, depth, done, here]
  cases p with
  | blank | token => rfl
  | lineEnd =>
    by_cases flat : depthBefore placed offset = 0
    · simp only [flat]
      rfl
    · simp only [Piece.kind?, beq_iff_eq, flat, if_false]
      rfl

/-- By induction on the length of what is left of the text, piece by piece. -/
theorem Layout.scan (layout : Layout text offset placed)
    (ready : (surroundings text offset).Ready (text.drop offset)) (within : offset ≤ text.length) :
    LaidOut text ((readerAt text offset placed).scan (text.drop offset)) := by
  induction left : text.length - offset using Nat.strong_induction_on
    generalizing offset placed with
  | _ left ih =>
    cases cut : text.drop offset with
    | nil =>
      obtain rfl : offset = text.length := within.antisymm (List.drop_eq_nil_iff.mp cut)
      by_cases flat : depthBefore placed text.length = 0
      · rw [readerAt, flat]
        exact ⟨placed, layout, flat, by simp⟩
      · have deep : (depthBefore placed text.length == 0) = false := beq_false_of_ne flat
        rw [readerAt, Reader.scan, scanFrom, deep]
        exact ⟨text.length, placed, layout, rfl, .inl ⟨rfl, Nat.pos_of_ne_zero flat, rfl⟩⟩
    | cons c rest =>
      cases read : piece c rest with
      | error reason =>
        rw [readerAt, Reader.scan, scanFrom, read]
        exact ⟨offset, placed, layout, rfl, .inr ⟨c, rest, cut, read⟩⟩
      | ok found =>
        obtain ⟨p, n⟩ := found
        have taken := piece_taken read
        have room := congrArg List.length cut
        simp only [List.length_drop, List.length_cons] at room
        have readyThere : (surroundings text (offset + (n + 1))).Ready
            (text.drop (offset + (n + 1))) := by
          rw [cut] at ready
          rw [surroundings_of_drop cut, left_of_drop cut]
          exact (ready.piece read).2
        rw [Reader.scan_piece rfl read, layout.behind cut read, ← left_of_drop cut]
        exact ih _ (by omega) (layout.next ready cut read) readyThere (by omega) rfl

/-- Tokens and errors stand where their lexemes begin, by line and column, and the line ends among
the tokens are those that end a line. -/
theorem tokens_laid_out (source : String) : LaidOut source.toList (tokens source) :=
  (Layout.start source.toList).scan (.inl rfl) (Nat.zero_le _)

/-- The line end in the brackets and the one behind the backslash are no tokens. -/
example : (tokens "a\n(\n) \\\n;").toOption.map
    (·.map fun t => (t.position.line, t.position.column)) =
      some [(1, 1), (1, 2), (2, 1), (3, 1), (4, 1), (4, 2), (4, 2)] := by rfl

end ScriptBridge.Syntax
