import Mathlib.Data.List.TakeWhile
import ScriptBridge.Syntax.Source

/-!
# Reading over the end of a line

How the reader of source texts comes from one character to the next, and what it makes of a text
that stands before the end of a line. A piece ends there at the latest, unless it is a string
literal or the backslash that continues the line; so a text that is read on its own is read in the
same way when a line end and anything else follow it.
-/

namespace ScriptBridge.Syntax

/-! ### Places further down -/

/-- The place so many lines further down. -/
def Position.lower (lines : Nat) (p : Position) : Position := ⟨p.line + lines, p.column⟩

def Token.lower (lines : Nat) (t : Token) : Token := ⟨t.kind, t.position.lower lines⟩

def SyntaxError.lower (lines : Nat) (e : SyntaxError) : SyntaxError :=
  ⟨e.reason, e.position.lower lines⟩

theorem Position.lower_after (lines : Nat) (p : Position) (c : Char) :
    (p.lower lines).after c = (p.after c).lower lines := by
  unfold after lower
  split <;> simp only [Nat.add_right_comm]

theorem Position.afterAll_line (cs : List Char) :
    ∀ p : Position, (p.afterAll cs).line = p.line + cs.count '\n' := by
  induction cs with
  | nil => exact fun p => rfl
  | cons c rest ih =>
    intro p
    rw [afterAll_cons, ih, after, List.count_cons]
    split <;> simp only [] <;> omega

/-- Behind a line end that follows a text, everything starts so many lines further down. -/
theorem Position.start_after_line (cs : List Char) :
    (start.afterAll cs).after '\n' = start.lower (cs.count '\n' + 1) := by
  have line : (start.afterAll cs).line = 1 + cs.count '\n' := afterAll_line cs start
  unfold after lower
  rw [if_pos (beq_self_eq_true _), line]
  exact congrArg (Position.mk · 1) (Nat.add_assoc _ _ _)

/-! ### Pieces before a line end -/

variable {c e quote : Char} {done rest more : List Char} {taken n : Nat} {text : String} {p : Piece}

/-- The character ends a line, or it stands before the one that does. No number, name or operator
goes over it. -/
def endsWords (c : Char) : Bool := c == '\n' || c == '\r'

theorem endsWords_cases (h : endsWords e = true) : e = '\n' ∨ e = '\r' := by
  simpa [endsWords] using h

theorem takeWhile_stop {goesOn : Char → Bool} (h : goesOn e = false) (cs : List Char) :
    (cs ++ e :: more).takeWhile goesOn = cs.takeWhile goesOn := by
  induction cs with
  | nil => simp [h]
  | cons c rest ih => simp only [List.cons_append, List.takeWhile_cons, ih]

theorem quoted_taken {cs done : List Char} {taken : Nat}
    (h : quoted quote done taken cs = .ok (text, n)) : taken < n ∧ n ≤ taken + cs.length := by
  fun_induction quoted quote done taken cs with
  | case1 | case2 | case4 => cases h
  | case3 done taken c rest =>
    cases h
    simp
  | case5 done taken c _ _ _ e more ih =>
    have := ih h
    simp only [List.length_cons]
    omega
  | case6 done taken c rest _ _ _ ih =>
    have := ih h
    simp only [List.length_cons]
    omega

/-- A string literal is closed by the first quote, whatever follows. -/
theorem quoted_append {cs done : List Char} {taken : Nat}
    (h : quoted quote done taken cs = .ok (text, n)) :
    quoted quote done taken (cs ++ more) = .ok (text, n) := by
  fun_induction quoted quote done taken cs with
  | case1 | case2 | case4 => cases h
  | case3 done taken c rest other closes =>
    rw [List.cons_append, quoted.eq_def]
    simp only [other, closes, if_true, if_false, Bool.false_eq_true]
    exact h
  | case5 done taken c other open_ escapes e rest ih =>
    rw [List.cons_append, List.cons_append, quoted.eq_def]
    simp only [other, open_, escapes, if_true, if_false, Bool.false_eq_true]
    exact ih h
  | case6 done taken c rest other open_ plain ih =>
    rw [List.cons_append, quoted.eq_def]
    simp only [other, open_, plain, if_false, Bool.false_eq_true]
    exact ih h

/-- What comes behind the closing quote of a string literal does not matter. -/
theorem quoted_of_append {cs done : List Char} {taken : Nat}
    (h : quoted quote done taken (cs ++ more) = .ok (text, n)) (inside : n ≤ taken + cs.length) :
    quoted quote done taken cs = .ok (text, n) := by
  fun_induction quoted quote done taken cs with
  | case1 done taken =>
    have := (quoted_taken h).1
    simp only [List.length_nil] at inside
    omega
  | case2 done taken c rest ends =>
    rw [List.cons_append, quoted.eq_def] at h
    simp only [ends, if_true] at h
    cases h
  | case3 done taken c rest other closes =>
    rw [List.cons_append, quoted.eq_def] at h
    simpa only [other, closes, if_true, if_false, Bool.false_eq_true] using h
  | case4 done taken c other open_ escapes =>
    rw [List.cons_append, List.nil_append, quoted.eq_def] at h
    simp only [other, open_, escapes, if_true, if_false, Bool.false_eq_true] at h
    cases more with
    | nil => cases h
    | cons e rest =>
      have := (quoted_taken h).1
      simp only [List.length_cons, List.length_nil] at inside
      omega
  | case5 done taken c other open_ escapes e rest ih =>
    rw [List.cons_append, List.cons_append, quoted.eq_def] at h
    simp only [other, open_, escapes, if_true, if_false, Bool.false_eq_true] at h
    simp only [List.length_cons] at inside
    exact ih h (by omega)
  | case6 done taken c rest other open_ plain ih =>
    rw [List.cons_append, quoted.eq_def] at h
    simp only [other, open_, plain, if_false, Bool.false_eq_true] at h
    simp only [List.length_cons] at inside
    exact ih h (by omega)

/-- A number ends at the end of its line. -/
theorem numeral_stop (h : endsWords e = true) (cs : List Char) :
    ∀ n : Numeral, numeral n (cs ++ e :: more) = numeral n cs := by
  have stops (n : Numeral) : numeral n (e :: more) = n := by
    rcases endsWords_cases h with rfl | rfl <;> simp [numeral]
  induction cs with
  | nil =>
    intro n
    rw [List.nil_append, stops]
    rfl
  | cons c rest ih =>
    intro n
    have point : pointContinues (rest ++ e :: more) = pointContinues rest := by
      cases rest with
      | nil => rcases endsWords_cases h with rfl | rfl <;> rfl
      | cons d rest => rfl
    simp only [List.cons_append, numeral, point, ih]

theorem numeral_length (cs : List Char) :
    ∀ n : Numeral, (numeral n cs).length ≤ n.length + cs.length := by
  induction cs with
  | nil => exact fun n => Nat.le_refl _
  | cons c rest ih =>
    intro n
    have further (m : Numeral) (h : m.length = n.length + 1) :
        (numeral m rest).length ≤ n.length + (rest.length + 1) := by
      have := ih m
      omega
    unfold numeral
    split_ifs
    · exact further _ rfl
    · exact further _ rfl
    · exact further _ rfl
    · exact further _ rfl
    · simp

theorem number_stop (h : endsWords e = true) (cs : List Char) :
    number (cs ++ e :: more) = number cs := by
  have within := numeral_length cs {}
  have length : ({} : Numeral).length = 0 := rfl
  unfold number
  simp only [numeral_stop h]
  split
  · rfl
  · rw [List.drop_append_of_le_length (by omega)]
    cases (cs.drop (numeral {} cs).length) with
    | nil => rcases endsWords_cases h with rfl | rfl <;> rfl
    | cons d rest =>
      cases Decimal.readInt64? (numeral {} cs).literal.reverse with
      | none => rfl
      | some value =>
        -- only the first of the characters that follow is looked at
        by_cases upper : d = 'L'
        · subst upper
          rfl
        by_cases lower : d = 'l'
        · subst lower
          rfl
        simp [upper, lower]

theorem number_length {cs : List Char} {kind : Kind} (h : number cs = .ok (kind, n)) :
    n ≤ cs.length := by
  have within := numeral_length cs {}
  have length : ({} : Numeral).length = 0 := rfl
  simp only [number] at h
  split at h
  · split at h <;> cases h
    omega
  · split at h
    · cases h
    · split at h <;> cases h
      · rename_i rest marked
        have := congrArg List.length marked
        simp only [List.length_drop, List.length_cons] at this
        omega
      · rename_i rest marked
        have := congrArg List.length marked
        simp only [List.length_drop, List.length_cons] at this
        omega
      · omega

theorem startsNumber_stop (h : endsWords e = true) :
    startsNumber c (rest ++ e :: more) = startsNumber c rest := by
  rcases endsWords_cases h with rfl | rfl <;> cases rest <;> rfl

theorem symbol?_stop (h : endsWords e = true) :
    symbol? c (rest ++ e :: more) = symbol? c rest := by
  cases rest with
  | nil => rcases endsWords_cases h with rfl | rfl <;> rfl
  | cons d rest =>
    by_cases equal : d = '='
    · subst equal
      rfl
    · simp [symbol?, equal]

theorem symbol?_taken {sign : Symbol} (h : symbol? c rest = some (sign, taken)) :
    taken ≤ rest.length := by
  unfold symbol? at h
  dsimp only at h
  split at h <;> first | (cases h; exact Nat.zero_le _) | skip
  all_goals first | (split at h <;> cases h <;> simp) | skip
  cases h

/-- The piece is the backslash that continues a line, or a string literal. -/
def crossesLines (c : Char) : Bool := c == '\\' || c == '"' || c == '\''

/-- Apart from string literals, backslashes and comments, what stands behind the end of a line, or
behind what stands before it, has no say in what stands before that. -/
theorem piece_stop (h : crossesLines c = false) (comment : e = '\n' ∨ c ≠ '#')
    (stop : endsWords e = true) : piece c (rest ++ e :: more) = piece c rest := by
  by_cases marked : c = '#'
  · subst marked
    obtain rfl := comment.resolve_right (by decide)
    have same : (rest ++ '\n' :: more).takeWhile (· != '\n') = rest.takeWhile (· != '\n') :=
      takeWhile_stop (by decide) rest
    exact congrArg (fun passed : List Char => Except.ok (Piece.blank, passed.length)) same
  · simp only [crossesLines, Bool.or_eq_false_iff] at h
    obtain ⟨⟨backslash, double⟩, single⟩ := h
    have name : (rest ++ e :: more).takeWhile continuesName = rest.takeWhile continuesName :=
      takeWhile_stop (by rcases endsWords_cases stop with rfl | rfl <;> decide) rest
    have digits : number (c :: (rest ++ e :: more)) = number (c :: rest) :=
      number_stop stop (c :: rest)
    simp only [piece, backslash, double, single, beq_false_of_ne marked, Bool.false_and,
      Bool.false_or, Bool.false_eq_true, if_false, name, digits, startsNumber_stop stop,
      symbol?_stop stop]

/-- Apart from string literals and backslashes, what stands behind the end of a line has no say in
what stands before it. -/
theorem piece_line (h : crossesLines c = false) :
    piece c (rest ++ '\n' :: more) = piece c rest := piece_stop h (.inl rfl) (by decide)

theorem piece_backslash :
    piece '\\' rest =
      if rest.head? == some '\n' then .ok (.blank, 1) else .error (.strayCharacter '\\') := by
  unfold piece
  by_cases continues : (rest.head? == some '\n') = true
  · simp [continues]
  · simp only [continues]
    rfl

theorem piece_quote (h : (c == '"' || c == '\'') = true) :
    piece c rest =
      (quoted c [] 0 rest).map fun (value, taken) => (.token (.text value), taken) := by
  rcases (Bool.or_eq_true _ _).mp h with double | single
  · obtain rfl := beq_iff_eq.mp double
    rfl
  · obtain rfl := beq_iff_eq.mp single
    rfl

/-- A piece is part of the text. -/
theorem piece_taken (h : piece c rest = .ok (p, n)) : n ≤ rest.length := by
  unfold piece at h
  split_ifs at h with space continued comment lineEnd quote number_ name
  · cases h
    exact Nat.zero_le _
  · cases h
    cases rest with
    | nil => simp at continued
    | cons => simp
  · cases h
    exact (List.takeWhile_prefix _).length_le
  · cases h
    exact Nat.zero_le _
  · cases read : quoted c [] 0 rest with
    | error reason =>
      rw [read] at h
      cases h
    | ok r =>
      rw [read] at h
      cases h
      have := (quoted_taken read).2
      omega
  · cases read : number (c :: rest) with
    | error reason =>
      rw [read] at h
      cases h
    | ok r =>
      rw [read] at h
      cases h
      have := number_length read
      simp only [List.length_cons] at this
      omega
  · cases h
    exact (List.takeWhile_prefix _).length_le
  · cases sign : symbol? c rest with
    | none =>
      rw [sign] at h
      cases h
    | some r =>
      rw [sign] at h
      cases h
      exact symbol?_taken sign

theorem number_kind {cs : List Char} {kind : Kind} (h : number cs = .ok (kind, n)) :
    kind ≠ .endOfInput := by
  simp only [number] at h
  split at h
  · split at h <;> cases h
    exact nofun
  · split at h
    · cases h
    · split at h <;> cases h <;> exact nofun

/-- The end of the input is nothing that is written. -/
theorem piece_kind {kind : Kind} (h : piece c rest = .ok (.token kind, n)) :
    kind ≠ .endOfInput := by
  unfold piece at h
  split_ifs at h with space continued comment lineEnd quote number_ name
  iterate 4 · cases h
  · cases read : quoted c [] 0 rest with
    | error reason =>
      rw [read] at h
      cases h
    | ok r =>
      rw [read] at h
      cases h
      exact nofun
  · cases read : number (c :: rest) with
    | error reason =>
      rw [read] at h
      cases h
    | ok r =>
      rw [read] at h
      cases h
      exact number_kind read
  · cases h
    unfold word
    split <;> exact nofun
  · cases sign : symbol? c rest with
    | none =>
      rw [sign] at h
      cases h
    | some r =>
      rw [sign] at h
      cases h
      exact nofun

/-- What can be read on its own is read in the same way before the end of a line. -/
theorem piece_append (h : piece c rest = .ok (p, n)) :
    piece c (rest ++ '\n' :: more) = .ok (p, n) := by
  by_cases crosses : crossesLines c = true
  · simp only [crossesLines, Bool.or_assoc] at crosses
    rcases (Bool.or_eq_true _ _).mp crosses with backslash | quote
    · obtain rfl := beq_iff_eq.mp backslash
      cases rest with
      | nil => cases h
      | cons d rest => exact h
    · rw [piece_quote quote] at h ⊢
      cases read : quoted c [] 0 rest with
      | error reason =>
        rw [read] at h
        cases h
      | ok r =>
        rw [read] at h
        rw [quoted_append read]
        exact h
  · rw [piece_line (Bool.eq_false_iff.mpr crosses), h]

/-- What ends before the end of a line is read in the same way on its own. -/
theorem piece_of_append (h : piece c (rest ++ '\n' :: more) = .ok (p, n))
    (inside : n ≤ rest.length) : piece c rest = .ok (p, n) := by
  by_cases crosses : crossesLines c = true
  · simp only [crossesLines, Bool.or_assoc] at crosses
    rcases (Bool.or_eq_true _ _).mp crosses with backslash | quote
    · obtain rfl := beq_iff_eq.mp backslash
      cases rest with
      | nil =>
        cases h
        exact absurd inside (by decide)
      | cons d rest => exact h
    · rw [piece_quote quote] at h ⊢
      cases read : quoted c [] 0 (rest ++ '\n' :: more) with
      | error reason =>
        rw [read] at h
        cases h
      | ok r =>
        rw [read] at h
        cases h
        rw [quoted_of_append read (by omega)]
        rfl
  · rwa [piece_line (Bool.eq_false_iff.mpr crosses)] at h

/-! ### The reader -/

/-- What the reader of a source text carries from one character to the next. -/
structure Reader where
  depth : Nat := 0
  here : Position := .start
  /-- How many characters still belong to the piece before. -/
  skip : Nat := 0
  /-- The tokens so far, last one first. -/
  done : List Token := []

namespace Reader

/-- Reads the rest of a text. -/
def scan (r : Reader) (cs : List Char) : Except SyntaxError (List Token) :=
  scanFrom r.depth r.here r.skip r.done cs

/-- Goes over one character, before others. -/
def step (r : Reader) (c : Char) (rest : List Char) : Except SyntaxError Reader :=
  match r.skip with
  | skip + 1 => .ok { r with here := r.here.after c, skip }
  | 0 =>
    match piece c rest with
    | .error reason => .error ⟨reason, r.here⟩
    | .ok (.blank, taken) => .ok { r with here := r.here.after c, skip := taken }
    | .ok (.lineEnd, taken) =>
      .ok { r with
        here := r.here.after c, skip := taken
        done := if r.depth == 0 then ⟨.newline, r.here⟩ :: r.done else r.done }
    | .ok (.token kind, taken) =>
      .ok ⟨kind.depthAfter r.depth, r.here.after c, taken, ⟨kind, r.here⟩ :: r.done⟩

/-- Goes over several characters, before others. -/
def cross (ahead : List Char) : Reader → List Char → Except SyntaxError Reader
  | r, [] => .ok r
  | r, c :: rest => do cross ahead (← r.step c (rest ++ ahead)) rest

variable {r r' : Reader} {cs ds : List Char}

theorem scan_cons (r : Reader) (c : Char) (rest : List Char) :
    r.scan (c :: rest) = r.step c rest >>= fun r' => r'.scan rest := by
  rcases r with ⟨depth, here, skip, done⟩
  unfold scan step
  simp only [scanFrom]
  cases skip with
  | succ skip => rfl
  | zero =>
    generalize piece c rest = read
    rcases read with reason | ⟨blank | lineEnd | kind, taken⟩ <;> rfl

/-- The reader behind a piece that it has read, which is written as `passed`. -/
def behind (r : Reader) (p : Piece) (passed : List Char) : Reader where
  depth := match p with
    | .token kind => kind.depthAfter r.depth
    | _ => r.depth
  here := r.here.afterAll passed
  done := match p with
    | .blank => r.done
    | .lineEnd => if r.depth == 0 then ⟨.newline, r.here⟩ :: r.done else r.done
    | .token kind => ⟨kind, r.here⟩ :: r.done

/-- The characters that still belong to a piece are gone over at once. -/
theorem scan_skip (r : Reader) (cs : List Char) (fits : r.skip ≤ cs.length) :
    r.scan cs = Reader.scan { r with here := r.here.afterAll (cs.take r.skip), skip := 0 }
      (cs.drop r.skip) := by
  induction cs generalizing r with
  | nil =>
    obtain ⟨depth, here, skip, done⟩ := r
    obtain rfl := Nat.le_zero.mp fits
    rfl
  | cons c rest ih =>
    obtain ⟨depth, here, skip, done⟩ := r
    cases skip with
    | zero => rfl
    | succ skip =>
      rw [scan_cons]
      exact ih ⟨depth, here.after c, skip, done⟩ (Nat.le_of_succ_le_succ fits)

/-- Between pieces, the next piece is read whole. -/
theorem scan_piece (between : r.skip = 0) (read : piece c rest = .ok (p, n)) :
    r.scan (c :: rest) = (r.behind p (c :: rest.take n)).scan (rest.drop n) := by
  obtain ⟨depth, here, skip, done⟩ := r
  obtain rfl := between
  have fits := piece_taken read
  rw [scan_cons]
  simp only [step, read]
  cases p <;> exact scan_skip _ rest fits

/-- A text is read up to a place, and then from there on. -/
theorem scan_append (r : Reader) (cs ds : List Char) :
    r.scan (cs ++ ds) = r.cross ds cs >>= fun r' => r'.scan ds := by
  induction cs generalizing r with
  | nil => rfl
  | cons c rest ih =>
    rw [List.cons_append, scan_cons, cross]
    cases r.step c (rest ++ ds) with
    | error e => rfl
    | ok r' => exact ih r'

theorem step_here {c : Char} (h : r.step c cs = .ok r') : r'.here = r.here.after c := by
  unfold step at h
  split at h
  · cases h
    rfl
  · split at h <;> cases h <;> rfl

theorem cross_here (h : r.cross ds cs = .ok r') : r'.here = r.here.afterAll cs := by
  induction cs generalizing r with
  | nil =>
    cases h
    rfl
  | cons c rest ih =>
    unfold cross at h
    cases stepped : r.step c (rest ++ ds) with
    | error e =>
      rw [stepped] at h
      cases h
    | ok next =>
      rw [stepped] at h
      rw [ih h, step_here stepped, Position.afterAll_cons]

/-- No token so far is the end of the input. -/
def Inside (r : Reader) : Prop := ∀ t ∈ r.done, t.kind ≠ .endOfInput

theorem step_inside {c : Char} (inside : r.Inside) (h : r.step c cs = .ok r') : r'.Inside := by
  unfold step at h
  split at h
  · cases h
    exact inside
  · split at h
    · cases h
    · cases h
      exact inside
    · cases h
      simp only [Inside]
      split
      · exact List.forall_mem_cons.mpr ⟨nofun, inside⟩
      · exact inside
    · rename_i read
      cases h
      exact List.forall_mem_cons.mpr ⟨piece_kind read, inside⟩

theorem cross_inside (inside : r.Inside) (h : r.cross ds cs = .ok r') : r'.Inside := by
  induction cs generalizing r with
  | nil =>
    cases h
    exact inside
  | cons c rest ih =>
    unfold cross at h
    cases stepped : r.step c (rest ++ ds) with
    | error e =>
      rw [stepped] at h
      cases h
    | ok next =>
      rw [stepped] at h
      exact ih (step_inside inside stepped) h

/-! ### Line ends -/

/-- A step that is taken before nothing else is taken before a line end. -/
theorem step_append {c : Char} {rest : List Char} (more : List Char) (fits : r.skip ≤ rest.length + 1)
    (h : r.step c rest = .ok r') :
    r.step c (rest ++ '\n' :: more) = .ok r' ∧ r'.skip ≤ rest.length := by
  rcases r with ⟨depth, here, skip, done⟩
  cases skip with
  | succ skip =>
    cases h
    exact ⟨rfl, Nat.le_of_succ_le_succ fits⟩
  | zero =>
    simp only [step] at h ⊢
    cases read : piece c rest with
    | error reason =>
      rw [read] at h
      cases h
    | ok found =>
      rw [read] at h
      rw [piece_append read]
      rcases found with ⟨blank | lineEnd | kind, taken⟩ <;> cases h <;>
        exact ⟨rfl, piece_taken read⟩

/-- A step whose piece ends before a line end is taken without it as well. -/
theorem step_of_append {c : Char} {rest more : List Char}
    (h : r.step c (rest ++ '\n' :: more) = .ok r') (fits : r'.skip ≤ rest.length) :
    r.step c rest = .ok r' ∧ r.skip ≤ rest.length + 1 := by
  rcases r with ⟨depth, here, skip, done⟩
  cases skip with
  | succ skip =>
    cases h
    exact ⟨rfl, Nat.succ_le_succ fits⟩
  | zero =>
    refine ⟨?_, Nat.zero_le _⟩
    simp only [step] at h ⊢
    cases read : piece c (rest ++ '\n' :: more) with
    | error reason =>
      rw [read] at h
      cases h
    | ok found =>
      rw [read] at h
      rcases found with ⟨blank | lineEnd | kind, taken⟩ <;> cases h <;>
        rw [piece_of_append read fits]

/-- Text that can be read on its own is read in the same way before a line end, and no piece of it
goes on behind the line end. -/
theorem cross_append (more : List Char) (fits : r.skip ≤ cs.length)
    (h : r.cross [] cs = .ok r') : r.cross ('\n' :: more) cs = .ok r' ∧ r'.skip = 0 := by
  induction cs generalizing r with
  | nil =>
    cases h
    exact ⟨rfl, Nat.le_zero.mp fits⟩
  | cons c rest ih =>
    unfold cross at h ⊢
    rw [List.append_nil] at h
    cases stepped : r.step c rest with
    | error e =>
      rw [stepped] at h
      cases h
    | ok next =>
      rw [stepped] at h
      obtain ⟨before, fits⟩ := step_append more fits stepped
      rw [before]
      exact ih fits h

/-- Text whose last piece ends before a line end is read in the same way without it. -/
theorem cross_of_append {more : List Char} (h : r.cross ('\n' :: more) cs = .ok r')
    (ends : r'.skip = 0) : r.cross [] cs = .ok r' ∧ r.skip ≤ cs.length := by
  induction cs generalizing r with
  | nil =>
    cases h
    exact ⟨rfl, Nat.le_of_eq ends⟩
  | cons c rest ih =>
    unfold cross at h ⊢
    rw [List.append_nil]
    cases stepped : r.step c (rest ++ '\n' :: more) with
    | error e =>
      rw [stepped] at h
      cases h
    | ok next =>
      rw [stepped] at h
      obtain ⟨alone, fits⟩ := ih h
      obtain ⟨same, fits⟩ := step_of_append stepped fits
      rw [same]
      exact ⟨alone, fits⟩

/-- Outside brackets and between pieces, a line end is a token. -/
theorem scan_lineEnd (depth : r.depth = 0) (skip : r.skip = 0) (rest : List Char) :
    r.scan ('\n' :: rest) =
      Reader.scan ⟨0, r.here.after '\n', 0, ⟨.newline, r.here⟩ :: r.done⟩ rest := by
  rcases r with ⟨_, here, _, done⟩
  cases depth
  cases skip
  rfl

/-! ### Reading further down -/

/-- The reader so many lines further down, after other tokens. -/
def lower (lines : Nat) (before : List Token) (r : Reader) : Reader :=
  { r with here := r.here.lower lines, done := r.done.map (·.lower lines) ++ before }

/-- The outcome of reading further down, after other tokens. -/
def lowered (lines : Nat) (before : List Token) :
    Except SyntaxError (List Token) → Except SyntaxError (List Token)
  | .ok ts => .ok (before.reverse ++ ts.map (·.lower lines))
  | .error e => .error (e.lower lines)

theorem step_lower (lines : Nat) (before : List Token) (r : Reader) (c : Char)
    (rest : List Char) :
    (r.lower lines before).step c rest =
      match r.step c rest with
      | .ok r' => .ok (r'.lower lines before)
      | .error e => .error (e.lower lines) := by
  rcases r with ⟨depth, here, skip, done⟩
  cases skip with
  | succ skip => simp only [step, lower, Position.lower_after]
  | zero =>
    simp only [step, lower]
    rcases piece c rest with reason | ⟨blank | lineEnd | kind, taken⟩
    · rfl
    · simp only [Position.lower_after]
    · simp only [Position.lower_after]
      by_cases flat : (depth == 0) = true
      · simp only [flat, if_true, Token.lower, List.map_cons, List.cons_append]
      · simp only [flat, Bool.false_eq_true, if_false]
    · simp only [Position.lower_after, Token.lower, List.map_cons, List.cons_append]

theorem scan_lower (lines : Nat) (before : List Token) (r : Reader) (cs : List Char) :
    (r.lower lines before).scan cs = lowered lines before (r.scan cs) := by
  induction cs generalizing r with
  | nil =>
    rcases r with ⟨depth, here, skip, done⟩
    unfold scan scanFrom lower
    split
    · simp [lowered, Token.lower]
    · rfl
  | cons c rest ih =>
    rw [scan_cons, scan_cons, step_lower]
    cases r.step c rest with
    | error e => rfl
    | ok next => exact ih next

end Reader

/-! ### Joined texts -/

/-- The reader at the end of a text that can be read on its own. -/
theorem tokens_eq_ok {source : String} {ts : List Token} (h : tokens source = .ok ts) :
    ∃ r : Reader, Reader.cross [] {} source.toList = .ok r ∧ r.depth = 0 ∧
      r.here = Position.start.afterAll source.toList ∧ r.Inside ∧
      ts = (⟨.endOfInput, r.here⟩ :: ⟨.newline, r.here⟩ :: r.done).reverse := by
  have whole : ({} : Reader).scan source.toList = .ok ts := h
  have cut := Reader.scan_append {} source.toList []
  rw [List.append_nil, whole] at cut
  cases read : Reader.cross [] {} source.toList with
  | error e =>
    rw [read] at cut
    cases cut
  | ok r =>
    rw [read] at cut
    have ended : Except.ok ts = r.scan [] := cut
    unfold Reader.scan scanFrom at ended
    split at ended
    · rename_i flat
      cases ended
      have inside : Reader.Inside {} := fun t found => nomatch found
      exact ⟨r, rfl, beq_iff_eq.mp flat, Reader.cross_here read, Reader.cross_inside inside read, rfl⟩
    · cases ended

/-- The tokens of a text, a line end and another text are those of the first one, whose end of input
is not there any more, and those of the second one further down. -/
theorem tokens_joined {a : String} {ts : List Token} (h : tokens a = .ok ts) (b : String) :
    ∃ front p, ts = front ++ [⟨.newline, p⟩, ⟨.endOfInput, p⟩] ∧
      (∀ t ∈ front, t.kind ≠ .endOfInput) ∧
      tokens (a ++ "\n" ++ b) = Reader.lowered (a.toList.count '\n' + 1)
        (⟨.newline, p⟩ :: front.reverse) (tokens b) := by
  obtain ⟨r, read, flat, here, inside, rfl⟩ := tokens_eq_ok h
  refine ⟨r.done.reverse, r.here, by simp, fun t found => inside t (List.mem_reverse.mp found), ?_⟩
  have text : (a ++ "\n" ++ b).toList = a.toList ++ '\n' :: b.toList := by simp
  obtain ⟨before, skip⟩ := Reader.cross_append b.toList (Nat.zero_le _) read
  have cut := Reader.scan_append {} a.toList ('\n' :: b.toList)
  rw [before] at cut
  have joined : tokens (a ++ "\n" ++ b) = r.scan ('\n' :: b.toList) := by
    unfold tokens
    rw [text]
    exact cut
  have below : (⟨0, r.here.after '\n', 0, ⟨.newline, r.here⟩ :: r.done⟩ : Reader) =
      ({} : Reader).lower (a.toList.count '\n' + 1) (⟨.newline, r.here⟩ :: r.done) := by
    rw [here, Position.start_after_line]
    rfl
  rw [joined, Reader.scan_lineEnd flat skip, below, Reader.scan_lower, List.reverse_reverse]
  rfl

end ScriptBridge.Syntax
