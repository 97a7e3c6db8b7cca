import ScriptBridge.Proofs.Console.Returns
import ScriptBridge.Text.Blank

/-!
# Blank lines

A line of white space ends what was begun before it. No piece of a source text goes over the line
end before such a line, but a backslash at the end of the line before; so the text up to a blank
line can be read on its own, unless a bracket is open there.
-/

namespace ScriptBridge

theorem Text.not_isLetter_of_isBlank {c : Char} (h : isBlank c = true) : isLetter c = false := by
  have codes : c.toNat ∈ [0x09, 0x0a, 0x0b, 0x0c, 0x0d, 0x20, 0x85, 0xa0, 0x1680, 0x2000, 0x2001,
      0x2002, 0x2003, 0x2004, 0x2005, 0x2006, 0x2007, 0x2008, 0x2009, 0x200a, 0x2028, 0x2029,
      0x202f, 0x205f, 0x3000] := by
    simp only [isBlank, Bool.or_eq_true, Bool.and_eq_true, decide_eq_true_eq, beq_iff_eq] at h
    simp only [List.mem_cons, List.not_mem_nil, or_false]
    omega
  have none : ∀ code ∈ [0x09, 0x0a, 0x0b, 0x0c, 0x0d, 0x20, 0x85, 0xa0, 0x1680, 0x2000, 0x2001,
      0x2002, 0x2003, 0x2004, 0x2005, 0x2006, 0x2007, 0x2008, 0x2009, 0x200a, 0x2028, 0x2029,
      0x202f, 0x205f, 0x3000], isLetter (Char.ofNat code) = false := by decide +kernel
  rw [← Char.ofNat_toNat c]
  exact none _ codes

namespace Syntax

variable {c quote : Char} {done front line rest rest' : List Char} {taken n : Nat} {text : String}
  {p : Piece}

/-! ### Pieces before a blank line -/

/-- A string literal is not closed on a blank line. -/
theorem quoted_blank (mark : Text.isBlank quote = false) (blank : ∀ c ∈ line, Text.isBlank c = true)
    (ends : AtLineEnd rest) :
    quoted quote done taken (line ++ rest) ≠ .ok (text, n) := by
  induction line generalizing done taken with
  | nil => cases ends <;> rw [List.nil_append, quoted.eq_def] <;> rintro ⟨⟩
  | cons c more ih =>
    obtain ⟨first, blank⟩ := List.forall_mem_cons.mp blank
    have other : (c == quote) = false := by
      refine beq_false_of_ne fun same => ?_
      rw [same, mark] at first
      cases first
    have plain : (c == '\\') = false := by
      refine beq_false_of_ne fun same => ?_
      rw [same] at first
      exact absurd first (by decide)
    rw [List.cons_append, quoted.eq_def]
    simp only [other, plain, Bool.false_eq_true, if_false]
    split
    · rintro ⟨⟩
    · exact ih blank

/-- A string literal is closed before the line end that comes before a blank line. -/
theorem quoted_fits (mark : Text.isBlank quote = false) (blank : ∀ c ∈ line, Text.isBlank c = true)
    (ends : AtLineEnd rest)
    (read : quoted quote done taken (front ++ '\n' :: (line ++ rest)) = .ok (text, n)) :
    n ≤ taken + front.length := by
  induction size : front.length using Nat.strongRecOn generalizing front done taken with
  | ind size ih =>
    subst size
    cases front with
    | nil =>
      rw [List.nil_append, quoted.eq_def] at read
      cases read
    | cons c more =>
      rw [List.cons_append, quoted.eq_def] at read
      dsimp only at read
      simp only [List.length_cons] at ih ⊢
      split_ifs at read with lineEnd closes escapes
      · cases read
        omega
      · cases more with
        | nil => exact absurd read (quoted_blank mark blank ends)
        | cons e more =>
          have := ih more.length (by rw [List.length_cons]; omega) read rfl
          rw [List.length_cons]
          omega
      · have := ih more.length (Nat.lt_succ_self _) read rfl
        omega

/-- Before a blank line, only a backslash goes over a line end. -/
theorem piece_fits (blank : ∀ c ∈ line, Text.isBlank c = true) (ends : AtLineEnd rest)
    (read : piece c (front ++ '\n' :: (line ++ rest)) = .ok (p, n)) :
    n ≤ front.length ∨ (c = '\\' ∧ front = [] ∧ n = 1) := by
  by_cases crosses : crossesLines c = true
  · simp only [crossesLines, Bool.or_assoc] at crosses
    rcases (Bool.or_eq_true _ _).mp crosses with backslash | mark
    · obtain rfl := beq_iff_eq.mp backslash
      rw [piece_backslash] at read
      split at read
      · cases read
        cases front with
        | nil => exact .inr ⟨rfl, rfl, rfl⟩
        | cons => exact .inl (by simp)
      · cases read
    · have dark : Text.isBlank c = false := by
        rcases (Bool.or_eq_true _ _).mp mark with double | single
        · rw [beq_iff_eq.mp double]
          decide
        · rw [beq_iff_eq.mp single]
          decide
      rw [piece_quote mark] at read
      cases literal : quoted c [] 0 (front ++ '\n' :: (line ++ rest)) with
      | error reason =>
        rw [literal] at read
        cases read
      | ok found =>
        rw [literal] at read
        cases read
        have := quoted_fits dark blank ends literal
        exact .inl (by omega)
  · rw [piece_line (Bool.eq_false_iff.mpr crosses)] at read
    exact .inl (piece_taken read)

/-- What stands behind a line end has no say in a piece that goes no further. -/
theorem piece_behind (read : piece c (front ++ '\n' :: rest) = .ok (p, n))
    (fits : n ≤ front.length + 1) : piece c (front ++ '\n' :: rest') = .ok (p, n) := by
  by_cases crosses : crossesLines c = true
  · simp only [crossesLines, Bool.or_assoc] at crosses
    rcases (Bool.or_eq_true _ _).mp crosses with backslash | mark
    · obtain rfl := beq_iff_eq.mp backslash
      cases front <;> exact read
    · rw [piece_quote mark] at read ⊢
      have cut (rest : List Char) : front ++ '\n' :: rest = (front ++ ['\n']) ++ rest := by simp
      rw [cut] at read ⊢
      cases literal : quoted c [] 0 ((front ++ ['\n']) ++ rest) with
      | error reason =>
        rw [literal] at read
        cases read
      | ok found =>
        rw [literal] at read
        cases read
        have alone := quoted_of_append literal (by rw [List.length_append]; simpa using fits)
        rw [quoted_append alone]
        rfl
  · have plain := Bool.eq_false_iff.mpr crosses
    rw [piece_line plain] at read ⊢
    exact read

/-- White space within a line is skipped, as far as it is not refused. -/
theorem piece_blank (blank : Text.isBlank c = true) (inside : c ≠ '\n')
    (read : piece c rest = .ok (p, n)) (rest' : List Char) : piece c rest' = .ok (.blank, 0) := by
  have letter := Text.not_isLetter_of_isBlank blank
  have other (d : Char) (dark : Text.isBlank d = false) : (c == d) = false := by
    refine beq_false_of_ne fun same => ?_
    rw [same, dark] at blank
    cases blank
  have digit : c.isDigit = false := by
    by_contra digit
    simp only [Bool.not_eq_false, Char.isDigit, Bool.and_eq_true, decide_eq_true_eq,
      UInt32.le_iff_toNat_le] at digit
    simp only [Text.isBlank, Bool.or_eq_true, Bool.and_eq_true, decide_eq_true_eq, beq_iff_eq,
      Char.toNat] at blank
    have low : 48 ≤ c.val.toNat := digit.1
    have high : c.val.toNat ≤ 57 := digit.2
    omega
  have sign : symbol? c rest = none := by
    unfold symbol?
    dsimp only
    split <;> first | rfl | exact absurd blank (by decide)
  unfold piece at read
  simp only [other '\\' (by decide), other '#' (by decide), beq_false_of_ne inside,
    other '"' (by decide), other '\'' (by decide), startsNumber, digit, other '.' (by decide),
    startsName, letter, other '_' (by decide), sign, Bool.false_and, Bool.or_false,
    Bool.false_eq_true, if_false] at read
  split at read
  · rename_i space
    unfold piece
    exact if_pos space
  · cases read

/-! ### The reader before a blank line -/

namespace Reader

variable {r r' : Reader}

/-- Either a character belongs to the piece before, or a piece begins with it. -/
theorem step_skip (h : r.step c rest = .ok r') :
    r.skip = r'.skip + 1 ∨ r.skip = 0 ∧ ∃ p, piece c rest = .ok (p, r'.skip) := by
  obtain ⟨depth, here, skip, done⟩ := r
  cases skip with
  | succ skip =>
    cases h
    exact .inl rfl
  | zero =>
    simp only [step] at h
    cases read : piece c rest with
    | error reason =>
      rw [read] at h
      cases h
    | ok found =>
      obtain ⟨p, taken⟩ := found
      rw [read] at h
      refine .inr ⟨rfl, p, ?_⟩
      cases p <;> cases h <;> rfl

/-- Before a blank line no piece is under way, unless the line before ends in a backslash. -/
theorem cross_fits (blank : ∀ c ∈ line, Text.isBlank c = true) (ends : AtLineEnd rest)
    (fits : r.skip ≤ front.length) (h : r.cross ('\n' :: (line ++ rest)) front = .ok r') :
    r'.skip = 0 ∨ r'.skip = 1 ∧ front.getLast? = some '\\' := by
  induction front generalizing r with
  | nil =>
    cases h
    exact .inl (Nat.le_zero.mp fits)
  | cons c more ih =>
    unfold cross at h
    cases stepped : r.step c (more ++ '\n' :: (line ++ rest)) with
    | error e =>
      rw [stepped] at h
      cases h
    | ok next =>
      rw [stepped] at h
      have lift (first : next.skip ≤ more.length) :
          r'.skip = 0 ∨ r'.skip = 1 ∧ (c :: more).getLast? = some '\\' := by
        refine (ih first h).imp_right ?_
        rintro ⟨skip, last⟩
        refine ⟨skip, ?_⟩
        rw [List.getLast?_cons, last]
        rfl
      rcases step_skip stepped with within | ⟨-, p, read⟩
      · refine lift ?_
        rw [List.length_cons] at fits
        omega
      · rcases piece_fits blank ends read with first | ⟨rfl, rfl, one⟩
        · exact lift first
        · cases h
          exact .inr ⟨one, rfl⟩

/-- What stands behind a line end has no say in what stands before it, unless a piece goes over the
line end. -/
theorem cross_behind (h : r.cross rest (front ++ ['\n']) = .ok r') (between : r'.skip = 0) :
    r.cross rest' (front ++ ['\n']) = .ok r' ∧ r.skip ≤ front.length + 1 := by
  induction front generalizing r with
  | nil =>
    obtain ⟨depth, here, skip, done⟩ := r
    cases skip with
    | zero => exact ⟨h, Nat.zero_le _⟩
    | succ skip =>
      cases h
      exact ⟨rfl, Nat.le_of_eq (congrArg (· + 1) between)⟩
  | cons c more ih =>
    rw [List.cons_append] at h ⊢
    unfold cross at h ⊢
    cases stepped : r.step c (more ++ ['\n'] ++ rest) with
    | error e =>
      rw [stepped] at h
      cases h
    | ok next =>
      rw [stepped] at h
      obtain ⟨alone, fits⟩ := ih h
      have cut (rest : List Char) : more ++ ['\n'] ++ rest = more ++ '\n' :: rest := by simp
      have same : r.step c (more ++ ['\n'] ++ rest') = .ok next := by
        rw [cut] at stepped ⊢
        rcases step_skip stepped with within | ⟨zero, p, read⟩
        · obtain ⟨depth, here, skip, done⟩ := r
          obtain rfl := within
          exact stepped
        · have read' : piece c (more ++ '\n' :: rest') = .ok (p, next.skip) :=
            piece_behind read fits
          simp only [step, zero, read] at stepped
          simp only [step, zero, read']
          exact stepped
      refine ⟨by rw [same]; exact alone, ?_⟩
      rcases step_skip stepped with within | ⟨zero, -⟩
      · rw [List.length_cons]
        omega
      · rw [zero]
        exact Nat.zero_le _

/-- Between pieces, white space within a line is gone over as it is alone. -/
theorem cross_blank (blank : ∀ c ∈ line, Text.isBlank c = true) (inside : '\n' ∉ line)
    (between : r.skip = 0) (h : r.cross rest line = .ok r') :
    r.cross [] line = .ok r' ∧ r'.depth = r.depth ∧ r'.done = r.done := by
  induction line generalizing r with
  | nil =>
    cases h
    exact ⟨rfl, rfl, rfl⟩
  | cons c more ih =>
    obtain ⟨first, blank⟩ := List.forall_mem_cons.mp blank
    have other : c ≠ '\n' := fun same => inside (same ▸ List.mem_cons_self)
    unfold cross at h ⊢
    cases read : piece c (more ++ rest) with
    | error reason =>
      simp only [step, between, read] at h
      cases h
    | ok found =>
      have same := piece_blank first other read
      simp only [step, between, same] at h ⊢
      exact ih blank (fun found => inside (List.mem_cons_of_mem c found)) rfl h

/-- A text is gone over up to a place, and then from there on. -/
theorem cross_split (ahead : List Char) (r : Reader) (cs ds : List Char) :
    r.cross ahead (cs ++ ds) = r.cross (ds ++ ahead) cs >>= fun r' => r'.cross ahead ds := by
  induction cs generalizing r with
  | nil => rfl
  | cons c rest ih =>
    rw [List.cons_append, cross, cross, List.append_assoc]
    cases r.step c (rest ++ (ds ++ ahead)) with
    | error e => rfl
    | ok r' => exact ih r'

/-- A line end leaves the brackets open that are open before it, and no piece goes over it but a
backslash. -/
theorem step_lineEnd (fits : r.skip ≤ 1) (h : r.step '\n' rest = .ok r') :
    r'.skip = 0 ∧ r'.depth = r.depth := by
  obtain ⟨depth, here, skip, done⟩ := r
  cases skip with
  | zero =>
    cases h
    exact ⟨rfl, rfl⟩
  | succ skip =>
    cases h
    exact ⟨Nat.le_zero.mp (Nat.le_of_succ_le_succ fits), rfl⟩

theorem cross_lineEnd (h : r.cross rest (front ++ ['\n']) = .ok r') :
    ∃ r₀, r.cross ('\n' :: rest) front = .ok r₀ ∧ r₀.step '\n' rest = .ok r' := by
  rw [cross_split] at h
  cases up : r.cross (['\n'] ++ rest) front with
  | error e =>
    rw [up] at h
    cases h
  | ok r₀ =>
    rw [up] at h
    refine ⟨r₀, up, ?_⟩
    cases stepped : r₀.step '\n' rest with
    | error e =>
      simp only [cross, Bind.bind, Except.bind, List.nil_append, stepped] at h
      cases h
    | ok next => simpa only [cross, Bind.bind, Except.bind, List.nil_append, stepped] using h

end Reader

/-! ### Texts -/

variable {ts : List Token}

theorem tokens_cross {cs : List Char} {r : Reader} (h : Reader.cross [] {} cs = .ok r) :
    tokens (String.ofList cs) =
      if r.depth == 0 then .ok ((⟨.endOfInput, r.here⟩ :: ⟨.newline, r.here⟩ :: r.done).reverse)
      else .error ⟨.unexpectedEnd .closingBracket, r.here⟩ := by
  have whole := Reader.scan_append {} cs []
  rw [List.append_nil, h] at whole
  unfold tokens
  rw [String.toList_ofList]
  exact whole

/-- The text can be read, but for a bracket that is open at its end. -/
def LeavesOpen (text : String) : Prop :=
  ∃ place, tokens text = .error ⟨.unexpectedEnd .closingBracket, place⟩

/-- A text can be read up to a blank line inside it before which no bracket is open. -/
theorem tokens_blank (blank : ∀ c ∈ line, Text.isBlank c = true) (inside : '\n' ∉ line)
    (ends : AtLineEnd rest) (shut : ¬LeavesOpen (String.ofList (front ++ ['\n'])))
    (whole : tokens (String.ofList (front ++ '\n' :: (line ++ rest))) = .ok ts) :
    ∃ us, tokens (String.ofList (front ++ '\n' :: line)) = .ok us := by
  have cut (line : List Char) : front ++ '\n' :: line = front ++ ['\n'] ++ line := by simp
  obtain ⟨last, read, -⟩ := tokens_eq_ok whole
  rw [String.toList_ofList, cut, Reader.cross_split, List.append_nil] at read
  cases before : Reader.cross (line ++ rest) {} (front ++ ['\n']) with
  | error e =>
    rw [before] at read
    cases read
  | ok r =>
    rw [before] at read
    obtain ⟨r₀, up, ended⟩ := Reader.cross_lineEnd before
    have fits : r₀.skip ≤ 1 := by
      rcases Reader.cross_fits blank ends (Nat.zero_le _) up with zero | ⟨one, -⟩ <;> omega
    obtain ⟨between, -⟩ := Reader.step_lineEnd fits ended
    have flat : r.depth = 0 := by
      by_contra deep
      refine shut ⟨r.here, ?_⟩
      rw [tokens_cross (Reader.cross_behind before between).1, if_neg (by simpa using deep)]
    cases crossed : r.cross rest line with
    | error e =>
      have read : Reader.cross [] r (line ++ rest) = .ok last := read
      rw [Reader.cross_split, List.append_nil, crossed] at read
      cases read
    | ok r' =>
      obtain ⟨alone, depth, -⟩ := Reader.cross_blank blank inside between crossed
      have here : Reader.cross [] {} (front ++ '\n' :: line) = .ok r' := by
        rw [cut, Reader.cross_split, List.append_nil,
          (Reader.cross_behind before between).1]
        exact alone
      rw [tokens_cross here, depth, flat]
      exact ⟨_, rfl⟩

/-- A blank line at the beginning of a text holds no statement. -/
theorem readProgram_blank (blank : ∀ c ∈ line, Text.isBlank c = true) (inside : '\n' ∉ line)
    (whole : tokens (String.ofList (line ++ rest)) = .ok ts) :
    readProgram (String.ofList line) = .ok [] := by
  obtain ⟨last, read, -⟩ := tokens_eq_ok whole
  rw [String.toList_ofList, Reader.cross_split, List.append_nil] at read
  cases crossed : Reader.cross rest {} line with
  | error e =>
    rw [crossed] at read
    cases read
  | ok r =>
    obtain ⟨alone, flat, none⟩ := Reader.cross_blank blank inside rfl crossed
    have words : tokens (String.ofList line) = .ok [⟨.newline, r.here⟩, ⟨.endOfInput, r.here⟩] := by
      rw [tokens_cross alone, flat, none]
      rfl
    rw [readProgram_eq words]
    rfl

/-- A text can be read without the line end at its end, unless a backslash stands before that. -/
theorem tokens_unended (last : front.getLast? ≠ some '\\')
    (whole : tokens (String.ofList (front ++ ['\n'])) = .ok ts) :
    ∃ us, tokens (String.ofList front) = .ok us := by
  obtain ⟨r, read, flat, -⟩ := tokens_eq_ok whole
  rw [String.toList_ofList] at read
  obtain ⟨r₀, up, ended⟩ := Reader.cross_lineEnd read
  have between : r₀.skip = 0 := by
    have nothing : ∀ c ∈ ([] : List Char), Text.isBlank c = true := nofun
    have fits := Reader.cross_fits nothing .text (Nat.zero_le _) up
    exact fits.resolve_right fun ⟨_, backslash⟩ => last backslash
  have alone := (Reader.cross_of_append up between).1
  have depth := (Reader.step_lineEnd (Nat.le_of_eq between |>.trans (Nat.zero_le _)) ended).2
  rw [tokens_cross alone, ← depth, flat]
  exact ⟨_, rfl⟩

end Syntax
end ScriptBridge
