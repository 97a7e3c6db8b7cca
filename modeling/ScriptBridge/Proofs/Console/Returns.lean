import Mathlib.Data.List.Forall2
import ScriptBridge.Proofs.Joining.Programs

/-!
# Carriage returns at line ends

A carriage return that stands before a line end, or at the end of a text, is white space there or
the last character of a comment. Without it a source text that can be read is the same program.
-/

namespace ScriptBridge.Syntax

variable {c quote : Char} {cs ds done : List Char} {taken n : Nat} {text : String} {p : Piece}

/-! ### Texts without carriage returns -/

/-- A line ends here, if not the text. -/
inductive AtLineEnd : List Char → Prop
  | text : AtLineEnd []
  | line (rest : List Char) : AtLineEnd ('\n' :: rest)

/-- The second text is the first one without some of the carriage returns at its line ends. -/
inductive Trimmed : List Char → List Char → Prop
  | nil : Trimmed [] []
  | char (c : Char) {cs ds : List Char} : Trimmed cs ds → Trimmed (c :: cs) (c :: ds)
  | carriage {cs ds : List Char} : AtLineEnd cs → Trimmed cs ds → Trimmed ('\r' :: cs) ds

namespace Trimmed

theorem prepend (front : List Char) (h : Trimmed cs ds) : Trimmed (front ++ cs) (front ++ ds) := by
  induction front with
  | nil => exact h
  | cons c rest ih => exact .char c ih

theorem refl (cs : List Char) : Trimmed cs cs := by
  induction cs with
  | nil => exact .nil
  | cons c rest ih => exact .char c ih

theorem atLineEnd (h : Trimmed cs ds) (ends : AtLineEnd cs) : AtLineEnd ds := by
  cases ends with
  | text =>
    cases h
    exact .text
  | line rest =>
    cases h
    exact .line _

/-- Texts in a row, the first of which ends where a line does. -/
theorem append {us vs : List Char} (h : Trimmed cs ds) (ends : AtLineEnd us) (h' : Trimmed us vs) :
    Trimmed (cs ++ us) (ds ++ vs) := by
  induction h with
  | nil => exact h'
  | char c _ ih => exact .char c ih
  | carriage here _ ih =>
    refine .carriage ?_ ih
    cases here with
    | text => exact ends
    | line rest => exact .line _

/-- There are as many lines. -/
theorem count_lines (h : Trimmed cs ds) : ds.count '\n' = cs.count '\n' := by
  induction h with
  | nil => rfl
  | char c _ ih => rw [List.count_cons, List.count_cons, ih]
  | carriage _ _ ih => rw [List.count_cons_of_ne (by decide), ih]

/-- The first line, which may have lost the carriage return at its end, and what follows. -/
theorem firstLine (h : Trimmed cs ds) : ∃ line tail rest rest', cs = line ++ (tail ++ rest) ∧
    ds = line ++ rest' ∧ (tail = [] ∨ tail = ['\r']) ∧ '\n' ∉ line ∧ AtLineEnd rest ∧
    AtLineEnd rest' ∧ Trimmed rest rest' := by
  induction h with
  | nil => exact ⟨[], [], [], [], rfl, rfl, .inl rfl, nofun, .text, .text, .nil⟩
  | @char c cs ds h ih =>
    by_cases ends : c = '\n'
    · subst ends
      exact ⟨[], [], _, _, rfl, rfl, .inl rfl, nofun, .line _, .line _, .char _ h⟩
    · obtain ⟨line, tail, rest, rest', rfl, rfl, tails, inside, left, right, same⟩ := ih
      refine ⟨c :: line, tail, rest, rest', rfl, rfl, tails, ?_, left, right, same⟩
      exact List.not_mem_cons_of_ne_of_not_mem (Ne.symm ends) inside
  | carriage ends h ih =>
    exact ⟨[], ['\r'], _, _, rfl, rfl, .inr rfl, nofun, ends, h.atLineEnd ends, h⟩

end Trimmed

/-! ### Pieces -/

theorem piece_atLineEnd {line rest : List Char} (h : crossesLines c = false)
    (ends : AtLineEnd rest) : piece c (line ++ rest) = piece c line := by
  cases ends with
  | text => rw [List.append_nil]
  | line rest => exact piece_line h

theorem takeWhile_atLineEnd {line rest : List Char} (inside : '\n' ∉ line)
    (ends : AtLineEnd rest) : (line ++ rest).takeWhile (· != '\n') = line := by
  have all : ∀ c ∈ line, (c != '\n') = true := fun c found =>
    bne_iff_ne.mpr fun same => inside (same ▸ found)
  rw [List.takeWhile_append_of_pos all]
  cases ends <;> simp

/-- A string literal never holds a carriage return before a line end, since such a line end would
end it. -/
theorem Trimmed.quoted (h : Trimmed cs ds) (mark : quote ≠ '\r')
    (read : Syntax.quoted quote done taken cs = .ok (text, n)) :
    Syntax.quoted quote done taken ds = .ok (text, n) ∧
      Trimmed (cs.drop (n - taken)) (ds.drop (n - taken)) := by
  have unclosed {cs done : List Char} {taken : Nat} (ends : AtLineEnd cs) :
      Syntax.quoted quote done taken cs ≠ .ok (text, n) := by
    cases ends <;> rw [Syntax.quoted.eq_def] <;> rintro ⟨⟩
  fun_induction Syntax.quoted quote done taken cs generalizing ds with
  | case1 | case2 | case4 => cases read
  | case3 done taken c rest other closes =>
    cases read
    obtain rfl := beq_iff_eq.mp closes
    cases h with
    | char _ h =>
      refine ⟨?_, ?_⟩
      · rw [Syntax.quoted.eq_def]
        simp only [other, closes, if_true, if_false, Bool.false_eq_true]
      · simpa using h
    | carriage => exact absurd rfl mark
  | case5 done taken c other goesOn escapes e rest ih =>
    obtain rfl := beq_iff_eq.mp escapes
    cases h with
    | char _ h =>
      cases h with
      | char _ h =>
        obtain ⟨same, left⟩ := ih h read
        have longer := (quoted_taken read).1
        have count : n - taken = n - (taken + 2) + 2 := by omega
        refine ⟨?_, ?_⟩
        · rw [Syntax.quoted.eq_def]
          simpa only [other, goesOn, escapes, if_true, if_false, Bool.false_eq_true] using same
        · rw [count]
          exact left
      | carriage ends _ => exact absurd read (unclosed ends)
  | case6 done taken c rest other goesOn plain ih =>
    cases h with
    | char _ h =>
      obtain ⟨same, left⟩ := ih h read
      have longer := (quoted_taken read).1
      have count : n - taken = n - (taken + 1) + 1 := by omega
      refine ⟨?_, ?_⟩
      · rw [Syntax.quoted.eq_def]
        simpa only [other, goesOn, plain, if_false, Bool.false_eq_true] using same
      · rw [count]
        exact left
    | carriage ends _ => exact absurd read (unclosed ends)

theorem Trimmed.backslash (h : Trimmed cs ds) (read : Syntax.piece '\\' cs = .ok (p, n)) :
    ∃ n', Syntax.piece '\\' ds = .ok (p, n') ∧ Trimmed (cs.drop n) (ds.drop n') := by
  rw [piece_backslash] at read
  split at read
  · rename_i continues
    cases read
    cases h with
    | nil => simp at continues
    | carriage => simp at continues
    | char d h =>
      refine ⟨1, ?_, h⟩
      rw [piece_backslash]
      exact if_pos continues
  · cases read

theorem Trimmed.literal (h : Trimmed cs ds) (quote : (c == '"' || c == '\'') = true)
    (read : Syntax.piece c cs = .ok (p, n)) :
    ∃ n', Syntax.piece c ds = .ok (p, n') ∧ Trimmed (cs.drop n) (ds.drop n') := by
  have mark : c ≠ '\r' := by
    rintro rfl
    exact absurd quote (by decide)
  rw [piece_quote quote] at read ⊢
  cases found : Syntax.quoted c [] 0 cs with
  | error reason =>
    rw [found] at read
    cases read
  | ok text =>
    rw [found] at read
    cases read
    obtain ⟨same, left⟩ := h.quoted mark found
    exact ⟨_, by rw [same]; rfl, left⟩

/-- A comment goes to the end of the line, with a carriage return or without. -/
theorem Trimmed.comment (h : Trimmed cs ds) (read : Syntax.piece '#' cs = .ok (p, n)) :
    ∃ n', Syntax.piece '#' ds = .ok (p, n') ∧ Trimmed (cs.drop n) (ds.drop n') := by
  obtain ⟨line, tail, rest, rest', rfl, rfl, tails, inside, ends, ends', same⟩ := h.firstLine
  have passed : (line ++ (tail ++ rest)).takeWhile (· != '\n') = line ++ tail := by
    rw [← List.append_assoc]
    refine takeWhile_atLineEnd (fun found => ?_) ends
    rcases tails with rfl | rfl <;> simp_all
  have passed' := takeWhile_atLineEnd inside ends'
  have read : Except.ok (Piece.blank,
    ((line ++ (tail ++ rest)).takeWhile (· != '\n')).length) = Except.ok (p, n) := read
  rw [passed] at read
  cases read
  refine ⟨line.length, ?_, ?_⟩
  · show Except.ok (Piece.blank, ((line ++ rest').takeWhile (· != '\n')).length) = _
    rw [passed']
  · rw [← List.append_assoc, List.drop_left, List.drop_left]
    exact same

/-- Any other piece stays within its line. -/
theorem Trimmed.inLine (h : Trimmed cs ds) (plain : crossesLines c = false) (unmarked : c ≠ '#')
    (read : Syntax.piece c cs = .ok (p, n)) :
    ∃ n', Syntax.piece c ds = .ok (p, n') ∧ Trimmed (cs.drop n) (ds.drop n') := by
  obtain ⟨line, tail, rest, rest', rfl, rfl, tails, -, ends, ends', same⟩ := h.firstLine
  have alone : Syntax.piece c (line ++ (tail ++ rest)) = Syntax.piece c line := by
    rcases tails with rfl | rfl
    · exact piece_atLineEnd plain ends
    · exact piece_stop plain (.inr unmarked) rfl
  rw [alone] at read
  refine ⟨n, (piece_atLineEnd plain ends').trans read, ?_⟩
  have fits := piece_taken read
  rw [List.drop_append_of_le_length fits, List.drop_append_of_le_length fits]
  refine .prepend _ ?_
  rcases tails with rfl | rfl
  · exact same
  · exact .carriage ends same

/-- A piece is read as it is without the carriage returns, and they are gone behind it. -/
theorem Trimmed.piece (h : Trimmed cs ds) (read : Syntax.piece c cs = .ok (p, n)) :
    ∃ n', Syntax.piece c ds = .ok (p, n') ∧ Trimmed (cs.drop n) (ds.drop n') := by
  by_cases crosses : crossesLines c = true
  · simp only [crossesLines, Bool.or_assoc] at crosses
    rcases (Bool.or_eq_true _ _).mp crosses with backslash | quote
    · obtain rfl := beq_iff_eq.mp backslash
      exact h.backslash read
    · exact h.literal quote read
  · by_cases marked : c = '#'
    · subst marked
      exact h.comment read
    · exact h.inLine (Bool.eq_false_iff.mpr crosses) marked read

/-! ### Tokens -/

namespace Reader

variable {r r' : Reader} {rest : List Char}

/-- The readers stand between pieces on lines of one number, and what they have read differs only in
columns. -/
structure Abreast (r r' : Reader) : Prop where
  depth : r'.depth = r.depth
  line : r'.here.line = r.here.line
  between : r.skip = 0
  between' : r'.skip = 0
  done : List.Forall₂ (fun t t' => t'.kind = t.kind ∧ t'.position.line = t.position.line)
    r.done r'.done

theorem Abreast.behind (h : r.Abreast r') {passed passed' : List Char}
    (lines : passed'.count '\n' = passed.count '\n') (p : Piece) :
    (r.behind p passed).Abreast (r'.behind p passed') := by
  refine ⟨?_, ?_, rfl, rfl, ?_⟩
  · cases p <;> simp only [Reader.behind, h.depth]
  · simp only [Reader.behind, Position.afterAll_line, h.line, lines]
  · cases p with
    | blank => exact h.done
    | lineEnd =>
      simp only [Reader.behind, h.depth]
      split
      · exact .cons ⟨rfl, h.line⟩ h.done
      · exact h.done
    | token kind => exact .cons ⟨rfl, h.line⟩ h.done

/-- By induction on the length of the text; each piece is read whole. -/
theorem Abreast.scan (h : r.Abreast r') (trimmed : Trimmed cs ds) {ts : List Token}
    (read : r.scan cs = .ok ts) : ∃ ts', r'.scan ds = .ok ts' ∧
      List.Forall₂ (fun t t' => t'.kind = t.kind ∧ t'.position.line = t.position.line) ts ts' := by
  induction size : cs.length using Nat.strongRecOn generalizing cs r r' ds with
  | ind size ih =>
    subst size
    cases trimmed with
    | nil =>
      obtain ⟨depth, here, skip, done⟩ := r
      obtain ⟨depth', here', skip', done'⟩ := r'
      obtain ⟨rfl, line, rfl, rfl, before⟩ := h
      simp only [Reader.scan, scanFrom] at read ⊢
      split at read
      · rename_i flat
        cases read
        rw [if_pos flat]
        refine ⟨_, rfl, List.forall₂_reverse_iff.mpr ?_⟩
        exact .cons ⟨rfl, line⟩ (.cons ⟨rfl, line⟩ before)
      · cases read
    | @char c rest rest' trimmed =>
      cases found : piece c rest with
      | error reason =>
        rw [scan_cons] at read
        simp only [step, h.between, found] at read
        cases read
      | ok result =>
        obtain ⟨p, n⟩ := result
        obtain ⟨n', same, left⟩ := trimmed.piece found
        rw [scan_piece h.between found] at read
        rw [scan_piece h.between' same]
        have lines := trimmed.count_lines
        have lines' := left.count_lines
        rw [← List.take_append_drop n rest, ← List.take_append_drop n' rest', List.count_append,
          List.count_append] at lines
        refine ih _ ?_ (h.behind ?_ p) left read rfl
        · simp only [List.length_drop, List.length_cons]
          omega
        · rw [List.count_cons, List.count_cons]
          omega
    | @carriage rest _ ends trimmed =>
      rw [scan_piece h.between (p := .blank) (n := 0) rfl] at read
      have behind : (r.behind .blank ['\r']).Abreast r' :=
        ⟨h.depth, h.line, rfl, h.between', h.done⟩
      exact ih _ (Nat.lt_succ_self _) behind trimmed read rfl

end Reader

/-! ### Programs -/

variable {a b : String} {ts : List Token}

/-- Without the carriage returns the words of a text are the same, on the same lines. -/
theorem tokens_trimmed (h : Trimmed a.toList b.toList) (read : tokens a = .ok ts) :
    ∃ ts', tokens b = .ok ts' ∧
      List.Forall₂ (fun t t' => t'.kind = t.kind ∧ t'.position.line = t.position.line) ts ts' := by
  have start : Reader.Abreast {} {} := ⟨rfl, rfl, rfl, rfl, .nil⟩
  exact start.scan h read

theorem readProgram_trimmed (h : Trimmed a.toList b.toList) {p : Program}
    (read : readProgram a = .ok p) : readProgram b = .ok p := by
  cases words : tokens a with
  | error e =>
    unfold readProgram at read
    rw [words] at read
    cases read
  | ok ts =>
    obtain ⟨ts', words', same⟩ := tokens_trimmed h words
    rw [readProgram_eq words] at read
    rw [readProgram_eq words']
    obtain ⟨front, q, rfl, inside⟩ := tokens_inside words
    obtain ⟨front', q', rfl, -⟩ := tokens_inside words'
    rw [← List.forall₂_reverse_iff, List.reverse_concat', List.reverse_concat'] at same
    obtain ⟨last, same⟩ := List.forall₂_cons.mp same
    let s : Seam := ⟨fun p p' => p'.line = p.line, .endOfInput, .inr rfl, q, q', last.2, [], []⟩
    have alike : List.Forall₂ s.Alike front front' := List.forall₂_reverse_iff.mp same
    have many := alike.length_eq
    have run : Over s 0 (.ok []) (Program.ofTokens (front ++ [⟨.endOfInput, q⟩]))
        (Program.ofTokens (front' ++ [⟨.endOfInput, q'⟩])) := by
      refine statements_over 0 (fun _ _ moved => moved) (fun fuel => rfl) (fun fuel _ => rfl)
        (Beside.of_front alike inside) ?_ ?_
      · rw [List.length_append]
        omega
      · rw [List.length_append, many]
        omega
    rw [read] at run
    generalize Program.ofTokens (front' ++ _) = r' at run ⊢
    cases run with
    | ok =>
      rw [p.lower_zero]
      exact congrArg Except.ok (List.append_nil p)

end ScriptBridge.Syntax
