import ScriptBridge.Proofs.Console.Lines

/-!
# Gathering lines

Lines are gathered until they can be read. Of a program that can be read, no line has to be given
up: what is gathered cannot be read before its words are complete, and then it is a program of its
own, whose statements are the next ones.
-/

namespace ScriptBridge.Console

open Syntax (Program Statement SyntaxError tokens readProgram LeavesOpen)

variable {begun rest before : List String} {line p : String} {q : Program}

/-- The statements that are found when lines are gathered one after the other, some of which are
pending. -/
inductive Gathers : (pending : String) → List String → List Statement → Prop
  | done : Gathers "" [] []
  | blank {line : String} {rest : List String} {ss : List Statement} :
    Text.isBlankText line = true → readProgram line = .ok [] → Gathers "" rest ss →
      Gathers "" (line :: rest) ss
  | more {pending line : String} {rest : List String} {ss : List Statement} {e : SyntaxError} :
    Text.isBlankText line = false → readProgram (gather pending line) = .error e →
      e.isSyntax = true → Gathers (gather pending line) rest ss → Gathers pending (line :: rest) ss
  | statements {pending line : String} {rest : List String} {ss : List Statement}
    {first : Program} : Text.isBlankText (gather pending line) = false →
      readProgram (gather pending line) = .ok first → Gathers "" rest ss →
        Gathers pending (line :: rest) (first.map (·.2) ++ ss)

/-! ### Lines that were gathered -/

theorem gather_joinLines (filled : begun ≠ [] → joinLines begun ≠ "") (line : String) :
    gather (joinLines begun) line = joinLines (begun ++ [line]) := by
  cases begun with
  | nil => rfl
  | cons first rest =>
    rw [gather, if_neg (filled (List.cons_ne_nil first rest)),
      joinLines_append (List.cons_ne_nil first rest) (List.cons_ne_nil line [])]
    rfl

theorem blank_joinLines (h : Text.isBlankText (joinLines (begun ++ [line])) = true) :
    Text.isBlankText (joinLines begun) = true ∧ Text.isBlankText line = true := by
  cases begun with
  | nil => exact ⟨rfl, h⟩
  | cons first rest =>
    rw [joinLines_append (List.cons_ne_nil first rest) (List.cons_ne_nil line [])] at h
    simp only [Text.isBlankText, String.toList_append, List.all_append, Bool.and_eq_true] at h
    exact ⟨h.1.1, h.2⟩

/-- What comes behind lines that can be read can be read, too. -/
theorem words_behind {ts us : List Syntax.Token} (first : tokens (joinLines before) = .ok ts)
    (begun : before ≠ []) (more : rest ≠ [])
    (whole : tokens (joinLines (before ++ rest)) = .ok us) :
    ∃ vs, tokens (joinLines rest) = .ok vs := by
  obtain ⟨front, p, -, -, joined⟩ := Syntax.tokens_joined first (joinLines rest)
  rw [joinLines_append begun more, joined] at whole
  cases words : tokens (joinLines rest) with
  | error e =>
    rw [words] at whole
    cases whole
  | ok vs => exact ⟨vs, rfl⟩

theorem words_of_readProgram (h : readProgram p = .ok q) : ∃ ts, tokens p = .ok ts := by
  cases words : tokens p with
  | error e =>
    unfold readProgram at h
    rw [words] at h
    cases h
  | ok ts => exact ⟨ts, rfl⟩

/-- Two texts that can be read one after the other are programs of their own. -/
theorem readProgram_apart {a b : String} {ts us : List Syntax.Token} (first : tokens a = .ok ts)
    (second : tokens b = .ok us) (h : readProgram (a ++ "\n" ++ b) = .ok q) :
    ∃ q₁ q₂, readProgram a = .ok q₁ ∧ readProgram b = .ok q₂ ∧
      q.map (·.2) = q₁.map (·.2) ++ q₂.map (·.2) := by
  rw [Syntax.readProgram_words first second] at h
  cases read : readProgram a with
  | error e =>
    rw [read] at h
    cases h
  | ok q₁ =>
    cases read' : readProgram b with
    | error e =>
      rw [read, read'] at h
      cases h
    | ok q₂ =>
      rw [read, read'] at h
      cases h
      refine ⟨q₁, q₂, rfl, rfl, ?_⟩
      rw [List.map_append, Program.lower, List.map_map]
      rfl

/-- Up to every blank line, the lines can be read alone. -/
def Flushes (lines : List String) : Prop :=
  ∀ before line after, lines = before ++ line :: after → before ≠ [] →
    Text.isBlankText line = true → ∃ ts, tokens (joinLines (before ++ [line])) = .ok ts

theorem Flushes.behind {ts : List Syntax.Token} (h : Flushes (before ++ rest))
    (begun : before ≠ []) (first : tokens (joinLines before) = .ok ts) : Flushes rest := by
  rintro front line after rfl filled blank
  obtain ⟨us, words⟩ := h (before ++ front) line after (List.append_assoc _ _ _).symm
    (List.append_ne_nil_of_left_ne_nil begun front) blank
  rw [List.append_assoc] at words
  exact words_behind first begun (by simp) words

/-- A blank line that begins a text that can be read holds no statement. -/
theorem readProgram_first {ts : List Syntax.Token} (blank : Text.isBlankText line = true)
    (inside : '\n' ∉ line.toList) (whole : tokens (joinLines (line :: rest)) = .ok ts) :
    readProgram line = .ok [] := by
  have begins : ∃ more, joinLines (line :: rest) = String.ofList (line.toList ++ more) := by
    cases rest with
    | nil => exact ⟨[], by rw [List.append_nil, String.ofList_toList]; rfl⟩
    | cons next rest =>
      refine ⟨'\n' :: (joinLines (next :: rest)).toList, ?_⟩
      rw [← String.toList_inj, joinLines_cons line (List.cons_ne_nil next rest)]
      simp
  obtain ⟨more, text⟩ := begins
  rw [text] at whole
  have read := Syntax.readProgram_blank (List.all_eq_true.mp blank) inside whole
  rwa [String.ofList_toList] at read

/-- Where the words of the first lines are complete, they are a program of their own, and so are the
other lines. -/
theorem readProgram_cut {us : List Syntax.Token} (begun : before ≠ [])
    (now : tokens (joinLines before) = .ok us)
    (whole : readProgram (joinLines (before ++ rest)) = .ok q) :
    ∃ q₁ q₂, readProgram (joinLines before) = .ok q₁ ∧ readProgram (joinLines rest) = .ok q₂ ∧
      q.map (·.2) = q₁.map (·.2) ++ q₂.map (·.2) := by
  by_cases more : rest = []
  · subst more
    rw [List.append_nil] at whole
    exact ⟨q, [], whole, rfl, (List.append_nil _).symm⟩
  · obtain ⟨ts, words⟩ := words_of_readProgram whole
    obtain ⟨vs, behind⟩ := words_behind now begun more words
    rw [joinLines_append begun more] at whole
    exact readProgram_apart now behind whole

/-- What was begun cannot be read yet. -/
def Begun (begun : List String) : Prop :=
  begun ≠ [] → Text.isBlankText (joinLines begun) = false ∧ ∃ e, tokens (joinLines begun) = .error e

theorem Begun.filled (pending : Begun begun) (some : begun ≠ []) : joinLines begun ≠ "" := by
  intro empty
  obtain ⟨-, e, unread⟩ := pending some
  rw [empty] at unread
  cases unread

/-- A line whose words do not complete what was begun is not blank. -/
theorem dark_of_unread {e : SyntaxError} (single : '\n' ∉ line.toList)
    (flushes : Flushes (begun ++ line :: rest))
    (whole : readProgram (joinLines (begun ++ line :: rest)) = .ok q)
    (unread : tokens (joinLines (begun ++ [line])) = .error e) : Text.isBlankText line = false := by
  by_contra blank
  rw [Bool.not_eq_false] at blank
  have read : ∃ us, tokens (joinLines (begun ++ [line])) = .ok us := by
    by_cases some : begun = []
    · subst some
      obtain ⟨ts, words⟩ := words_of_readProgram whole
      exact words_of_readProgram (readProgram_first blank single words)
    · exact flushes begun line rest rfl some blank
  obtain ⟨us, read⟩ := read
  rw [read] at unread
  cases unread

theorem Begun.further {e : SyntaxError} (dark : Text.isBlankText line = false)
    (unread : tokens (joinLines (begun ++ [line])) = .error e) : Begun (begun ++ [line]) := by
  refine fun _ => ⟨?_, e, unread⟩
  by_contra blank
  rw [(blank_joinLines (Bool.not_eq_false _ ▸ blank)).2] at dark
  cases dark

/-- By induction on the lines that follow. -/
theorem gathers_lines (inside : ∀ line ∈ rest, '\n' ∉ line.toList) (pending : Begun begun)
    (flushes : Flushes (begun ++ rest)) (whole : readProgram (joinLines (begun ++ rest)) = .ok q) :
    Gathers (joinLines begun) rest (q.map (·.2)) := by
  induction rest generalizing begun q with
  | nil =>
    rw [List.append_nil] at whole
    cases begun with
    | nil =>
      cases whole
      exact .done
    | cons first more =>
      obtain ⟨-, e, unread⟩ := pending nofun
      obtain ⟨ts, words⟩ := words_of_readProgram whole
      rw [words] at unread
      cases unread
  | cons line rest ih =>
    obtain ⟨single, inside⟩ := List.forall_mem_cons.mp inside
    have gathered := gather_joinLines pending.filled line
    have cut : begun ++ line :: rest = begun ++ [line] ++ rest := by simp
    cases now : tokens (joinLines (begun ++ [line])) with
    | ok us =>
      have begun' : begun ++ [line] ≠ [] := by simp
      rw [cut] at flushes
      obtain ⟨q₁, q₂, first, second, same⟩ := readProgram_cut begun' now (cut ▸ whole)
      have fresh : Begun [] := nofun
      have goesOn := ih inside fresh (flushes.behind begun' now) second
      rw [same]
      cases dark : Text.isBlankText (joinLines (begun ++ [line])) with
      | false =>
        rw [← gathered] at dark first
        exact .statements dark first goesOn
      | true =>
        obtain ⟨blank, blank'⟩ := blank_joinLines dark
        obtain rfl : begun = [] := by
          by_contra some
          rw [(pending some).1] at blank
          cases blank
        obtain ⟨ts, words⟩ := words_of_readProgram whole
        have read := readProgram_first blank' single words
        obtain rfl : q₁ = [] := Except.ok.inj (first.symm.trans read)
        exact .blank blank' read goesOn
    | error e =>
      have dark := dark_of_unread single flushes whole now
      have unread : readProgram (joinLines (begun ++ [line])) = .error e := by
        unfold readProgram
        rw [now]
        rfl
      rw [cut] at whole flushes
      have goesOn := ih inside (.further dark now) flushes whole
      rw [← gathered] at unread goesOn
      exact .more dark unread (Syntax.tokens_isSyntax now) goesOn

/-- A program that can be read is gathered line by line. -/
theorem gathers_program (h : readProgram p = .ok q) (last : ¬['\\', '\n'] <:+ p.toList)
    (shut : ∀ before line after, splitLines p.toList = before ++ line :: after →
      Text.isBlankText (String.ofList line) = true → ¬LeavesOpen (String.ofList before.flatten)) :
    Gathers "" (lines p) (q.map (·.2)) := by
  obtain ⟨ts, words⟩ := words_of_readProgram h
  have flushes : Flushes (lines p) := fun before line after found begun blank =>
    tokens_lines words shut found begun blank
  have fresh : Begun [] := nofun
  refine gathers_lines (fun line found => ?_) fresh flushes (readProgram_lines h last)
  rw [lines_eq] at found
  obtain ⟨raw, split, rfl⟩ := List.mem_map.mp found
  rw [String.toList_ofList]
  exact (splitLines_wellSplit p.toList).inside raw split

end ScriptBridge.Console
