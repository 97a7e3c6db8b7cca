import ScriptBridge.Console
import ScriptBridge.Proofs.Console.Layout

/-!
# A program line by line

The lines of a program are gathered until they can be read as statements. Nothing that is gathered
before can be read, and then the statements are those of the program up to there; so the program is
read statement by statement, as it is read in one piece.
-/

namespace ScriptBridge

open Syntax (Program Statement SyntaxError Trimmed AtLineEnd tokens readProgram LeavesOpen)

namespace Syntax

variable {c quote : Char} {rest cs done : List Char} {taken : Nat} {reason : Reason}

/-! ### Faults of words -/

theorem quoted_reason (h : quoted quote done taken cs = .error reason) : reason ≠ .tooDeep := by
  fun_induction quoted quote done taken cs with
  | case1 | case2 | case4 =>
    cases h
    rintro ⟨⟩
  | case3 => cases h
  | case5 done taken c _ _ _ e more ih => exact ih h
  | case6 done taken c rest _ _ _ ih => exact ih h

theorem number_reason (h : number cs = .error reason) : reason ≠ .tooDeep := by
  simp only [number] at h
  split at h
  · split at h
    · cases h
    · cases h
      rintro ⟨⟩
  · split at h
    · cases h
      rintro ⟨⟩
    · split at h <;> cases h

theorem piece_reason (h : piece c rest = .error reason) : reason ≠ .tooDeep := by
  unfold piece at h
  split_ifs at h with space continued comment lineEnd quote number_ name
  · cases read : quoted c [] 0 rest with
    | error found =>
      rw [read] at h
      cases h
      exact quoted_reason read
    | ok found =>
      rw [read] at h
      cases h
  · cases read : number (c :: rest) with
    | error found =>
      rw [read] at h
      cases h
      exact number_reason read
    | ok found =>
      rw [read] at h
      cases h
  · cases sign : symbol? c rest with
    | none =>
      rw [sign] at h
      cases h
      exact nofun
    | some found =>
      rw [sign] at h
      cases h

/-- Words do not nest, so a text whose words cannot be read is at fault. -/
theorem tokens_isSyntax {source : String} {e : SyntaxError} (h : tokens source = .error e) :
    e.isSyntax = true := by
  have all (r : Reader) (cs : List Char) (h : r.scan cs = .error e) : e.isSyntax = true := by
    induction cs generalizing r with
    | nil =>
      unfold Reader.scan scanFrom at h
      split at h
      · cases h
      · cases h
        rfl
    | cons c rest ih =>
      rw [Reader.scan_cons] at h
      cases stepped : r.step c rest with
      | ok next =>
        rw [stepped] at h
        exact ih next h
      | error fault =>
        rw [stepped] at h
        cases h
        obtain ⟨depth, here, skip, done⟩ := r
        cases skip with
        | succ skip => cases stepped
        | zero =>
          simp only [Reader.step] at stepped
          cases read : piece c rest with
          | error reason =>
            rw [read] at stepped
            cases stepped
            have shallow := piece_reason read
            cases reason <;> first | rfl | exact absurd rfl shallow
          | ok found =>
            obtain ⟨p, n⟩ := found
            rw [read] at stepped
            cases p <;> cases stepped
  exact all {} source.toList h

end Syntax

namespace Console

variable {cs : List Char} {line : String} {before rest : List String}

/-! ### Lines of a text -/

/-- Lines in a row, with line ends between them. -/
def joinLines : List String → String
  | [] => ""
  | [line] => line
  | line :: rest => line ++ "\n" ++ joinLines rest

theorem joinLines_cons (line : String) (more : rest ≠ []) :
    joinLines (line :: rest) = line ++ "\n" ++ joinLines rest := by
  cases rest with
  | nil => exact absurd rfl more
  | cons next rest => rfl

theorem joinLines_append (begun : before ≠ []) (more : rest ≠ []) :
    joinLines (before ++ rest) = joinLines before ++ "\n" ++ joinLines rest := by
  induction before with
  | nil => exact absurd rfl begun
  | cons line before ih =>
    cases before with
    | nil => exact joinLines_cons line more
    | cons next before =>
      rw [List.cons_append, joinLines_cons line (by simp), ih nofun,
        joinLines_cons line (List.cons_ne_nil next before)]
      simp only [String.append_assoc]

/-- A line with the line end that it ends in. -/
def Ended (line : List Char) : Prop := ∃ body, line = body ++ ['\n'] ∧ '\n' ∉ body

/-- Every line ends in its only line end, though the last one may have none. -/
inductive WellSplit : List (List Char) → Prop
  | nil : WellSplit []
  | last {body : List Char} : '\n' ∉ body → WellSplit [body]
  | ended {line : List Char} {more : List (List Char)} : Ended line → WellSplit more →
    WellSplit (line :: more)

theorem splitLines_flatten (cs : List Char) : (splitLines cs).flatten = cs := by
  fun_induction splitLines cs with
  | case1 => rfl
  | case2 rest ih => exact congrArg ('\n' :: ·) ih
  | case3 c rest other none ih =>
    rw [none] at ih
    exact congrArg (c :: ·) ih
  | case4 c rest other line more found ih =>
    rw [found] at ih
    exact congrArg (c :: ·) ih

theorem splitLines_wellSplit (cs : List Char) : WellSplit (splitLines cs) := by
  fun_induction splitLines cs with
  | case1 => exact .nil
  | case2 rest ih => exact .ended ⟨[], rfl, nofun⟩ ih
  | case3 c rest other none ih => exact .last (by simpa using Ne.symm other)
  | case4 c rest other line more found ih =>
    rw [found] at ih
    have apart {body : List Char} (inside : '\n' ∉ body) : '\n' ∉ c :: body :=
      List.not_mem_cons_of_ne_of_not_mem (Ne.symm other) inside
    cases ih with
    | last inside => exact .last (apart inside)
    | ended ends tail =>
      obtain ⟨body, rfl, inside⟩ := ends
      exact .ended ⟨c :: body, rfl, apart inside⟩ tail

/-- All lines that are followed by a line end in line ends. -/
theorem WellSplit.split {lines : List (List Char)} : ∀ {before : List (List Char)},
    WellSplit (before ++ lines) → lines ≠ [] → (∀ line ∈ before, Ended line) ∧ WellSplit lines
  | [], h, _ => ⟨nofun, h⟩
  | first :: before, h, filled => by
    cases ended : before ++ lines with
    | nil => exact absurd (List.append_eq_nil_iff.mp ended).2 filled
    | cons next more =>
      rw [List.cons_append, ended] at h
      cases h with
      | ended ends tail =>
        rw [← ended] at tail
        obtain ⟨all, rest⟩ := tail.split filled
        exact ⟨List.forall_mem_cons.mpr ⟨ends, all⟩, rest⟩

/-! ### Lines without their ends -/

theorem dropEnd_open {body : List Char} (inside : '\n' ∉ body) : dropEnd body = body := by
  unfold dropEnd
  split
  · rename_i found
    exact absurd (List.mem_reverse.mp (found ▸ List.mem_cons_self)) inside
  · rename_i found
    exact absurd (List.mem_reverse.mp (found ▸ List.mem_cons_self)) inside
  · rfl

theorem dropEnd_ended (body : List Char) : Trimmed body (dropEnd (body ++ ['\n'])) := by
  unfold dropEnd
  rw [List.reverse_concat']
  split
  · rename_i found
    obtain ⟨-, found⟩ := List.cons.inj found
    rw [← List.reverse_reverse body, found, List.reverse_cons]
    simpa using Trimmed.prepend _ (.carriage .text .nil)
  · rename_i found
    obtain ⟨-, rfl⟩ := List.cons.inj found
    rw [List.reverse_reverse]
    exact .refl body
  · rename_i other
    exact absurd rfl (other body.reverse)

theorem WellSplit.inside {ls : List (List Char)} (h : WellSplit ls) :
    ∀ line ∈ ls, '\n' ∉ dropEnd line := by
  induction h with
  | nil => exact nofun
  | last inside =>
    refine List.forall_mem_singleton.mpr ?_
    rwa [dropEnd_open inside]
  | ended ends _ ih =>
    obtain ⟨body, rfl, inside⟩ := ends
    refine List.forall_mem_cons.mpr ⟨?_, ih⟩
    rw [← List.count_eq_zero, (dropEnd_ended body).count_lines, List.count_eq_zero]
    exact inside

/-- A line is blank if it is blank without its end. -/
theorem blank_of_trimmed {cs ds : List Char} (h : Trimmed cs ds)
    (blank : ∀ c ∈ ds, Text.isBlank c = true) : ∀ c ∈ cs, Text.isBlank c = true := by
  induction h with
  | nil => exact blank
  | char c _ ih =>
    obtain ⟨first, blank⟩ := List.forall_mem_cons.mp blank
    exact List.forall_mem_cons.mpr ⟨first, ih blank⟩
  | carriage _ _ ih => exact List.forall_mem_cons.mpr ⟨rfl, ih blank⟩

/-- Lines joined again are the text, but for carriage returns. -/
theorem trimmed_joinLines {before : List (List Char)} (ends : ∀ line ∈ before, Ended line)
    {body last : List Char} (h : Trimmed body last) :
    Trimmed (before.flatten ++ body)
      (joinLines (before.map (fun line => String.ofList (dropEnd line)) ++
        [String.ofList last])).toList := by
  induction before with
  | nil => simpa [joinLines] using h
  | cons line before ih =>
    obtain ⟨⟨content, rfl, -⟩, rest⟩ := List.forall_mem_cons.mp ends
    have text : (joinLines (((content ++ ['\n']) :: before).map
        (fun line => String.ofList (dropEnd line)) ++ [String.ofList last])).toList =
        dropEnd (content ++ ['\n']) ++ '\n' :: (joinLines (before.map
          (fun line => String.ofList (dropEnd line)) ++ [String.ofList last])).toList := by
      rw [List.map_cons, List.cons_append, joinLines_cons _ (by simp)]
      simp
    rw [text, List.flatten_cons, List.append_assoc, List.append_assoc]
    exact (dropEnd_ended content).append (.line _) (.char _ (ih rest))

/-! ### Reading the lines -/

variable {p : String} {q : Program}

theorem lines_eq (p : String) :
    lines p = (splitLines p.toList).map fun line => String.ofList (dropEnd line) := rfl

/-- A line end at the end of a program changes nothing, unless a backslash stands before it. -/
theorem readProgram_unended {front : List Char} (text : p.toList = front ++ ['\n'])
    (last : ¬['\\', '\n'] <:+ p.toList) (h : readProgram p = .ok q) :
    readProgram (String.ofList front) = .ok q := by
  have open_ : front.getLast? ≠ some '\\' := by
    intro backslash
    obtain ⟨most, rfl⟩ := List.getLast?_eq_some_iff.mp backslash
    exact last ⟨most, by rw [text]; simp⟩
  have joined : p = String.ofList front ++ "\n" ++ "" := by
    rw [← String.toList_inj, text]
    simp
  cases words : tokens p with
  | error e =>
    unfold readProgram at h
    rw [words] at h
    cases h
  | ok ts =>
    rw [← String.ofList_toList (s := p), text] at words
    obtain ⟨us, words⟩ := Syntax.tokens_unended open_ words
    have nothing : tokens "" = .ok [⟨.newline, .start⟩, ⟨.endOfInput, .start⟩] := rfl
    rw [joined, Syntax.readProgram_words words nothing] at h
    cases read : readProgram (String.ofList front) with
    | error e =>
      rw [read] at h
      cases h
    | ok first =>
      rw [read] at h
      cases h
      exact congrArg Except.ok (List.append_nil first).symm

/-- A program is that of its lines. A backslash that continues the last line would be followed by
nothing there. -/
theorem readProgram_lines (h : readProgram p = .ok q)
    (last : ¬['\\', '\n'] <:+ p.toList) : readProgram (joinLines (lines p)) = .ok q := by
  have flat := splitLines_flatten p.toList
  have split := splitLines_wellSplit p.toList
  rw [lines_eq]
  rcases List.eq_nil_or_concat' (splitLines p.toList) with none | ⟨before, line, found⟩
  · rw [none] at flat ⊢
    have empty : p = "" := String.toList_inj.mp flat.symm
    rwa [empty] at h
  · rw [found] at flat split ⊢
    obtain ⟨ends, final⟩ := split.split (List.cons_ne_nil line [])
    rw [List.flatten_append, List.flatten_singleton] at flat
    rw [List.map_append, List.map_singleton]
    have whole {a : String} (h : readProgram a = .ok q) {last body : List Char}
        (text : a.toList = before.flatten ++ body) (same : Trimmed body last) :
        readProgram (joinLines (before.map (fun line => String.ofList (dropEnd line)) ++
          [String.ofList last])) = .ok q :=
      Syntax.readProgram_trimmed (text ▸ trimmed_joinLines ends same) h
    cases final with
    | last inside =>
      rw [dropEnd_open inside]
      exact whole h flat.symm (.refl line)
    | ended ends =>
      obtain ⟨body, rfl, -⟩ := ends
      have alone := readProgram_unended (by rw [← flat, List.append_assoc]) last h
      exact whole alone String.toList_ofList (dropEnd_ended body)

/-- The first line of some lines, and what comes behind it. -/
theorem WellSplit.first {line : List Char} {more : List (List Char)}
    (h : WellSplit (line :: more)) : ∃ body rest, line ++ more.flatten = body ++ rest ∧
      '\n' ∉ body ∧ AtLineEnd rest ∧ Trimmed body (dropEnd line) ∧
        (Text.isBlankText (String.ofList (dropEnd line)) = true →
          Text.isBlankText (String.ofList line) = true ∧ ∀ c ∈ body, Text.isBlank c = true) := by
  have blanks {cs : List Char} : Text.isBlankText (String.ofList cs) = true ↔
      ∀ c ∈ cs, Text.isBlank c = true := by
    rw [Text.isBlankText, String.toList_ofList, List.all_eq_true]
  cases h with
  | last inside =>
    refine ⟨line, [], rfl, inside, .text, ?_, fun blank => ?_⟩
    · rw [dropEnd_open inside]
      exact .refl line
    · rw [dropEnd_open inside] at blank
      exact ⟨blank, blanks.mp blank⟩
  | ended ends _ =>
    obtain ⟨body, rfl, inside⟩ := ends
    have same := dropEnd_ended body
    refine ⟨body, '\n' :: more.flatten, by simp, inside, .line _, same, fun blank => ?_⟩
    have blank := blank_of_trimmed same (blanks.mp blank)
    refine ⟨blanks.mpr fun c found => ?_, blank⟩
    rcases List.mem_append.mp found with found | last
    · exact blank c found
    · rw [List.mem_singleton.mp last]
      rfl

/-- Up to a blank line that is not the first one, the lines can be read alone. -/
theorem tokens_lines {ts : List Syntax.Token} (whole : tokens p = .ok ts)
    (shut : ∀ before line after, splitLines p.toList = before ++ line :: after →
      Text.isBlankText (String.ofList line) = true → ¬LeavesOpen (String.ofList before.flatten))
    {after : List String} (found : lines p = before ++ line :: after) (begun : before ≠ [])
    (blank : Text.isBlankText line = true) :
    ∃ us, tokens (joinLines (before ++ [line])) = .ok us := by
  rw [lines_eq] at found
  obtain ⟨front, back, split, rfl, rest⟩ := List.map_eq_append_iff.mp found
  obtain ⟨body, more, rfl, rfl, rfl⟩ := List.map_eq_cons_iff.mp rest
  obtain ⟨ends, final⟩ := (split ▸ splitLines_wellSplit p.toList).split (List.cons_ne_nil _ _)
  obtain ⟨content, behind, same, inside, ended, trimmed, blanks⟩ := final.first
  obtain ⟨all, blank⟩ := blanks blank
  have shut := shut front body more split all
  rcases List.eq_nil_or_concat' front with none | ⟨most, last, rfl⟩
  · exact absurd (by rw [none]; rfl) begun
  obtain ⟨final, rfl, -⟩ := ends last (by simp)
  have cut (cs : List Char) : (most ++ [final ++ ['\n']]).flatten ++ cs =
      most.flatten ++ final ++ '\n' :: cs := by simp
  have text : p = String.ofList (most.flatten ++ final ++ '\n' :: (content ++ behind)) := by
    rw [← String.toList_inj, ← splitLines_flatten p.toList, split, List.flatten_append,
      List.flatten_cons, same, cut, String.toList_ofList]
  rw [text] at whole
  rw [← List.append_nil (List.flatten _), cut] at shut
  obtain ⟨us, words⟩ := Syntax.tokens_blank blank inside ended shut whole
  refine (Syntax.tokens_trimmed ?_ words).imp fun _ h => h.1
  rw [String.toList_ofList, ← cut]
  exact trimmed_joinLines ends trimmed

end Console
end ScriptBridge
