import ScriptBridge.Config
import ScriptBridge.Proofs.Grammar.RoundTrip
import ScriptBridge.Proofs.Lexing.Texts
import ScriptBridge.Script.ErrorType
import ScriptBridge.Syntax.Reading

/-!
# Import statements as text

Every identifier that a bridge module may be named by is read as one word. An import statement with
the word in it is read as what it says if the word is not reserved, and is refused otherwise.
-/

namespace ScriptBridge.Syntax

variable {name source : String} {s : Statement} {k : Keyword}

/-! ### Names of bridge modules -/

theorem isAlphanumeric_of_isAlphanum {c : Char} (h : c.isAlphanum = true) :
    Text.isAlphanumeric c = true := by
  rw [Char.isAlphanum, Bool.or_eq_true] at h
  rcases h with alpha | digit
  · exact Text.isAlphanumeric_of_isLetter (Text.isLetter_of_isAlpha alpha)
  · exact Text.isAlphanumeric_of_isDigit digit

/-- An identifier is a word, and a name unless it is reserved. -/
theorem isName_of_isIdentifier (h : Config.isIdentifier name = true)
    (free : Keyword.ofSpelling? name = none) : IsName name := by
  unfold Config.isIdentifier at h
  split at h
  · cases h
  · rename_i c rest shape
    rw [Bool.and_eq_true, Bool.not_eq_true', List.all_cons, Bool.and_eq_true, List.all_eq_true] at h
    obtain ⟨digitless, first, more⟩ := h
    refine ⟨⟨c, rest, shape, ?_, List.all_eq_true.mpr fun d hd => ?_⟩, free⟩
    · rw [Char.isAlphanum, digitless, Bool.or_false, Bool.or_eq_true] at first
      rw [startsName, Bool.or_eq_true]
      exact first.imp_left Text.isLetter_of_isAlpha
    · have continues := more d hd
      rw [Bool.or_eq_true] at continues
      rw [continuesName, Bool.or_eq_true]
      exact continues.imp_left isAlphanumeric_of_isAlphanum

theorem no_dot_of_isIdentifier (h : Config.isIdentifier name = true) : '.' ∉ name.toList := by
  intro dotted
  unfold Config.isIdentifier at h
  split at h
  · cases h
  · rename_i c rest shape
    rw [Bool.and_eq_true] at h
    rw [shape] at dotted
    exact absurd (List.all_eq_true.mp h.2 '.' dotted) (by decide)

theorem pathWords_of_isIdentifier (h : Config.isIdentifier name = true) :
    pathWords name = [name] := by
  have whole : name.toList.splitOn '.' = [name.toList] :=
    List.splitOn_eq_singleton (no_dot_of_isIdentifier h)
  rw [pathWords, whole, List.map_singleton, String.ofList_toList]

theorem lastSegment_of_no_dot (h : '.' ∉ name.toList) :
    Script.ErrorType.lastSegment name = name := by
  have whole : name.toList.reverse.takeWhile (· != '.') = name.toList.reverse :=
    List.takeWhile_eq_self_iff.mpr fun c hc => bne_iff_ne.mpr fun dot =>
      h (dot ▸ List.mem_reverse.mp hc)
  rw [Script.ErrorType.lastSegment, whole, List.reverse_reverse, String.ofList_toList]

theorem spelling_of_ofSpelling? (h : Keyword.ofSpelling? name = some k) : k.spelling = name :=
  beq_iff_eq.mp (List.find?_some (p := fun k : Keyword => k.spelling == name) h)

/-! ### Texts of tokens -/

/-- Words with spaces between them are read as these words. -/
theorem readProgram_spaced {kinds : List Kind} {first : Kind}
    (written : source.toList = first.spelling ++ spaced kinds)
    (plain : ∀ kind ∈ first :: kinds, kind.Plain) (balanced : depthAfterAll 0 (first :: kinds) = 0) :
    ∃ ts, readProgram source = Program.ofTokens ts ∧
      ts.map (·.kind) = first :: kinds ++ [.newline, .endOfInput] := by
  have writes := spaced_writes first kinds
  rw [← written] at writes
  obtain ⟨ts, scanned, same⟩ := writes.scan plain balanced
  have read : tokens source = .ok ts := scanned
  refine ⟨ts, ?_, same⟩
  rw [readProgram, read]
  rfl

/-- Tokens of one statement are parsed as this statement. -/
theorem ofTokens_statement {ts : List Token}
    (spelt : ts.map (·.kind) = s.kinds ++ [.newline, .endOfInput]) (listed : s.Listed)
    (fits : s.Fits) : ∃ line, Program.ofTokens ts = .ok [(line, s)] := by
  obtain ⟨front, back, rfl, kinds, closing⟩ := List.map_eq_append_iff.mp spelt
  obtain ⟨⟨_, lineEnd⟩, final, rfl, rfl, ends⟩ := List.map_eq_cons_iff.mp closing
  obtain ⟨⟨_, last⟩, rest, rfl, rfl, nothing⟩ := List.map_eq_cons_iff.mp ends
  obtain rfl := List.map_eq_nil_iff.mp nothing
  have spells : Program.Spells [((nextPosition front).line, s)]
      (front ++ ⟨.newline, lineEnd⟩ :: [⟨.endOfInput, last⟩]) :=
    .cons lineEnd kinds rfl (.nil last)
  exact ⟨_, (statements_reads spells (by simpa [Program.Listed] using listed)
    (Nat.lt_succ_of_lt spells.length_le)).1 (by simpa [Program.Fits] using fits)⟩

/-- Where the name of a module has to stand, a reserved word is refused. -/
theorem ofTokens_reserved {first : Keyword} (imports : first = .imports ∨ first = .froms)
    {ts : List Token} {rest : List Kind}
    (spelt : ts.map (·.kind) = .keyword first :: .keyword k :: rest) :
    ∃ p, Program.ofTokens ts = .error ⟨.unexpected .moduleName (.keyword k), p⟩ := by
  obtain ⟨⟨_, p⟩, others, rfl, rfl, back⟩ := List.map_eq_cons_iff.mp spelt
  obtain ⟨⟨_, q⟩, more, rfl, rfl, -⟩ := List.map_eq_cons_iff.mp back
  rcases imports with rfl | rfl <;> exact ⟨q, rfl⟩

/-! ### Import statements -/

theorem import_spaced (word : Kind) (spelt : word.spelling = name.toList) :
    ("import " ++ name).toList = (Kind.keyword .imports).spelling ++ spaced [word] := by
  simp only [spaced, List.flatMap_cons, spelt]
  simp [Kind.spelling, Keyword.spelling]

theorem from_spaced (word : Kind) (spelt : word.spelling = name.toList) :
    ("from " ++ name ++ " import findClass").toList = (Kind.keyword .froms).spelling ++
      spaced [word, .keyword .imports, .name "findClass"] := by
  simp only [spaced, List.flatMap_cons, spelt]
  simp [Kind.spelling, Keyword.spelling]

theorem isName_findClass : IsName "findClass" :=
  ⟨⟨'f', "indClass".toList, rfl, by decide, by decide⟩, by decide⟩

/-- The statements that import a module and one of its functions are read as such, unless the name
is reserved. -/
theorem readProgram_imports (identifier : Config.isIdentifier name = true)
    (free : Keyword.ofSpelling? name = none) :
    (∃ line, readProgram ("import " ++ name) = .ok [(line, .imports name none)]) ∧
      ∃ line, readProgram ("from " ++ name ++ " import findClass") =
        .ok [(line, .fromImport name (.listed [("findClass", none)]))] := by
  have words := pathWords_of_isIdentifier identifier
  have named := isName_of_isIdentifier identifier free
  constructor
  · have kinds : (Statement.imports name none).kinds = [.keyword .imports, .name name] := by
      rw [Statement.kinds, words]
      rfl
    obtain ⟨ts, read, spelt⟩ := readProgram_spaced (import_spaced (.name name) rfl)
      (by simpa [Kind.Plain] using named) rfl
    rw [read]
    exact ofTokens_statement (by rw [kinds]; exact spelt) trivial trivial
  · have kinds : (Statement.fromImport name (.listed [("findClass", none)])).kinds =
        [.keyword .froms, .name name, .keyword .imports, .name "findClass"] := by
      rw [Statement.kinds, words]
      rfl
    obtain ⟨ts, read, spelt⟩ := readProgram_spaced (from_spaced (.name name) rfl)
      (by simpa [Kind.Plain] using ⟨named, isName_findClass⟩) rfl
    rw [read]
    exact ofTokens_statement (by rw [kinds]; exact spelt) (List.cons_ne_nil _ _) trivial

/-- No module of a reserved name can be imported. -/
theorem readProgram_reserved (reserved : Keyword.ofSpelling? name = some k) :
    (∃ p, readProgram ("import " ++ name) = .error ⟨.unexpected .moduleName (.keyword k), p⟩) ∧
      ∃ p, readProgram ("from " ++ name ++ " import findClass") =
        .error ⟨.unexpected .moduleName (.keyword k), p⟩ := by
  obtain rfl := spelling_of_ofSpelling? reserved
  constructor
  · obtain ⟨ts, read, spelt⟩ := readProgram_spaced (import_spaced (.keyword k) rfl)
      (by simp [Kind.Plain]) rfl
    rw [read]
    exact ofTokens_reserved (.inl rfl) spelt
  · obtain ⟨ts, read, spelt⟩ := readProgram_spaced (from_spaced (.keyword k) rfl)
      (by simp [Kind.Plain, isName_findClass]) rfl
    rw [read]
    exact ofTokens_reserved (.inr rfl) spelt

end ScriptBridge.Syntax
