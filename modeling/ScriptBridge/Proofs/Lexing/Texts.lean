import ScriptBridge.Proofs.Lexing.Words

/-!
# Every list of tokens has source texts

Tokens in their usual spelling, with gaps between them, are read as these tokens. A gap is made of
blanks, of lines that are continued by a backslash, and inside brackets also of line ends and
comments.
-/

namespace ScriptBridge.Syntax

/-! ### Texts -/

/-- What separates tokens at a bracket depth. -/
inductive Blank (depth : Nat) : List Char → Prop where
  | space : Blank depth [' ']
  | tab : Blank depth ['\t']
  | carriageReturn : Blank depth ['\r']
  | continued : Blank depth ['\\', '\n']
  | lineEnd : 0 < depth → Blank depth ['\n']
  | comment (text : List Char) : 0 < depth → '\n' ∉ text → Blank depth ('#' :: (text ++ ['\n']))

/-- One or more blanks. -/
inductive Gap (depth : Nat) : List Char → Prop where
  | single {cs : List Char} : Blank depth cs → Gap depth cs
  | more {cs ds : List Char} : Blank depth cs → Gap depth ds → Gap depth (cs ++ ds)

/-- The tokens are written behind another one, each after a gap. -/
inductive Follows : Nat → List Kind → List Char → Prop where
  | nothing {depth : Nat} : Follows depth [] []
  | next {depth : Nat} {gap cs : List Char} {kind : Kind} {kinds : List Kind} : Gap depth gap →
      Follows (kind.depthAfter depth) kinds cs →
      Follows depth (kind :: kinds) (gap ++ (kind.spelling ++ cs))

/-- The tokens are written one after the other, with gaps between them. -/
inductive Writes : List Kind → List Char → Prop where
  | nothing : Writes [] []
  | first {kind : Kind} {kinds : List Kind} {cs : List Char} : Follows (kind.depthAfter 0) kinds cs →
      Writes (kind :: kinds) (kind.spelling ++ cs)

/-- The bracket depth behind tokens. -/
def depthAfterAll (depth : Nat) (kinds : List Kind) : Nat := kinds.foldl Kind.depthAfter depth

variable {depth : Nat} {here : Position} {done : List Token} {c : Char} {cs ds ahead rest : List Char}
  {kind : Kind} {kinds : List Kind}

theorem depthAfterAll_append (depth : Nat) (kinds more : List Kind) :
    depthAfterAll depth (kinds ++ more) = depthAfterAll (depthAfterAll depth kinds) more :=
  List.foldl_append

/-- The tokens in their usual spelling, each behind a space. -/
def spaced (kinds : List Kind) : List Char := kinds.flatMap fun kind => ' ' :: kind.spelling

theorem spaced_follows (depth : Nat) (kinds : List Kind) : Follows depth kinds (spaced kinds) := by
  induction kinds generalizing depth with
  | nil => exact .nothing
  | cons kind rest ih => exact .next (.single .space) (ih (kind.depthAfter depth))

theorem spaced_writes (kind : Kind) (kinds : List Kind) :
    Writes (kind :: kinds) (kind.spelling ++ spaced kinds) :=
  .first (spaced_follows _ kinds)

/-- Every list of tokens can be written. -/
theorem exists_writes (kinds : List Kind) : ∃ source : String, Writes kinds source.toList := by
  cases kinds with
  | nil => exact ⟨"", .nothing⟩
  | cons kind rest =>
    refine ⟨String.ofList (kind.spelling ++ spaced rest), ?_⟩
    rw [String.toList_ofList]
    exact spaced_writes kind rest

theorem Blank.apart (h : Blank depth cs) (ds : List Char) : Apart (cs ++ ds) := by
  cases h <;> exact fun e he => by cases he; rfl

theorem Gap.apart (h : Gap depth cs) (ds : List Char) : Apart (cs ++ ds) := by
  cases h with
  | single blank => exact blank.apart ds
  | more blank _ =>
    rw [List.append_assoc]
    exact blank.apart _

theorem Follows.apart (h : Follows depth kinds cs) : Apart cs := by
  cases h with
  | nothing => exact nofun
  | next gap _ => exact gap.apart _

/-! ### Reading -/

namespace Reader

/-- Characters that belong to the piece before are passed over. -/
theorem scan_skips (depth : Nat) (here : Position) (done : List Token) (cs ahead : List Char) :
    scan ⟨depth, here, cs.length, done⟩ (cs ++ ahead) =
      scan ⟨depth, here.afterAll cs, 0, done⟩ ahead := by
  induction cs generalizing here with
  | nil => rfl
  | cons c rest ih => exact ih (here.after c)

theorem scan_token (read : piece c (rest ++ ahead) = .ok (.token kind, rest.length)) :
    scan ⟨depth, here, 0, done⟩ (c :: rest ++ ahead) =
      scan ⟨kind.depthAfter depth, here.afterAll (c :: rest), 0, ⟨kind, here⟩ :: done⟩ ahead := by
  have stepped : step ⟨depth, here, 0, done⟩ c (rest ++ ahead) =
      .ok ⟨kind.depthAfter depth, here.after c, rest.length, ⟨kind, here⟩ :: done⟩ := by
    simp only [step, read]
  rw [List.cons_append, scan_cons, stepped]
  exact scan_skips _ _ _ rest ahead

variable (rest) in
theorem scan_blank (read : piece c (rest ++ ahead) = .ok (.blank, rest.length)) :
    scan ⟨depth, here, 0, done⟩ (c :: rest ++ ahead) =
      scan ⟨depth, here.afterAll (c :: rest), 0, done⟩ ahead := by
  have stepped : step ⟨depth, here, 0, done⟩ c (rest ++ ahead) =
      .ok ⟨depth, here.after c, rest.length, done⟩ := by
    simp only [step, read]
  rw [List.cons_append, scan_cons, stepped]
  exact scan_skips _ _ _ rest ahead

/-- Inside brackets a line end is no token. -/
theorem scan_lineEnd_inside (inside : 0 < depth) :
    scan ⟨depth, here, 0, done⟩ ('\n' :: ahead) = scan ⟨depth, here.after '\n', 0, done⟩ ahead := by
  have deep : (depth == 0) = false := beq_false_of_ne (Nat.ne_of_gt inside)
  have stepped : step ⟨depth, here, 0, done⟩ '\n' ahead = .ok ⟨depth, here.after '\n', 0, done⟩ := by
    show Except.ok (Reader.mk _ _ _ (if depth == 0 then _ else done)) = _
    rw [deep]
    rfl
  rw [scan_cons, stepped]
  rfl

end Reader

theorem Blank.scan (h : Blank depth cs) (here : Position) (done : List Token) (ahead : List Char) :
    Reader.scan ⟨depth, here, 0, done⟩ (cs ++ ahead) =
      Reader.scan ⟨depth, here.afterAll cs, 0, done⟩ ahead := by
  cases h with
  | space => exact Reader.scan_blank [] rfl
  | tab => exact Reader.scan_blank [] rfl
  | carriageReturn => exact Reader.scan_blank [] rfl
  | continued => exact Reader.scan_blank ['\n'] rfl
  | lineEnd inside => exact Reader.scan_lineEnd_inside inside
  | comment text inside noLine =>
    have text_only : (text ++ '\n' :: ahead).takeWhile (· != '\n') = text := by
      rw [List.takeWhile_append_of_pos fun c found =>
        bne_iff_ne.mpr (ne_of_mem_of_not_mem found noLine)]
      simp
    have read : piece '#' (text ++ '\n' :: ahead) = .ok (.blank, text.length) :=
      congrArg (fun passed : List Char => Except.ok (Piece.blank, passed.length)) text_only
    have passed : Reader.scan ⟨depth, here, 0, done⟩ _ = _ := Reader.scan_blank text read
    rw [List.cons_append, List.append_assoc, List.singleton_append, ← List.cons_append, passed,
      Reader.scan_lineEnd_inside inside, ← List.cons_append, Position.afterAll_append]
    rfl

/-- By induction on the blanks of the gap. -/
theorem Gap.scan (h : Gap depth cs) (here : Position) (done : List Token) (ahead : List Char) :
    Reader.scan ⟨depth, here, 0, done⟩ (cs ++ ahead) =
      Reader.scan ⟨depth, here.afterAll cs, 0, done⟩ ahead := by
  induction h generalizing here with
  | single blank => exact blank.scan here done ahead
  | more blank _ ih =>
    rw [List.append_assoc, blank.scan, ih, Position.afterAll_append]

/-- A token in its usual spelling is read, whatever was read before. -/
theorem Kind.Plain.scan (plain : kind.Plain) (apart : Apart ahead) (here : Position)
    (done : List Token) :
    Reader.scan ⟨depth, here, 0, done⟩ (kind.spelling ++ ahead) =
      Reader.scan ⟨kind.depthAfter depth, here.afterAll kind.spelling, 0, ⟨kind, here⟩ :: done⟩
        ahead := by
  obtain ⟨c, rest, shape, read⟩ := plain.piece apart
  rw [shape]
  exact Reader.scan_token read

/-- By induction on the tokens: what was read before stays in front of them. -/
theorem Follows.scan (h : Follows depth kinds cs) (plain : ∀ kind ∈ kinds, kind.Plain)
    (balanced : depthAfterAll depth kinds = 0) (here : Position) (done : List Token) :
    ∃ ts, Reader.scan ⟨depth, here, 0, done⟩ cs = .ok ts ∧
      ts.map (·.kind) = done.reverse.map (·.kind) ++ kinds ++ [.newline, .endOfInput] := by
  induction h generalizing here done with
  | @nothing depth =>
    have flat : depth = 0 := balanced
    refine ⟨(⟨.endOfInput, here⟩ :: ⟨.newline, here⟩ :: done).reverse, ?_, by simp⟩
    rw [flat]
    rfl
  | @next depth gap cs kind kinds between follows ih =>
    have first := plain kind List.mem_cons_self
    obtain ⟨ts, read, same⟩ := ih (fun k found => plain k (List.mem_cons_of_mem _ found)) balanced
      ((here.afterAll gap).afterAll kind.spelling) (⟨kind, here.afterAll gap⟩ :: done)
    refine ⟨ts, ?_, ?_⟩
    · rw [between.scan, first.scan follows.apart, read]
    · rw [same]
      simp

theorem Writes.scan (writes : Writes kinds cs) (plain : ∀ kind ∈ kinds, kind.Plain)
    (balanced : depthAfterAll 0 kinds = 0) :
    ∃ ts, Reader.scan {} cs = .ok ts ∧ ts.map (·.kind) = kinds ++ [.newline, .endOfInput] := by
  cases writes with
  | nothing => exact ⟨_, rfl, rfl⟩
  | @first kind kinds cs follows =>
    have read : Reader.scan {} _ = _ :=
      (plain kind List.mem_cons_self).scan follows.apart .start []
    obtain ⟨ts, rest, same⟩ := follows.scan (fun k found => plain k (List.mem_cons_of_mem _ found))
      balanced (Position.start.afterAll kind.spelling) [⟨kind, .start⟩]
    exact ⟨ts, read.trans rest, same⟩

/-- Tokens that are written in their usual spelling, with gaps between them, are read as exactly
these tokens, if the bracket depth behind them is zero. -/
theorem tokens_of_writes {source : String} (writes : Writes kinds source.toList)
    (plain : ∀ kind ∈ kinds, kind.Plain) (balanced : depthAfterAll 0 kinds = 0) :
    ∃ ts, tokens source = .ok ts ∧ ts.map (·.kind) = kinds ++ [.newline, .endOfInput] :=
  writes.scan plain balanced

/-- A call with a comment between its brackets. -/
theorem tokens_of_writes_call :
    ∃ ts, tokens "f (\t# two\n1L , 'it\\'s' )" = .ok ts ∧ ts.map (·.kind) =
      [.name "f", .symbol .leftParen, .long 1, .symbol .comma, .text "it's", .symbol .rightParen] ++
        [.newline, .endOfInput] := by
  have name : IsName "f" := ⟨⟨'f', [], rfl, by decide, rfl⟩, by decide⟩
  have inside : 0 < Kind.depthAfter 0 (.symbol .leftParen) := by decide
  refine tokens_of_writes (.first (.next (.single .space) (.next (.more .tab (.single (.comment
    " two".toList inside (by decide)))) (.next (.single .space) (.next (.single .space)
    (.next (.single .space) .nothing)))))) ?_ (by decide)
  simp [Kind.Plain, name]

end ScriptBridge.Syntax
