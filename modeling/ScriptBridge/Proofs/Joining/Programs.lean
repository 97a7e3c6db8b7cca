import Mathlib.Data.List.Forall2
import Mathlib.Data.List.ModifyLast
import ScriptBridge.Proofs.Causality.Aftermath
import ScriptBridge.Proofs.Isolation.Memory
import ScriptBridge.Proofs.Joining.Statements
import ScriptBridge.Script.Evaluator

/-!
# One source text after another

When a source text can be read, then what comes behind it on lines of its own is read as if it stood
alone, only further down: its statements follow those of the first text, and its faults are found
where they are. So two texts in a row run like the first one and then, unless that fails, the second
one; only the line that a failure leaves in its trace tells the difference.
-/

namespace ScriptBridge

namespace Syntax

variable {s : Seam} {lines : Nat} {a b : String} {ts us : List Token}

/-- The outcome of reading a program further down. -/
def Program.lowered (lines : Nat) : Except SyntaxError Program → Except SyntaxError Program
  | .ok p => .ok (p.lower lines)
  | .error e => .error (e.lower lines)

/-! ### Lists of tokens -/

/-- The tokens are of one kind, at places that correspond. -/
def Seam.Alike (s : Seam) (t t' : Token) : Prop :=
  t'.kind = t.kind ∧ s.moves t.position t'.position

/-- Lists of tokens that are alike run beside each other before a seam. -/
theorem Beside.of_front {front front' : List Token} (h : List.Forall₂ s.Alike front front')
    (inside : ∀ t ∈ front, t.kind ≠ .endOfInput) :
    Beside s front.length (front ++ ⟨s.ends, s.here⟩ :: s.after)
      (front' ++ ⟨s.ends, s.here'⟩ :: s.after') := by
  induction h with
  | nil => exact .seam
  | @cons t t' front front' same _ ih =>
    obtain ⟨first, rest⟩ := List.forall_mem_cons.mp inside
    obtain ⟨kind, p⟩ := t
    obtain ⟨_, p'⟩ := t'
    obtain ⟨rfl, moved⟩ := same
    exact .token moved first (ih rest)

/-- Up to the end of the input, a program whose tokens stand elsewhere. Neither list has to have more
fuel than it has tokens. -/
theorem statements_moved (lines : Nat) (move : Position → Position)
    (down : ∀ p, (move p).line = p.line + lines)
    {front : List Token} (p : Position) (inside : ∀ t ∈ front, t.kind ≠ .endOfInput)
    (fuel fuel' : Nat) (enough : front.length < fuel) (enough' : front.length < fuel') :
    statements fuel' (front.map (fun t => ⟨t.kind, move t.position⟩) ++ [⟨.endOfInput, move p⟩]) =
      match statements fuel (front ++ [⟨.endOfInput, p⟩]) with
      | .ok p => .ok (p.lower lines)
      | .error e => .error ⟨e.reason, move e.position⟩ := by
  let s : Seam := ⟨fun p p' => p' = move p, .endOfInput, .inr rfl, p, move p, rfl, [], []⟩
  have moved : List.Forall₂ s.Alike front (front.map fun t => ⟨t.kind, move t.position⟩) :=
    List.forall₂_map_right_iff.mpr (List.forall₂_same.mpr fun t _ => ⟨rfl, rfl⟩)
  have run : Over s lines (.ok [])
      (statements fuel (front ++ [⟨.endOfInput, p⟩]))
      (statements fuel' (front.map (fun t => ⟨t.kind, move t.position⟩) ++
        [⟨.endOfInput, move p⟩])) :=
    statements_over 0 (fun p p' (moved : p' = move p) => moved ▸ down p)
      (fun fuel => rfl) (fun fuel _ => rfl) (Beside.of_front moved inside) enough enough'
  generalize statements fuel _ = r, statements fuel' _ = r' at run ⊢
  cases run with
  | ok p => exact congrArg Except.ok (List.append_nil _)
  | error moved =>
    obtain rfl := moved
    rfl

/-- Whatever bounds the number of the statements, the program is the same. -/
theorem statements_fuel {front : List Token} {p : Position}
    (inside : ∀ t ∈ front, t.kind ≠ .endOfInput) {fuel : Nat} (enough : front.length < fuel) :
    statements fuel (front ++ [⟨.endOfInput, p⟩]) =
      Program.ofTokens (front ++ [⟨.endOfInput, p⟩]) := by
  have moved := statements_moved 0 id (fun p => rfl) p inside
    ((front ++ [(⟨.endOfInput, p⟩ : Token)]).length + 1) fuel (by grind) enough
  have same : front.map (fun t => (⟨t.kind, id t.position⟩ : Token)) = front := List.map_id front
  rw [same] at moved
  refine moved.trans ?_
  unfold Program.ofTokens
  cases statements _ _ with
  | ok p => exact congrArg Except.ok p.lower_zero
  | error e => rfl

/-- The tokens of a program further down. -/
theorem ofTokens_lower {front : List Token} {p : Position}
    (inside : ∀ t ∈ front, t.kind ≠ .endOfInput) (lines : Nat) :
    Program.ofTokens ((front ++ [(⟨.endOfInput, p⟩ : Token)]).map (Token.lower lines)) =
      Program.lowered lines (Program.ofTokens (front ++ [⟨.endOfInput, p⟩])) := by
  have enough : front.length < (front ++ [(⟨.endOfInput, p⟩ : Token)]).length + 1 := by
    grind
  have moved := statements_moved lines (Position.lower lines) (fun p => rfl) p inside _ _
    enough enough
  unfold Program.ofTokens
  rw [List.length_map, List.map_append]
  refine moved.trans ?_
  cases statements _ _ <;> rfl

/-- Before the end of a line, the tokens of a program are read as if the input ended with the line,
and those behind it are read on their own. -/
theorem ofTokens_joined {front back : List Token} {p q : Position}
    (inside : ∀ t ∈ front, t.kind ≠ .endOfInput) (inside' : ∀ t ∈ back, t.kind ≠ .endOfInput) :
    Program.ofTokens (front ++ ⟨.newline, p⟩ :: (back ++ [⟨.endOfInput, q⟩])) = (do
      let first ← Program.ofTokens (front ++ [⟨.newline, p⟩, ⟨.endOfInput, p⟩])
      let second ← Program.ofTokens (back ++ [⟨.endOfInput, q⟩])
      return first ++ second) := by
  let s : Seam := ⟨(· = ·), .newline, .inl rfl, p, p, rfl, [⟨.endOfInput, p⟩],
    back ++ [⟨.endOfInput, q⟩]⟩
  have same : List.Forall₂ s.Alike front front := List.forall₂_same.mpr fun t _ => ⟨rfl, rfl⟩
  have run (fuel fuel' : Nat) (enough : front.length < fuel)
      (enough' : front.length + back.length < fuel') :
      Over s 0 (Program.ofTokens (back ++ [⟨.endOfInput, q⟩]))
        (statements fuel (front ++ [⟨.newline, p⟩, ⟨.endOfInput, p⟩]))
        (statements fuel' (front ++ ⟨.newline, p⟩ :: (back ++ [⟨.endOfInput, q⟩]))) := by
    refine statements_over back.length (fun p p' moved => by rw [← moved]; rfl) (fun fuel => rfl)
      (fun fuel beyond => ?_) (Beside.of_front same inside) enough enough'
    exact statements_fuel inside' (Nat.lt_succ_of_le beyond)
  have run := run ((front ++ [(⟨.newline, p⟩ : Token), ⟨.endOfInput, p⟩]).length + 1)
    ((front ++ (⟨.newline, p⟩ : Token) :: (back ++ [⟨.endOfInput, q⟩])).length + 1)
    (by grind) (by grind)
  rw [Program.ofTokens.eq_def (front ++ _), Program.ofTokens.eq_def (front ++ _)]
  generalize statements _ (front ++ [_, _]) = left, statements _ (front ++ _ :: (back ++ _)) = right
    at run ⊢
  cases run with
  | ok first =>
    rw [first.lower_zero]
    cases Program.ofTokens (back ++ [⟨.endOfInput, q⟩]) <;> rfl
  | error moved =>
    obtain rfl := moved
    rfl

/-! ### Texts -/

/-- How many lines the text behind a text and a line end stands further down. -/
def linesTo (source : String) : Nat := source.toList.count '\n' + 1

theorem readProgram_eq (h : tokens a = .ok ts) : readProgram a = Program.ofTokens ts := by
  unfold readProgram
  rw [h]
  rfl

/-- The tokens of a text, up to the end of the input. -/
theorem tokens_inside (h : tokens a = .ok ts) :
    ∃ front p, ts = front ++ [⟨.endOfInput, p⟩] ∧ ∀ t ∈ front, t.kind ≠ .endOfInput := by
  obtain ⟨r, -, -, -, inside, rfl⟩ := tokens_eq_ok h
  refine ⟨r.done.reverse ++ [⟨.newline, r.here⟩], r.here, by simp, fun t found => ?_⟩
  rcases List.mem_append.mp found with before | last
  · exact inside t (List.mem_reverse.mp before)
  · obtain rfl := List.mem_singleton.mp last
    exact nofun

/-- When the words of both texts can be read, the two together are the program of the first one and
then that of the second one, and a fault of the first one comes first. -/
theorem readProgram_words (h : tokens a = .ok ts) (h' : tokens b = .ok us) :
    readProgram (a ++ "\n" ++ b) = (do
      let first ← readProgram a
      let second ← Program.lowered (linesTo a) (readProgram b)
      return first ++ second) := by
  obtain ⟨front, p, rfl, inside, joined⟩ := tokens_joined h b
  obtain ⟨back, q, rfl, inside'⟩ := tokens_inside h'
  have text : tokens (a ++ "\n" ++ b) = .ok (front ++ ⟨.newline, p⟩ ::
      (back.map (Token.lower (linesTo a)) ++ [⟨.endOfInput, q.lower (linesTo a)⟩])) := by
    rw [joined, h']
    simp [Reader.lowered, Token.lower, linesTo]
  have below : back.map (Token.lower (linesTo a)) ++ [⟨.endOfInput, q.lower (linesTo a)⟩] =
      (back ++ [(⟨.endOfInput, q⟩ : Token)]).map (Token.lower (linesTo a)) := by
    rw [List.map_append]
    rfl
  have inside_ : ∀ t ∈ back.map (Token.lower (linesTo a)), t.kind ≠ .endOfInput := by
    intro t found
    obtain ⟨t, before, rfl⟩ := List.mem_map.mp found
    exact inside' t before
  rw [readProgram_eq text, ofTokens_joined inside inside_, below, ofTokens_lower inside',
    readProgram_eq h, readProgram_eq h']

/-- Behind a text that can be read, and a line end, everything is read as it would be alone. -/
theorem readProgram_joined {p : Program} (h : readProgram a = .ok p) (b : String) :
    readProgram (a ++ "\n" ++ b) =
      (p ++ ·) <$> Program.lowered (linesTo a) (readProgram b) := by
  cases words : tokens a with
  | error e =>
    unfold readProgram at h
    rw [words] at h
    cases h
  | ok ts =>
    cases more : tokens b with
    | error e =>
      obtain ⟨front, p, -, -, joined⟩ := tokens_joined words b
      unfold readProgram
      rw [joined, more]
      rfl
    | ok us =>
      rw [readProgram_words words more, h]
      cases Program.lowered (linesTo a) (readProgram b) <;> rfl

end Syntax

/-! ### Runs -/

namespace Script

open Syntax (Program Statement)

/-- The error with the line of its last trace entry so many lines further down. That entry is the
line of the failed statement. -/
def Exception.lower (lines : Nat) (x : Exception) : Exception :=
  { x with trace := x.trace.modifyLast fun entry => ⟨entry.file, entry.line + lines⟩ }

theorem Exception.pushTrace_lower (lines : Nat) (x : Exception) (file : String) (line : Nat) :
    (x.pushTrace file line).lower lines = x.pushTrace file (line + lines) := by
  unfold pushTrace lower
  rw [List.modifyLast_concat]

variable {σ α : Type} {e : Engine σ} {ts : InterpreterId} {globals : ModuleRef} {mode : Mode}
  {file : String} {lines : Nat}

/-- What runs after every statement never fails. -/
def Engine.Settles (e : Engine σ) : Prop := ∀ w, ∃ w', e.settle w = .ok () w'

theorem Engine.settles_closed (body : InterpreterId → Scope → Syntax.Expr → ScriptM σ Value) :
    (Engine.closed body).Settles := fun _ => ⟨_, rfl⟩

/-- The world in which the pending error went through a line. -/
def World.traced (ts : InterpreterId) (file : String) (line : Nat) (w : World σ) : World σ :=
  w.onMemory (·.onInterpreter ts fun i => { i with error := i.error.map (·.pushTrace file line) })

/-- The world in which the last line of the pending error is so many lines further down. -/
def World.lowerError (ts : InterpreterId) (lines : Nat) (w : World σ) : World σ :=
  w.onMemory (·.onInterpreter ts fun i => { i with error := i.error.map (·.lower lines) })

theorem World.traced_lowerError (line : Nat) (w : World σ) :
    (w.traced ts file line).lowerError ts lines = w.traced ts file (line + lines) := by
  have both : (fun i : Interpreter => { i with error := i.error.map (Exception.lower lines) }) ∘
      (fun i : Interpreter => { i with error := i.error.map (·.pushTrace file line) }) =
      fun i : Interpreter => { i with error := i.error.map (·.pushTrace file (line + lines)) } := by
    funext i
    cases found : i.error <;> simp [found, Exception.pushTrace_lower]
  simp only [traced, lowerError, onMemory, Memory.onInterpreter_onInterpreter, both]

/-- Runs a step whose statements stand so many lines further down. -/
def further (ts : InterpreterId) (lines : Nat) (step : ScriptM σ α) : ScriptM σ α := fun w =>
  match step w with
  | .ok a w => .ok a w
  | .error x w => .error x (w.lowerError ts lines)

/-- A statement goes on to the next one or fails; its line and what follows have no say in it. -/
theorem executeAll_cases (settles : e.Settles) (statement : Statement) (w : World σ) :
    (∃ v, ∀ line rest,
      executeAll e ts globals mode file ((line, statement) :: rest) w =
        executeAll e ts globals mode file rest v) ∨
    ∃ x, ∃ v : World σ, ∀ line rest,
      executeAll e ts globals mode file ((line, statement) :: rest) w =
        .error x (v.traced ts file line) := by
  cases ran : execute e ts globals mode statement w with
  | ok _ u =>
    obtain ⟨v, settled⟩ := settles u
    have tried : (attempt (execute e ts globals mode statement) : ScriptM σ _) w =
        .ok (.ok ()) u := by simp only [attempt, ran]
    exact .inl ⟨v, fun line rest => (bind_ok tried).trans (bind_ok settled)⟩
  | error x u =>
    obtain ⟨v, settled⟩ := settles u
    have tried : (attempt (execute e ts globals mode statement) : ScriptM σ _) w =
        .ok (.error x) u := by simp only [attempt, ran]
    exact .inr ⟨x, v, fun line rest => (bind_ok tried).trans (bind_ok settled)⟩

/-- Programs in a row are run one after the other. -/
theorem executeAll_append (settles : e.Settles) (p q : Program) :
    executeAll e ts globals mode file (p ++ q) = (do
      executeAll e ts globals mode file p
      executeAll e ts globals mode file q) := by
  funext w
  induction p generalizing w with
  | nil => rfl
  | cons first rest ih =>
    obtain ⟨line, statement⟩ := first
    rcases executeAll_cases settles statement w with ⟨v, goesOn⟩ | ⟨x, v, fails⟩
    · refine (goesOn line (rest ++ q)).trans ((ih v).trans ?_)
      simp only [Bind.bind, EStateM.bind, goesOn line rest]
    · exact (fails line (rest ++ q)).trans (bind_error (fails line rest)).symm

/-- Further down, a program does the same and fails further down. -/
theorem executeAll_lower (settles : e.Settles) (p : Program) :
    executeAll e ts globals mode file (p.lower lines) =
      further ts lines (executeAll e ts globals mode file p) := by
  funext w
  induction p generalizing w with
  | nil => rfl
  | cons first rest ih =>
    obtain ⟨line, statement⟩ := first
    rcases executeAll_cases settles statement w with ⟨v, goesOn⟩ | ⟨x, v, fails⟩
    · refine (goesOn (line + lines) (Program.lower lines rest)).trans ((ih v).trans ?_)
      simp only [further, goesOn line rest]
    · refine (fails (line + lines) (Program.lower lines rest)).trans ?_
      simp only [further, fails line rest, World.traced_lowerError]

/-- A text that can be read runs its statements. -/
theorem execSource_program {source : String} {p : Program} (statements : mode ≠ .eval)
    (h : Syntax.readProgram source = .ok p) :
    execSource e ts source mode file globals = (do
      executeAll e ts globals mode file p
      return .none) := by
  cases mode with
  | eval => exact absurd rfl statements
  | single | file =>
    unfold execSource compile
    simp only [h]
    rfl

end Script

open Syntax (Program SyntaxError readProgram linesTo)
open Script (Engine InterpreterId ModuleRef Mode)

/-- Over the Host, too, letting go of views never fails. -/
theorem Bridge.engine_settles (bodies : Host.Bodies Bridge.World)
    (body : InterpreterId → Script.Scope → Syntax.Expr → Bridge.BridgeM Script.Value) :
    (Bridge.engine bodies body).Settles := fun w => by
  obtain ⟨_, u, settled, -, -⟩ := Bridge.Tidies.reclaim (ε := Script.Raised) true w
  exact ⟨u, settled⟩

/-- Two source texts in a row, the first of which can be read. If the second one can be read as
well, then both together are the statements of the first and then those of the second one, which
stand further down; and running them is running the first one and then, unless it fails, the second
one, whose failure is traced to a line further down. If the second one cannot be read, the fault is
the same, further down. -/
theorem sources_joined {a : String} {p : Program} (h : readProgram a = .ok p) (b : String) :
    (∀ e, readProgram b = .error e →
      readProgram (a ++ "\n" ++ b) = .error (e.lower (linesTo a))) ∧
    ∀ q, readProgram b = .ok q →
      readProgram (a ++ "\n" ++ b) = .ok (p ++ q.lower (linesTo a)) ∧
      ∀ {σ : Type} (e : Engine σ), e.Settles →
        ∀ (ts : InterpreterId) (mode : Mode) (file : String) (globals : ModuleRef), mode ≠ .eval →
          Script.execSource e ts (a ++ "\n" ++ b) mode file globals = (do
            let _ ← Script.execSource e ts a mode file globals
            Script.further ts (linesTo a) (Script.execSource e ts b mode file globals)) := by
  refine ⟨fun e refused => ?_, fun q accepted => ?_⟩
  · rw [Syntax.readProgram_joined h, refused]
    rfl
  · have both : readProgram (a ++ "\n" ++ b) = .ok (p ++ q.lower (linesTo a)) := by
      rw [Syntax.readProgram_joined h, accepted]
      rfl
    refine ⟨both, fun e settles ts mode file globals statements => ?_⟩
    rw [Script.execSource_program statements both, Script.execSource_program statements h,
      Script.execSource_program statements accepted, Script.executeAll_append settles,
      Script.executeAll_lower settles]
    funext w
    simp only [Bind.bind, EStateM.bind, Pure.pure, EStateM.pure, Script.further]
    cases Script.executeAll e ts globals mode file p w with
    | error x w => rfl
    | ok _ w =>
      dsimp only
      cases Script.executeAll e ts globals mode file q w <;> rfl

/-- The lines of a program that does nothing. -/
def passing? : Program → Option (List Nat)
  | [] => some []
  | (line, .pass) :: rest => (passing? rest).map (line :: ·)
  | _ => none

theorem passing?_eq_some (p : Program) :
    ∀ {lines : List Nat}, passing? p = some lines → p = lines.map fun line => (line, .pass) := by
  fun_induction passing? p with
  | case1 =>
    rintro _ ⟨⟩
    rfl
  | case2 line rest ih =>
    intro lines h
    obtain ⟨more, same, rfl⟩ := Option.map_eq_some_iff.mp h
    exact congrArg ((line, .pass) :: ·) (ih same)
  | case3 => exact nofun

/-- A text is read as statements that do nothing. -/
theorem reads_passing {source : String} (lines : List Nat)
    (h : (readProgram source).toOption.bind passing? = some lines) :
    readProgram source = .ok (lines.map fun line => (line, .pass)) := by
  cases read : readProgram source with
  | error e =>
    rw [read] at h
    cases h
  | ok p =>
    rw [read] at h
    rw [passing?_eq_some p h]

/-- A comment, a line that is continued and a blank line, and the statements around them. -/
theorem passes_joined :
    readProgram ("pass  # one\n\\\npass" ++ "\n" ++ "\npass") =
        .ok [(1, .pass), (3, .pass), (5, .pass)] ∧
      Script.execSource (Engine.alone 0 : Engine Unit) ⟨0⟩
          ("pass  # one\n\\\npass" ++ "\n" ++ "\npass") .file "f" ⟨0, "m", .main⟩ = (do
        let _ ← Script.execSource (Engine.alone 0) ⟨0⟩ "pass  # one\n\\\npass" .file "f"
          ⟨0, "m", .main⟩
        Script.further ⟨0⟩ 3 (Script.execSource (Engine.alone 0) ⟨0⟩ "\npass" .file "f"
          ⟨0, "m", .main⟩)) := by
  have first : readProgram "pass  # one\n\\\npass" = .ok [(1, .pass), (3, .pass)] :=
    reads_passing [1, 3] (by decide +kernel)
  have second : readProgram "\npass" = .ok [(2, .pass)] :=
    reads_passing [2] (by decide +kernel)
  have lines : linesTo "pass  # one\n\\\npass" = 3 := by decide +kernel
  obtain ⟨both, run⟩ := (sources_joined first "\npass").2 _ second
  rw [lines] at both run
  exact ⟨both, run _ (Engine.settles_closed _) ⟨0⟩ .file "f" ⟨0, "m", .main⟩ nofun⟩

end ScriptBridge
