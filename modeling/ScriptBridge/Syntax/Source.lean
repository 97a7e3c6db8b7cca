import ScriptBridge.Syntax.Lexeme

/-!
# Source texts

A source text is read piece by piece from its first character to its last. The reader carries the
bracket depth, the position, and the number of characters that still belong to the piece before;
so every position is that of a character counted from the start. A line end is a token only
outside brackets, and every source ends with a line end of its own.
-/

namespace ScriptBridge.Syntax

/-- Reads the pieces of `cs`. `skip` characters belong to the piece before; `done` holds the
tokens so far, last one first. -/
def scanFrom (depth : Nat) (here : Position) (skip : Nat) (done : List Token) :
    List Char → Except SyntaxError (List Token)
  | [] =>
    if depth == 0 then
      .ok ((⟨.endOfInput, here⟩ :: ⟨.newline, here⟩ :: done).reverse)
    else .error ⟨.unexpectedEnd .closingBracket, here⟩
  | c :: rest =>
    match skip with
    | skip + 1 => scanFrom depth (here.after c) skip done rest
    | 0 =>
      match piece c rest with
      | .error reason => .error ⟨reason, here⟩
      | .ok (.blank, taken) => scanFrom depth (here.after c) taken done rest
      | .ok (.lineEnd, taken) =>
        let done := if depth == 0 then ⟨.newline, here⟩ :: done else done
        scanFrom depth (here.after c) taken done rest
      | .ok (.token kind, taken) =>
        scanFrom (kind.depthAfter depth) (here.after c) taken (⟨kind, here⟩ :: done) rest

/-- The tokens of a source text. -/
def tokens (source : String) : Except SyntaxError (List Token) :=
  scanFrom 0 .start 0 [] source.toList

end ScriptBridge.Syntax
