import Mathlib.Data.List.Basic
import ScriptBridge.Proofs.Arithmetic.Integers
import ScriptBridge.Proofs.Grammar.Spelling
import ScriptBridge.Proofs.Lexing.Texts

/-!
# Texts of values as tokens

A value that is made of literals and tuples is shown as a script writes it. Its text is cut into the
tokens that spell a tree: the literals themselves, negative numbers behind a minus sign, and tuples.
-/

namespace ScriptBridge.Syntax

/-! ### Parts of texts -/

/-- The characters are read as tokens of these kinds before others, and no bracket stays open. -/
def Lexes (cs : List Char) (kinds : List Kind) (ahead : List Char) : Prop :=
  ∀ (depth : Nat) (here : Position) (done : List Token), ∃ ts : List Token,
    ts.map (·.kind) = kinds ∧
      Reader.scan ⟨depth, here, 0, done⟩ (cs ++ ahead) =
        Reader.scan ⟨depth, here.afterAll cs, 0, ts.reverse ++ done⟩ ahead

variable {c : Char} {cs ds ahead rest : List Char} {kind : Kind} {kinds more : List Kind}

theorem Lexes.nil : Lexes [] [] ahead := fun _ _ _ => ⟨[], rfl, rfl⟩

theorem Lexes.append (first : Lexes cs kinds (ds ++ ahead)) (second : Lexes ds more ahead) :
    Lexes (cs ++ ds) (kinds ++ more) ahead := by
  intro depth here done
  obtain ⟨ts, same, read⟩ := first depth here done
  obtain ⟨us, same', read'⟩ := second depth (here.afterAll cs) (ts.reverse ++ done)
  refine ⟨ts ++ us, by rw [List.map_append, same, same'], ?_⟩
  rw [List.append_assoc, read, read', Position.afterAll_append, List.reverse_append,
    List.append_assoc]

theorem Lexes.token (read : piece c (rest ++ ahead) = .ok (.token kind, rest.length))
    (flat : ∀ depth, kind.depthAfter depth = depth) : Lexes (c :: rest) [kind] ahead := by
  intro depth here done
  refine ⟨[⟨kind, here⟩], rfl, ?_⟩
  rw [Reader.scan_token read, flat]
  rfl

theorem Lexes.plain (plain : kind.Plain) (flat : ∀ depth, kind.depthAfter depth = depth)
    (apart : Apart ahead) : Lexes kind.spelling [kind] ahead := by
  obtain ⟨c, rest, shape, read⟩ := plain.piece apart
  rw [shape]
  exact .token read flat

theorem Lexes.space : Lexes [' '] [] ahead := fun _ _ _ => ⟨[], rfl, Reader.scan_blank [] rfl⟩

/-- A symbol of one character is read before anything. -/
theorem Reader.scan_mark (sign : Symbol) {depth : Nat} {here : Position} {done : List Token}
    (read : piece c ahead = .ok (.token (.symbol sign), 0)) :
    scan ⟨depth, here, 0, done⟩ (c :: ahead) =
      scan ⟨sign.depthAfter depth, here.after c, 0, ⟨.symbol sign, here⟩ :: done⟩ ahead := by
  have one : piece c ([] ++ ahead) = .ok (.token (.symbol sign), ([] : List Char).length) := read
  exact scan_token one

theorem Lexes.minus : Lexes ['-'] [.symbol .minus] ahead :=
  fun _ here _ => ⟨[⟨.symbol .minus, here⟩], rfl, Reader.scan_mark .minus rfl⟩

theorem Lexes.comma : Lexes [','] [.symbol .comma] ahead :=
  fun _ here _ => ⟨[⟨.symbol .comma, here⟩], rfl, Reader.scan_mark .comma rfl⟩

/-- Parentheses around what is read on its own. -/
theorem Lexes.parenthesized (inner : Lexes cs kinds (')' :: ahead)) :
    Lexes ('(' :: cs ++ [')']) (.symbol .leftParen :: kinds ++ [.symbol .rightParen]) ahead := by
  intro depth here done
  obtain ⟨ts, same, read⟩ := inner (depth + 1) (here.after '(')
    (⟨.symbol .leftParen, here⟩ :: done)
  refine ⟨⟨.symbol .leftParen, here⟩ :: ts ++
    [⟨.symbol .rightParen, (here.after '(').afterAll cs⟩], by simp [same], ?_⟩
  have opened : Reader.scan ⟨depth, here, 0, done⟩ ('(' :: (cs ++ ')' :: ahead)) =
      Reader.scan ⟨depth + 1, here.after '(', 0, ⟨.symbol .leftParen, here⟩ :: done⟩
        (cs ++ ')' :: ahead) := Reader.scan_mark .leftParen rfl
  have closed (here : Position) (done : List Token) :
      Reader.scan ⟨depth + 1, here, 0, done⟩ (')' :: ahead) =
        Reader.scan ⟨depth, here.after ')', 0, ⟨.symbol .rightParen, here⟩ :: done⟩ ahead :=
    Reader.scan_mark .rightParen rfl
  rw [List.append_assoc, List.cons_append, List.singleton_append, opened, read, closed]
  simp [Position.afterAll_append]

end ScriptBridge.Syntax

namespace ScriptBridge.Script

open Syntax

/-! ### Values that are written -/

/-- The value is made of literals and of tuples that are nested at most so deep. -/
inductive Value.Written : Nat → Value → Prop where
  | none {depth : Nat} : Written depth .none
  | bool {depth : Nat} (value : Bool) : Written depth (.bool value)
  | int {depth : Nat} {value : Int64} : value ≠ Int64.minValue → Written depth (.int value)
  | long {depth : Nat} {value : Int64} : value ≠ Int64.minValue → Written depth (.long value)
  | text {depth : Nat} {value : String} : '\\' ∉ value.toList → '\n' ∉ value.toList →
      Written depth (.text value)
  | tuple {depth : Nat} {items : List Value} : (∀ item ∈ items, Written depth item) →
      Written (depth + 1) (.tuple items)

/-- A number literal, behind a minus sign if the number is negative. -/
def signed (literal : Int64 → Literal) (value : Int64) : Expr :=
  if value < 0 then .unary .negate (.literal (literal (-value))) else .literal (literal value)

mutual

/-- The tree that the text of a value is read as. Values that are not written have none. -/
def Value.expr : Value → Expr
  | .bool value => .literal (.bool value)
  | .int value => signed .int value
  | .long value => signed .long value
  | .text value => .literal (.text value)
  | .tuple items => .tuple (Value.exprs items)
  | _ => .literal .none

def Value.exprs : List Value → List Expr
  | [] => []
  | item :: rest => item.expr :: Value.exprs rest

end

/-! ### Numbers -/

variable {value : Int64} {v : Value} {vs : List Value} {depth : Nat} {ahead : List Char}

/-- Every number but the least has a negative. -/
theorem toInt_neg_of_ne_minValue (h : value ≠ Int64.minValue) : (-value).toInt = -value.toInt := by
  have fits : InRange (-value.toInt) := by
    have notLeast : value.toInt ≠ Int64.minValue.toInt := fun same => h (Int64.toInt_inj.mp same)
    have ⟨low, high⟩ := inRange_iff.mp (inRange_toInt value)
    have least : Int64.minValue.toInt = -9223372036854775808 := rfl
    rw [inRange_iff]
    omega
  have negative : Int64.ofInt (-value.toInt) = -value := by rw [Int64.ofInt_neg, Int64.ofInt_toInt]
  rw [← negative, toInt_ofInt_of_inRange fits]

theorem neg_nonneg_of_neg (h : value ≠ Int64.minValue) (negative : value < 0) : 0 ≤ -value := by
  rw [Int64.le_iff_toInt_le, toInt_neg_of_ne_minValue h]
  have below : value.toInt < 0 := Int64.lt_iff_toInt_lt.mp negative
  show 0 ≤ -value.toInt
  omega

theorem toString_negative (h : value ≠ Int64.minValue) (negative : value < 0) :
    (toString value.toInt).toList = '-' :: (toString (-value).toInt).toList := by
  have below : value.toInt < 0 := Int64.lt_iff_toInt_lt.mp negative
  show value.toInt.repr.toList = '-' :: (-value).toInt.repr.toList
  rw [toInt_neg_of_ne_minValue h, Int.repr_eq_if, Int.repr_eq_if, if_neg (by omega),
    if_pos (by omega), String.toList_append]
  rfl

/-- The text of a number, with its mark, is read as the number behind its sign. -/
theorem signed_lexes (literal : Int64 → Literal) (mark : List Char) (h : value ≠ Int64.minValue)
    (spelling : ∀ n, (literal n).kind.spelling = (toString n.toInt).toList ++ mark)
    (plain : ∀ n, 0 ≤ n → (literal n).kind.Plain)
    (flat : ∀ n depth, (literal n).kind.depthAfter depth = depth) (apart : Apart ahead) :
    Lexes ((toString value.toInt).toList ++ mark) (signed literal value).kinds ahead := by
  by_cases negative : value < 0
  · have digits : Lexes _ _ ahead :=
      .plain (plain _ (neg_nonneg_of_neg h negative)) (flat _) apart
    rw [spelling] at digits
    rw [toString_negative h negative, signed, if_pos negative]
    exact Lexes.minus.append digits
  · have digits : Lexes _ _ ahead :=
      .plain (plain _ (Int64.not_lt.mp negative)) (flat value) apart
    rw [spelling] at digits
    rw [signed, if_neg negative]
    exact digits

/-! ### Texts -/

/-- Without backslashes and line ends, only quotes are escaped. -/
theorem quotedText_spelling {text : String} (backslash : '\\' ∉ text.toList)
    (line : '\n' ∉ text.toList) : (quotedText text).toList = (Kind.text text).spelling := by
  have same : ∀ c ∈ text.toList, (if c = '\'' then ['\\', '\''] else [c]) = escaped c := by
    intro c found
    by_cases quote : c = '\''
    · rw [if_pos quote, quote]
      rfl
    · rw [if_neg quote, escaped_plain (ne_of_mem_of_not_mem found backslash) quote
        (ne_of_mem_of_not_mem found line)]
  rw [quotedText, String.toList_ofList, List.flatMap_congr same]
  rfl

/-! ### Tuples -/

/-- The value is shown as a text that is read as the tokens of its tree. -/
def Value.IsShown (v : Value) : Prop :=
  ∃ text, v.repr? = some text ∧ ∀ ahead, Apart ahead → Lexes text.toList v.expr.kinds ahead

theorem apart_cons {c : Char} (h : endsToken c = true) (cs : List Char) : Apart (c :: cs) := by
  rintro e ⟨⟩
  exact h

/-- By induction on the values, which are separated by commas and spaces. -/
theorem Value.exprs_lexes (shown : ∀ v ∈ vs, v.IsShown) :
    ∃ texts, Value.reprs? vs = some texts ∧ texts.length = vs.length ∧ ∀ ahead, Apart ahead →
      Lexes (String.intercalate ", " texts).toList (Expr.listKinds (Value.exprs vs)) ahead := by
  induction vs with
  | nil => exact ⟨[], rfl, rfl, fun ahead _ => .nil⟩
  | cons v vs ih =>
    rw [List.forall_mem_cons] at shown
    obtain ⟨text, repr, lexes⟩ := shown.1
    obtain ⟨texts, reprs, length, lexesAll⟩ := ih shown.2
    have all : Value.reprs? (v :: vs) = some (text :: texts) := by simp only [reprs?, repr, reprs]
    refine ⟨text :: texts, all, congrArg (· + 1) length, fun ahead apart => ?_⟩
    cases vs with
    | nil =>
      obtain rfl := List.length_eq_zero_iff.mp length
      rw [String.intercalate_singleton]
      exact lexes ahead apart
    | cons u us =>
      obtain ⟨second, others, rfl⟩ := List.exists_cons_of_length_eq_add_one length
      have rest := lexesAll ahead apart
      have gap := Lexes.comma.append (Lexes.space.append rest)
      have first := (lexes _ (apart_cons (c := ',') rfl _)).append gap
      rw [String.intercalate_cons_cons, String.append_assoc, String.toList_append,
        String.toList_append]
      exact first

theorem Value.IsShown.tuple (shown : ∀ v ∈ vs, v.IsShown) : (Value.tuple vs).IsShown := by
  match vs, shown with
  | [], _ =>
    refine ⟨"()", rfl, fun ahead _ => ?_⟩
    exact Lexes.parenthesized .nil
  | [v], shown =>
    obtain ⟨text, repr, lexes⟩ := shown v (List.mem_singleton_self v)
    have all : (Value.tuple [v]).repr? = some ("(" ++ text ++ ",)") := by
      simp only [repr?, reprs?, repr]
      rfl
    refine ⟨_, all, fun ahead _ => ?_⟩
    have first := lexes (',' :: ')' :: ahead) (apart_cons rfl _)
    have whole := (first.append .comma).parenthesized
    simpa [Value.expr, Value.exprs, Expr.kinds, Expr.tupleKinds, Expr.listKinds] using whole
  | v :: u :: rest, shown =>
    obtain ⟨texts, reprs, length, lexes⟩ := exprs_lexes shown
    obtain ⟨first, others, rfl⟩ := List.exists_cons_of_length_eq_add_one length
    obtain ⟨second, others, rfl⟩ := List.exists_cons_of_length_eq_add_one (Nat.succ.inj length)
    have all : (Value.tuple (v :: u :: rest)).repr? =
        some ("(" ++ String.intercalate ", " (first :: second :: others) ++ ")") := by
      rw [repr?, reprs]
      rfl
    refine ⟨_, all, fun ahead _ => ?_⟩
    have whole := (lexes (')' :: ahead) (apart_cons rfl _)).parenthesized
    simpa [Value.expr, Value.exprs, Expr.kinds, Expr.tupleKinds, Expr.listKinds] using whole

/-- The text of a value that is written is read as the tokens that spell its tree. -/
theorem Value.Written.isShown (written : v.Written depth) : v.IsShown := by
  induction written with
  | none =>
    have plain : (Kind.keyword .none).Plain := trivial
    exact ⟨"None", rfl, fun ahead apart => .plain plain (fun _ => rfl) apart⟩
  | bool value =>
    have plain : (Kind.keyword (if value then .true else .false)).Plain := trivial
    refine ⟨_, rfl, fun ahead apart => ?_⟩
    have read := Lexes.plain plain (fun _ => rfl) apart
    cases value <;> exact read
  | int notLeast =>
    refine ⟨_, rfl, fun ahead apart => ?_⟩
    have read := signed_lexes .int [] notLeast
      (fun _ => (List.append_nil _).symm) (fun _ => id) (fun _ _ => rfl) apart
    rwa [List.append_nil] at read
  | long notLeast =>
    refine ⟨_, rfl, fun ahead apart => ?_⟩
    rw [String.toList_append]
    exact signed_lexes .long ['L'] notLeast (fun _ => rfl) (fun _ => id) (fun _ _ => rfl) apart
  | @text _ value backslash line =>
    refine ⟨_, rfl, fun ahead apart => ?_⟩
    have plain : (Kind.text value).Plain := trivial
    rw [quotedText_spelling backslash line]
    exact .plain plain (fun _ => rfl) apart
  | tuple _ ih => exact .tuple ih

end ScriptBridge.Script
