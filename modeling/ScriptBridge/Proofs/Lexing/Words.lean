import ScriptBridge.Proofs.Joining.Reader

/-!
# Tokens in their usual spelling

How each kind of token is usually written, and that it is read as that token when nothing follows
that could go on with it. A float has no usual spelling, and line ends and the end of the input are
not written.
-/

namespace ScriptBridge.Syntax

variable {c e : Char} {cs ds ahead : List Char} {kind : Kind}

/-! ### Spellings -/

/-- A character as it stands in a string literal in single quotes. -/
def escaped (c : Char) : List Char :=
  match c with
  | '\\' => ['\\', '\\']
  | '\'' => ['\\', '\'']
  | '\n' => ['\\', 'n']
  | c => [c]

/-- How a token of the kind is usually written. -/
def Kind.spelling : Kind → List Char
  | .integer value => (toString value.toInt).toList
  | .long value => (toString value.toInt).toList ++ ['L']
  | .text value => '\'' :: (value.toList.flatMap escaped ++ ['\''])
  | .name word => word.toList
  | .keyword word => word.spelling.toList
  | .symbol sign => sign.spelling.toList
  | .float _ | .newline | .endOfInput => []

/-- A word that is read as a name. -/
structure IsName (word : String) : Prop where
  shape : ∃ c rest, word.toList = c :: rest ∧ startsName c = true ∧ rest.all continuesName = true
  free : Keyword.ofSpelling? word = none

/-- The kinds that have a usual spelling. -/
def Kind.Plain : Kind → Prop
  | .integer value | .long value => 0 ≤ value
  | .name word => IsName word
  | .text _ | .keyword _ | .symbol _ => True
  | .float _ | .newline | .endOfInput => False

/-! ### What may follow -/

/-- The character cannot go on with a token: a gap begins with it, or it is a comma or a closing
parenthesis. -/
def endsToken (c : Char) : Bool :=
  c == ' ' || c == '\t' || c == '\r' || c == '\\' || c == '\n' || c == '#' || c == ',' || c == ')'

/-- Nothing follows that could go on with a token. -/
def Apart (ahead : List Char) : Prop := ∀ e ∈ ahead.head?, endsToken e = true

theorem endsToken_cases (h : endsToken e = true) :
    e = ' ' ∨ e = '\t' ∨ e = '\r' ∨ e = '\\' ∨ e = '\n' ∨ e = '#' ∨ e = ',' ∨ e = ')' := by
  simpa [endsToken, or_assoc] using h

/-- A run of characters goes no further than its token. -/
theorem Apart.takeWhile {goesOn : Char → Bool} (apart : Apart ahead)
    (ends : ∀ e, endsToken e = true → goesOn e = false) (all : cs.all goesOn = true) :
    (cs ++ ahead).takeWhile goesOn = cs := by
  rw [List.takeWhile_append_of_pos (List.all_eq_true.mp all)]
  cases ahead with
  | nil => simp
  | cons e more => simp [ends e (apart e rfl)]

/-! ### String literals -/

theorem escaped_plain (backslash : c ≠ '\\') (quote : c ≠ '\'') (line : c ≠ '\n') :
    escaped c = [c] := by
  unfold escaped
  split <;> simp_all

theorem quoted_closes (done : List Char) (taken : Nat) :
    quoted '\'' done taken ('\'' :: ahead) = .ok (String.ofList done.reverse, taken + 1) := by
  rw [quoted.eq_def]
  rfl

theorem quoted_escapes (done : List Char) (taken : Nat) :
    quoted '\'' done taken ('\\' :: e :: ahead) =
      quoted '\'' ((unescape e).reverse ++ done) (taken + 2) ahead := by
  rw [quoted.eq_def]
  rfl

theorem quoted_goes_on (done : List Char) (taken : Nat) (backslash : c ≠ '\\') (quote : c ≠ '\'')
    (line : c ≠ '\n') :
    quoted '\'' done taken (c :: ahead) = quoted '\'' (c :: done) (taken + 1) ahead := by
  rw [quoted.eq_def]
  simp only [beq_false_of_ne backslash, beq_false_of_ne quote, beq_false_of_ne line,
    Bool.false_eq_true, if_false]

variable (ahead) in
/-- By induction on the text, the characters of which come out one by one. -/
theorem quoted_escaped (text done : List Char) (taken : Nat) :
    quoted '\'' done taken (text.flatMap escaped ++ '\'' :: ahead) =
      .ok (String.ofList (done.reverse ++ text), taken + (text.flatMap escaped).length + 1) := by
  induction text generalizing done taken with
  | nil =>
    rw [List.append_nil]
    exact quoted_closes done taken
  | cons c rest ih =>
    rw [List.flatMap_cons, List.append_assoc, List.length_append]
    have escape (e : Char) (shape : escaped c = ['\\', e]) (means : unescape e = [c]) :
        quoted '\'' done taken (escaped c ++ (rest.flatMap escaped ++ '\'' :: ahead)) =
          .ok (String.ofList (done.reverse ++ c :: rest),
            taken + ((escaped c).length + (rest.flatMap escaped).length) + 1) := by
      have two : (escaped c).length = 2 := by rw [shape]; rfl
      rw [two, shape, List.cons_append, List.singleton_append, quoted_escapes, ih, means]
      simp [Nat.add_assoc]
    by_cases backslash : c = '\\'
    · exact escape '\\' (by rw [backslash]; rfl) (by rw [backslash]; rfl)
    by_cases quote : c = '\''
    · exact escape '\'' (by rw [quote]; rfl) (by rw [quote]; rfl)
    by_cases line : c = '\n'
    · exact escape 'n' (by rw [line]; rfl) (by rw [line]; rfl)
    rw [escaped_plain backslash quote line, List.singleton_append,
      quoted_goes_on done taken backslash quote line, ih]
    simp only [List.reverse_cons, List.append_assoc, List.singleton_append, List.length_singleton,
      Nat.add_assoc]

/-! ### Numbers -/

/-- The character goes on with a number, or it turns it into a float. -/
def goesOnNumber (c : Char) : Bool :=
  c.isDigit || c == '_' || c == '.' || c == 'e' || c == 'E'

theorem numeral_stops {n : Numeral} (plain : n.atExponent = false)
    (stops : ∀ e ∈ ahead.head?, goesOnNumber e = false) : numeral n ahead = n := by
  cases ahead with
  | nil => rfl
  | cons e more =>
    have stops := stops e rfl
    simp only [goesOnNumber, Bool.or_eq_false_iff] at stops
    obtain ⟨⟨⟨⟨digit, underscore⟩, point⟩, mark⟩, upper⟩ := stops
    simp only [numeral, digit, plain, underscore, point, mark, upper, Bool.false_and, Bool.or_false,
      Bool.false_eq_true, if_false]

/-- Digits are taken one by one. -/
theorem numeral_digits {n : Numeral} (plain : n.atExponent = false) (digits : cs.all Char.isDigit)
    (stops : ∀ e ∈ ahead.head?, goesOnNumber e = false) :
    numeral n (cs ++ ahead) =
      { n with literal := cs.reverse ++ n.literal, length := n.length + cs.length } := by
  induction cs generalizing n with
  | nil => exact numeral_stops plain stops
  | cons c rest ih =>
    rw [List.all_cons, Bool.and_eq_true] at digits
    rw [List.cons_append, numeral, digits.1, Bool.true_or, if_pos rfl, ih rfl digits.2]
    simp only [Numeral.push, plain, List.reverse_cons, List.append_assoc, List.singleton_append,
      List.length_cons, Nat.add_assoc, Nat.add_comm 1]

/-- The digits of a number that is not negative. -/
def digits (value : Int64) : List Char := Nat.toDigits 10 value.toInt.toNat

theorem toList_toString_toInt {value : Int64} (h : 0 ≤ value) :
    (toString value.toInt).toList = digits value := by
  have positive : 0 ≤ value.toInt := Int64.le_iff_toInt_le.mp h
  show value.toInt.repr.toList = _
  rw [Int.repr_eq_if, if_pos positive, Nat.repr_eq_ofList_toDigits, String.toList_ofList]
  rfl

theorem digits_isDigit (value : Int64) : (digits value).all Char.isDigit = true :=
  List.all_eq_true.mpr fun _ found =>
    Nat.isDigit_of_mem_toDigits (by decide) (by decide) found

theorem digits_cons (value : Int64) :
    ∃ c rest, digits value = c :: rest ∧ c.isDigit = true ∧ rest.all Char.isDigit = true := by
  obtain ⟨c, rest, shape⟩ := List.exists_cons_of_ne_nil
    (Nat.toDigits_ne_nil (n := value.toInt.toNat) (b := 10))
  have all := digits_isDigit value
  rw [digits, shape, List.all_cons, Bool.and_eq_true] at all
  exact ⟨c, rest, shape, all.1, all.2⟩

theorem readInt64?_digits {value : Int64} (h : 0 ≤ value) :
    Decimal.readInt64? (digits value) = some value := by
  have positive : 0 ≤ value.toInt := Int64.le_iff_toInt_le.mp h
  obtain ⟨c, rest, shape, first, -⟩ := digits_cons value
  have unsigned : Decimal.splitSign (digits value) = (false, digits value) := by
    rw [shape, Decimal.splitSign.eq_def]
    split
    · rename_i sign
      cases sign
      cases first
    · rename_i sign
      cases sign
      cases first
    · rfl
  have amount : Decimal.digitsValue (digits value) = value.toInt.toNat :=
    Nat.ofDigitChars_toDigits (by decide) (by decide)
  have whole : Decimal.readNat? (digits value) = some value.toInt.toNat := by
    rw [Decimal.readNat?, digits_isDigit, amount, shape]
    rfl
  have fits : Int64.minValue.toInt ≤ value.toInt ∧ value.toInt ≤ Int64.maxValue.toInt :=
    ⟨value.minValue_le_toInt, value.toInt_le⟩
  have size : ((value.toInt.toNat : Nat) : Int) = value.toInt := Int.toNat_of_nonneg positive
  simp only [Decimal.readInt64?, Decimal.readInt?, unsigned, whole, size, Bool.false_eq_true,
    if_false, fits, decide_true, Bool.and_self, if_true, Option.map_some, Int64.ofInt_toInt]

theorem goesOnNumber_of_endsToken (h : endsToken e = true) : goesOnNumber e = false := by
  rcases endsToken_cases h with rfl | rfl | rfl | rfl | rfl | rfl | rfl | rfl <;> rfl

variable (ahead) in
theorem numeral_spelled (value : Int64) (stops : ∀ e ∈ ahead.head?, goesOnNumber e = false) :
    numeral {} (digits value ++ ahead) =
      { literal := (digits value).reverse, length := (digits value).length } := by
  rw [numeral_digits rfl (digits_isDigit value) stops]
  simp only [List.append_nil, Nat.zero_add]

theorem number_integer {value : Int64} (h : 0 ≤ value) (apart : Apart ahead) :
    number (digits value ++ ahead) = .ok (.integer value, (digits value).length) := by
  have read := numeral_spelled ahead value fun e he => goesOnNumber_of_endsToken (apart e he)
  simp only [number, read, Bool.false_eq_true, if_false, List.reverse_reverse,
    readInt64?_digits h, List.drop_left]
  split
  · cases apart 'L' rfl
  · cases apart 'l' rfl
  · rfl

variable (ahead) in
theorem number_long {value : Int64} (h : 0 ≤ value) :
    number (digits value ++ 'L' :: ahead) = .ok (.long value, (digits value).length + 1) := by
  have read := numeral_spelled ('L' :: ahead) value (by rintro e ⟨⟩; rfl)
  simp only [number, read, Bool.false_eq_true, if_false, List.reverse_reverse,
    readInt64?_digits h, List.drop_left]

/-! ### Pieces -/

theorem beq_false_of_class {p : Char → Bool} {m : Char} (h : p c = true) (no : p m = false) :
    (c == m) = false := by
  refine beq_false_of_ne ?_
  rintro rfl
  exact Bool.noConfusion (h.symm.trans no)

theorem piece_number (h : c.isDigit = true) (rest : List Char) :
    piece c rest =
      (number (c :: rest)).map fun (kind, length) => (.token kind, length - 1) := by
  have other (m : Char) (no : m.isDigit = false) := beq_false_of_class h no
  simp only [piece, other ' ' rfl, other '\t' rfl, other '\r' rfl, other '\\' rfl, other '#' rfl,
    other '\n' rfl, other '"' rfl, other '\'' rfl, startsNumber, h, Bool.false_and, Bool.or_false,
    Bool.true_or, Bool.false_eq_true, if_false, if_true]

theorem isDigit_of_startsName (h : startsName c = true) : c.isDigit = false := by
  refine Bool.eq_false_iff.mpr fun digit => ?_
  simp only [Char.isDigit, Bool.and_eq_true, decide_eq_true_eq, ge_iff_le,
    UInt32.le_iff_toNat_le] at digit
  have code : c.val.toNat = c.toNat := rfl
  delta startsName Text.isLetter Char.isAlpha Char.isUpper Char.isLower at h
  simp only [Bool.or_eq_true, Bool.and_eq_true, decide_eq_true_eq, beq_iff_eq, ge_iff_le,
    UInt32.le_iff_toNat_le] at h
  rcases h with ((⟨low, -⟩ | ⟨low, -⟩) | ⟨low, -⟩) | rfl
  · exact absurd (Nat.le_trans low digit.2) (by decide)
  · exact absurd (Nat.le_trans low digit.2) (by decide)
  · exact absurd (Nat.le_trans low (code ▸ digit.2)) (by decide)
  · exact absurd digit.2 (by decide)

theorem piece_word (h : startsName c = true) (rest : List Char) :
    piece c rest = .ok (.token (word (String.ofList (c :: rest.takeWhile continuesName))),
      (rest.takeWhile continuesName).length) := by
  have other (m : Char) (no : startsName m = false) := beq_false_of_class h no
  simp only [piece, other ' ' rfl, other '\t' rfl, other '\r' rfl, other '\\' rfl, other '#' rfl,
    other '\n' rfl, other '"' rfl, other '\'' rfl, other '.' rfl, startsNumber,
    isDigit_of_startsName h, h, Bool.false_and, Bool.or_false, Bool.false_eq_true, if_false, if_true]

/-- A word is read to its end. -/
theorem piece_spelled {spelled : String} (shape : spelled.toList = c :: cs)
    (first : startsName c = true) (all : cs.all continuesName = true) (apart : Apart ahead) :
    piece c (cs ++ ahead) = .ok (.token (word spelled), cs.length) := by
  have stops (e : Char) (h : endsToken e = true) : continuesName e = false := by
    rcases endsToken_cases h with rfl | rfl | rfl | rfl | rfl | rfl | rfl | rfl <;> rfl
  rw [piece_word first, apart.takeWhile stops all, ← shape, String.ofList_toList]

theorem piece_symbol (sign : Symbol) (apart : Apart ahead) :
    ∃ c rest, sign.spelling.toList = c :: rest ∧
      piece c (rest ++ ahead) = .ok (.token (.symbol sign), rest.length) := by
  cases ahead with
  | nil => cases sign <;> exact ⟨_, _, rfl, rfl⟩
  | cons e more =>
    rcases endsToken_cases (apart e rfl) with rfl | rfl | rfl | rfl | rfl | rfl | rfl | rfl <;>
      cases sign <;> exact ⟨_, _, rfl, rfl⟩

/-- A token in its usual spelling is read as that token. -/
theorem Kind.Plain.piece (h : kind.Plain) (apart : Apart ahead) :
    ∃ c rest, kind.spelling = c :: rest ∧
      piece c (rest ++ ahead) = .ok (.token kind, rest.length) := by
  cases kind with
  | float | newline | endOfInput => exact h.elim
  | integer value =>
    obtain ⟨c, rest, shape, first, -⟩ := digits_cons value
    refine ⟨c, rest, (toList_toString_toInt h).trans shape, ?_⟩
    have read := number_integer h apart
    rw [shape] at read
    rw [piece_number first, ← List.cons_append, read]
    rfl
  | long value =>
    obtain ⟨c, rest, shape, first, -⟩ := digits_cons value
    have spelt : spelling (.long value) = c :: (rest ++ ['L']) := by
      rw [spelling, toList_toString_toInt h, shape]
      rfl
    refine ⟨c, rest ++ ['L'], spelt, ?_⟩
    have read := number_long ahead h
    rw [shape] at read
    rw [piece_number first, List.append_assoc, List.singleton_append, ← List.cons_append, read]
    simp [Except.map]
  | text value =>
    refine ⟨'\'', _, rfl, ?_⟩
    have read := quoted_escaped ahead value.toList [] 0
    rw [piece_quote rfl, List.append_assoc, List.singleton_append, read]
    simp [Except.map]
  | name word =>
    obtain ⟨⟨c, rest, shape, first, all⟩, free⟩ := h
    refine ⟨c, rest, shape, ?_⟩
    rw [piece_spelled shape first all apart, Syntax.word, free]
  | keyword word =>
    have spelt : ∃ c rest, word.spelling.toList = c :: rest ∧ startsName c = true ∧
        rest.all continuesName = true := by
      cases word <;> exact ⟨_, _, rfl, by decide, by decide⟩
    have reserved : Syntax.word word.spelling = .keyword word := by cases word <;> decide
    obtain ⟨c, rest, shape, first, all⟩ := spelt
    exact ⟨c, rest, shape, by rw [piece_spelled shape first all apart, reserved]⟩
  | symbol sign => exact piece_symbol sign apart

end ScriptBridge.Syntax
