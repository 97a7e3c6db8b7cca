import ScriptBridge.Decimal.Reader

/-!
# Configuration documents

Reads the TOML format: keys with values, tables under headers, and arrays of tables. Every value
is checked, but only texts and truth values are kept; of the others it is only known that they
are there. A document in which a key or a table is defined twice is refused.
-/

namespace ScriptBridge.Config.Toml

/-- A value other than a table under a header. -/
inductive Leaf where
  | text (value : String)
  | bool (value : Bool)
  /-- A number, a date, an array or an inline table. -/
  | other
deriving DecidableEq

/-- How a table came about. -/
inductive TableOrigin where
  /-- Named on the way to a header. -/
  | implied
  /-- Named by a header. -/
  | header
  /-- Named on the way to a dotted key. -/
  | dotted
deriving DecidableEq

inductive Item where
  | leaf (value : Leaf)
  | table (origin : TableOrigin) (entries : List (String × Item))
  /-- An array of tables, last one first. -/
  | tables (items : List (List (String × Item)))

abbrev Entries := List (String × Item)

/-- A step of reading takes characters from the front; nothing is known about a failure. -/
abbrev Reader (α : Type) := List Char → Option (α × List Char)

/-! ### Blanks -/

def isSpace (c : Char) : Bool := c == ' ' || c == '\t'

def skipSpaces (cs : List Char) : List Char := cs.dropWhile isSpace

/-- Characters that may not stand in a comment or a text. -/
def isControl (c : Char) : Bool := (c.toNat < 0x20 && c != '\t') || c.toNat == 0x7F

/-- The end of a line, if one is here. -/
def newline? : List Char → Option (List Char)
  | '\n' :: rest => some rest
  | '\r' :: '\n' :: rest => some rest
  | _ => none

/-- Drops spaces and a comment. -/
def skipComment (cs : List Char) : Option (List Char) :=
  match skipSpaces cs with
  | '#' :: rest =>
    let isInside (c : Char) : Bool := c != '\n' && c != '\r'
    if (rest.takeWhile isInside).any isControl then none else some (rest.dropWhile isInside)
  | rest => some rest

/-- The rest of a line that holds nothing more. -/
def endLine (cs : List Char) : Option (List Char) := do
  match ← skipComment cs with
  | [] => some []
  | rest => newline? rest

/-- Drops spaces, comments and line ends inside an array. -/
def skipBlanks : (fuel : Nat) → List Char → Option (List Char)
  | 0, _ => none
  | fuel + 1, cs => do
    let rest ← skipComment cs
    match newline? rest with
    | some rest => skipBlanks fuel rest
    | none => some rest

/-! ### Texts -/

def hexValue? (c : Char) : Option Nat :=
  if c.isDigit then some (c.toNat - '0'.toNat)
  else if 'a' ≤ c && c ≤ 'f' then some (c.toNat - 'a'.toNat + 10)
  else if 'A' ≤ c && c ≤ 'F' then some (c.toNat - 'A'.toNat + 10)
  else none

/-- A character given by `count` hexadecimal digits. -/
def hexChar (count : Nat) : Reader Char := fun cs => do
  let digits := cs.take count
  if digits.length < count then none
  else
    let code ← digits.foldlM (fun code c => (hexValue? c).map (16 * code + ·)) 0
    if code < 0xD800 || (0xDFFF < code && code < 0x110000) then
      some (Char.ofNat code, cs.drop count)
    else none

/-- The character after a backslash. -/
def escape : Reader Char
  | 'b' :: rest => some ('\x08', rest)
  | 't' :: rest => some ('\t', rest)
  | 'n' :: rest => some ('\n', rest)
  | 'f' :: rest => some ('\x0c', rest)
  | 'r' :: rest => some ('\r', rest)
  | '"' :: rest => some ('"', rest)
  | '\\' :: rest => some ('\\', rest)
  | 'u' :: rest => hexChar 4 rest
  | 'U' :: rest => hexChar 8 rest
  | _ => none

/-- The rest of a text on one line; `done` is what was read, last character first. -/
def lineText (quote : Char) (escapes : Bool) : (fuel : Nat) → (done : List Char) → Reader String
  | 0, _, _ => none
  | _, _, [] => none
  | fuel + 1, done, c :: rest =>
    if c == quote then some (String.ofList done.reverse, rest)
    else if c == '\\' && escapes then do
      let (e, rest) ← escape rest
      lineText quote escapes fuel (e :: done) rest
    else if isControl c then none
    else lineText quote escapes fuel (c :: done) rest

/-- Drops blanks and line ends after a backslash at the end of a line. -/
def skipContinuation : List Char → List Char
  | '\r' :: '\n' :: rest => skipContinuation rest
  | c :: rest => if isSpace c || c == '\n' then skipContinuation rest else c :: rest
  | [] => []

/-- The rest of a text over several lines. -/
def blockText (quote : Char) (escapes : Bool) : (fuel : Nat) → (done : List Char) → Reader String
  | 0, _, _ => none
  | _, _, [] => none
  | fuel + 1, done, c :: rest =>
    if c == quote then
      let quotes := (c :: rest).takeWhile (· == quote)
      if quotes.length < 3 then blockText quote escapes fuel (c :: done) rest
      else if 5 < quotes.length then none
      else some (String.ofList ((quotes.drop 3) ++ done).reverse, (c :: rest).drop quotes.length)
    else if c == '\\' && escapes then
      match newline? (skipSpaces rest) with
      | some rest => blockText quote escapes fuel done (skipContinuation rest)
      | none => do
        let (e, rest) ← escape rest
        blockText quote escapes fuel (e :: done) rest
    else
      match newline? (c :: rest) with
      | some rest => blockText quote escapes fuel ('\n' :: done) rest
      | none => if isControl c then none else blockText quote escapes fuel (c :: done) rest

/-- A text in quotes of either kind, on one line or over several. -/
def quotedText (cs : List Char) : Option (String × List Char) :=
  let block (quote : Char) (escapes : Bool) (rest : List Char) :=
    blockText quote escapes (rest.length + 1) [] ((newline? rest).getD rest)
  match cs with
  | '"' :: '"' :: '"' :: rest => block '"' true rest
  | '\'' :: '\'' :: '\'' :: rest => block '\'' false rest
  | '"' :: rest => lineText '"' true (rest.length + 1) [] rest
  | '\'' :: rest => lineText '\'' false (rest.length + 1) [] rest
  | _ => none

/-! ### Numbers and dates -/

/-- Digits of a number, between which single underscores may stand. -/
def isDigits (isDigit : Char → Bool) : List Char → Bool
  | [] => false
  | [c] => isDigit c
  | c :: '_' :: rest => isDigit c && isDigits isDigit rest
  | c :: rest => isDigit c && isDigits isDigit rest

/-- The value of digits in a base is at most `limit`. -/
def fits (base limit : Nat) (cs : List Char) : Bool :=
  (cs.filter (· != '_')).foldl (fun value c => base * value + (hexValue? c).getD 0) 0 ≤ limit

def dropSign : List Char → Bool × List Char
  | '-' :: rest => (true, rest)
  | '+' :: rest => (false, rest)
  | cs => (false, cs)

/-- Decimal digits without a needless zero in front. -/
def isWhole (cs : List Char) : Bool :=
  isDigits Char.isDigit cs && (cs.length == 1 || cs.head? != some '0')

def isInteger (cs : List Char) : Bool :=
  let based (base : Nat) (isDigit : Char → Bool) (digits : List Char) : Bool :=
    isDigits isDigit digits && fits base (Nat.pow 2 63 - 1) digits
  match cs with
  | '0' :: 'x' :: digits => based 16 (fun c => (hexValue? c).isSome) digits
  | '0' :: 'o' :: digits => based 8 (fun c => '0' ≤ c && c ≤ '7') digits
  | '0' :: 'b' :: digits => based 2 (fun c => c == '0' || c == '1') digits
  | cs =>
    let (negative, digits) := dropSign cs
    isWhole digits && fits 10 (if negative then Nat.pow 2 63 else Nat.pow 2 63 - 1) digits

def isExponent : List Char → Bool
  | [] => true
  | c :: rest => (c == 'e' || c == 'E') && isDigits Char.isDigit (dropSign rest).2

/-- The nearest double of a number is positive infinity. -/
def isTooLarge (cs : List Char) : Bool :=
  (Decimal.readFloat? (cs.filter (· != '_'))).any (· == 1.0 / 0.0)

/-- A float, which may only be infinite by name or below zero. -/
def isFloat (signed : List Char) : Bool :=
  let (_, cs) := dropSign signed
  if cs == "inf".toList || cs == "nan".toList then true
  else
    let isDigit (c : Char) : Bool := c.isDigit || c == '_'
    let rest := cs.dropWhile isDigit
    isWhole (cs.takeWhile isDigit) && !isTooLarge signed &&
      match rest with
      | '.' :: more =>
        isDigits Char.isDigit (more.takeWhile isDigit) && isExponent (more.dropWhile isDigit)
      | rest => !rest.isEmpty && isExponent rest

/-- A field of `width` digits with its bounds. -/
def field (width least greatest : Nat) : Reader Nat := fun cs =>
  let digits := cs.take width
  if digits.length == width && digits.all Char.isDigit then
    let value := digits.foldl (fun value c => 10 * value + (c.toNat - '0'.toNat)) 0
    if least ≤ value && value ≤ greatest then some (value, cs.drop width) else none
  else none

def expect (c : Char) : List Char → Option (List Char)
  | d :: rest => if c == d then some rest else none
  | [] => none

def daysIn (year month : Nat) : Nat :=
  if month == 2 then
    if year % 4 == 0 && (year % 100 != 0 || year % 400 == 0) then 29 else 28
  else if month == 4 || month == 6 || month == 9 || month == 11 then 30
  else 31

def date (cs : List Char) : Option (List Char) := do
  let (year, rest) ← field 4 0 9999 cs
  let (month, rest) ← field 2 1 12 (← expect '-' rest)
  let (_, rest) ← field 2 1 (daysIn year month) (← expect '-' rest)
  some rest

def time (cs : List Char) : Option (List Char) := do
  let (_, rest) ← field 2 0 23 cs
  let (_, rest) ← field 2 0 59 (← expect ':' rest)
  let (_, rest) ← field 2 0 60 (← expect ':' rest)
  match rest with
  | '.' :: more =>
    if (more.takeWhile Char.isDigit).isEmpty then none else some (more.dropWhile Char.isDigit)
  | rest => some rest

def offset : List Char → Option (List Char)
  | 'Z' :: rest | 'z' :: rest => some rest
  | '+' :: rest | '-' :: rest => do
    let (_, rest) ← field 2 0 23 rest
    let (_, rest) ← field 2 0 59 (← expect ':' rest)
    some rest
  | rest => some rest

def isDateTime (cs : List Char) : Bool :=
  match date cs with
  | some [] => true
  | some (c :: rest) =>
    (c == 'T' || c == 't' || c == ' ') && ((time rest).bind offset) == some []
  | none => time cs == some []

/-- A word of a number, a date or a truth value. -/
def scalar (cs : List Char) : Option (Leaf × List Char) :=
  let isInside (c : Char) : Bool := c.isAlphanum || "+-_.:".toList.contains c
  let word := cs.takeWhile isInside
  let rest := cs.dropWhile isInside
  let (word, rest) := match rest with
    | ' ' :: more =>
      let clock := more.takeWhile isInside
      if date word == some [] && (more.head?.any Char.isDigit) then
        (word ++ ' ' :: clock, more.dropWhile isInside)
      else (word, rest)
    | _ => (word, rest)
  if word == "true".toList then some (.bool true, rest)
  else if word == "false".toList then some (.bool false, rest)
  else if isInteger word || isFloat word || isDateTime word then some (.other, rest)
  else none

/-! ### Keys and values -/

def isBare (c : Char) : Bool := c.isAlphanum || c == '_' || c == '-'

def simpleKey (cs : List Char) : Option (String × List Char) :=
  match cs with
  | '"' :: rest => lineText '"' true (rest.length + 1) [] rest
  | '\'' :: rest => lineText '\'' false (rest.length + 1) [] rest
  | cs =>
    let word := cs.takeWhile isBare
    if word.isEmpty then none else some (String.ofList word, cs.dropWhile isBare)

/-- A key of one or more parts, with the spaces around it. -/
def key : (fuel : Nat) → Reader (List String)
  | 0, _ => none
  | fuel + 1, cs => do
    let (first, rest) ← simpleKey (skipSpaces cs)
    match skipSpaces rest with
    | '.' :: rest =>
      let (more, rest) ← key fuel rest
      some (first :: more, rest)
    | rest => some ([first], rest)

/-- Puts a value under a dotted key. Tables on the way must be ones that dotted keys made. -/
def insertKey (value : Item) (top : Bool) :
    (path : List String) → TableOrigin → Entries → Option Entries
  | [], _, _ => none
  | [name], origin, entries =>
    if (origin == .dotted) == top then none
    else if (entries.lookup name).isSome then none
    else some (entries ++ [(name, value)])
  | name :: path, _, entries =>
    match entries.lookup name with
    | none => do
      let inner ← insertKey value false path .dotted []
      some (entries ++ [(name, .table .dotted inner)])
    | some (.table .header _) => none
    | some (.table origin inner) => do
      let inner ← insertKey value false path origin inner
      some (entries.map fun e => if e.1 == name then (name, .table origin inner) else e)
    | some _ => none

mutual

/-- A value. -/
def value : (fuel : Nat) → Reader Leaf
  | 0, _ => none
  | fuel + 1, cs =>
    match cs with
    | '"' :: _ | '\'' :: _ => (quotedText cs).map fun (text, rest) => (.text text, rest)
    | '[' :: rest => (arrayItems fuel rest).map fun rest => (.other, rest)
    | '{' :: rest =>
      match skipSpaces rest with
      | '}' :: rest => some (.other, rest)
      | rest => (inlineEntries fuel [] rest).map fun rest => (.other, rest)
    | cs => scalar cs

/-- The rest of an array. -/
def arrayItems : (fuel : Nat) → List Char → Option (List Char)
  | 0, _ => none
  | fuel + 1, cs => do
    match ← skipBlanks (cs.length + 1) cs with
    | ']' :: rest => some rest
    | rest =>
      let (_, rest) ← value fuel rest
      match ← skipBlanks (rest.length + 1) rest with
      | ',' :: rest => arrayItems fuel rest
      | ']' :: rest => some rest
      | _ => none

/-- The rest of an inline table. -/
def inlineEntries : (fuel : Nat) → Entries → List Char → Option (List Char)
  | 0, _, _ => none
  | fuel + 1, entries, cs => do
    let (path, rest) ← key (cs.length + 1) cs
    let (leaf, rest) ← value fuel (skipSpaces (← expect '=' rest))
    let entries ← insertKey (.leaf leaf) (path.length == 1) path .header entries
    match skipSpaces rest with
    | ',' :: rest => inlineEntries fuel entries rest
    | '}' :: rest => some rest
    | _ => none

end

/-! ### Documents -/

/-- Changes the table at a path of header names; tables on the way are made if they are missing. -/
def descend (change : Entries → Option Entries) : (path : List String) → Entries → Option Entries
  | [], entries => change entries
  | name :: path, entries =>
    match entries.lookup name with
    | none => do
      let inner ← descend change path []
      some (entries ++ [(name, .table .implied inner)])
    | some (.table origin inner) => do
      let inner ← descend change path inner
      some (entries.map fun e => if e.1 == name then (name, .table origin inner) else e)
    | some (.tables (last :: others)) => do
      let last ← descend change path last
      some (entries.map fun e => if e.1 == name then (name, .tables (last :: others)) else e)
    | some _ => none

/-- Opens a table under a header. -/
def openTable (name : String) (entries : Entries) : Option Entries :=
  match entries.lookup name with
  | none => some (entries ++ [(name, .table .header [])])
  | some (.table .implied inner) =>
    some (entries.map fun e => if e.1 == name then (name, .table .header inner) else e)
  | some _ => none

/-- Opens a further table of an array of tables. -/
def openElement (name : String) (entries : Entries) : Option Entries :=
  match entries.lookup name with
  | none => some (entries ++ [(name, .tables [[]])])
  | some (.tables items) =>
    some (entries.map fun e => if e.1 == name then (name, .tables ([] :: items)) else e)
  | some _ => none

/-- A header: its path and whether it names an array of tables. -/
def header (cs : List Char) : Option ((List String × Bool) × List Char) :=
  match cs with
  | '[' :: '[' :: rest => do
    let (path, rest) ← key (rest.length + 1) rest
    some ((path, true), ← expect ']' (← expect ']' rest))
  | '[' :: rest => do
    let (path, rest) ← key (rest.length + 1) rest
    some ((path, false), ← expect ']' rest)
  | _ => none

/-- Reads line after line; `here` is the path of the last header. -/
def lines : (fuel : Nat) → (here : List String) → Entries → List Char → Option Entries
  | 0, _, _, _ => none
  | fuel + 1, here, root, cs =>
    match skipSpaces cs with
    | [] => some root
    | '#' :: _ | '\n' :: _ | '\r' :: _ => do lines fuel here root (← endLine cs)
    | '[' :: rest => do
      let ((path, isArray), rest) ← header ('[' :: rest)
      let name ← path.getLast?
      let change := if isArray then openElement name else openTable name
      let root ← descend change path.dropLast root
      lines fuel path root (← endLine rest)
    | rest => do
      let (path, rest) ← key (rest.length + 1) rest
      let rest := skipSpaces (← expect '=' rest)
      let (leaf, rest) ← value (rest.length + 1) rest
      let root ← descend (insertKey (.leaf leaf) (path.length == 1) path .header) here root
      lines fuel here root (← endLine rest)

/-- The top-level table of a document. -/
def read? (text : String) : Option Entries :=
  let cs := match text.toList with
    | '\ufeff' :: rest => rest
    | cs => cs
  lines (cs.length + 2) [] [] cs

end ScriptBridge.Config.Toml
