import ScriptBridge.Syntax.Grammar

/-!
# Canonical spellings

How a tree is written as a list of tokens. An operand stands in a slot of the grammar and is put
in parentheses exactly when it binds looser than the slot asks for; a tuple of one item ends in a
comma. Beside the spelling stand the two measures that the grammar limits: the levels of nesting
that a spelling opens, and the height of the highest chain in a tree.
-/

namespace ScriptBridge.Syntax

/-- The slots of the grammar, loosest first. -/
inductive Slot where
  | expression | disjunction | conjunction | inversion | comparison
  | sum | product | negation | suffixed | primary
deriving DecidableEq

namespace Slot

def rank : Slot → Nat
  | expression => 0 | disjunction => 1 | conjunction => 2 | inversion => 3 | comparison => 4
  | sum => 5 | product => 6 | negation => 7 | suffixed => 8 | primary => 9

/-- The slot that the parser of a slot begins with. -/
def tighter : Slot → Slot
  | expression => disjunction | disjunction => conjunction | conjunction => inversion
  | inversion => comparison | comparison => sum | sum => product | product => negation
  | negation => suffixed | suffixed => primary | primary => primary

end Slot

/-! ### Operators and leaves -/

def BinaryOp.slot : BinaryOp → Slot
  | add | subtract => .sum
  | multiply | divide | modulo => .product
  | _ => .comparison

def BinaryOp.kinds : BinaryOp → List Kind
  | add => [.symbol .plus] | subtract => [.symbol .minus] | multiply => [.symbol .star]
  | divide => [.symbol .slash] | modulo => [.symbol .percent]
  | equal => [.symbol .equalEqual] | notEqual => [.symbol .notEqual]
  | less => [.symbol .less] | greater => [.symbol .greater]
  | lessEqual => [.symbol .lessEqual] | greaterEqual => [.symbol .greaterEqual]
  | within => [.keyword .within] | notWithin => [.keyword .not, .keyword .within]

def LogicalOp.slot : LogicalOp → Slot
  | or => .disjunction
  | and => .conjunction

def LogicalOp.kinds : LogicalOp → List Kind
  | or => [.keyword .or]
  | and => [.keyword .and]

def UnaryOp.slot : UnaryOp → Slot
  | not => .inversion
  | negate => .negation

def UnaryOp.kind : UnaryOp → Kind
  | not => .keyword .not
  | negate => .symbol .minus

def Literal.kind : Literal → Kind
  | none => .keyword .none
  | bool value => .keyword (if value then .true else .false)
  | int value => .integer value
  | long value => .long value
  | float value => .float value
  | text value => .text value

/-- Words with a separator between them. -/
def separated (separator : Kind) : List String → List Kind
  | [] => []
  | [word] => [.name word]
  | word :: rest => .name word :: separator :: separated separator rest

/-! ### Expressions -/

namespace Expr

/-- Induction over a tree, with a hypothesis for each tree in a list. -/
@[elab_as_elim]
theorem induct {motive : Expr → Prop} (literal : ∀ value, motive (.literal value))
    (name : ∀ word, motive (.name word))
    (tuple : ∀ items, (∀ item ∈ items, motive item) → motive (.tuple items))
    (attr : ∀ object member, motive object → motive (.attr object member))
    (call : ∀ callee args, motive callee → (∀ arg ∈ args, motive arg) → motive (.call callee args))
    (index : ∀ object key, motive object → motive key → motive (.index object key))
    (unary : ∀ op operand, motive operand → motive (.unary op operand))
    (binary : ∀ op left right, motive left → motive right → motive (.binary op left right))
    (logical : ∀ op left right, motive left → motive right → motive (.logical op left right))
    (lambda : ∀ params body, motive body → motive (.lambda params body)) (e : Expr) : motive e :=
  @Expr.rec motive (fun items => ∀ item ∈ items, motive item)
    literal name tuple attr call index unary binary logical lambda (by simp)
    (fun _ _ h hs => by simpa using ⟨h, hs⟩) e

/-- The tightest slot in which a tree needs no parentheses. -/
def slot : Expr → Slot
  | .lambda _ _ => .expression
  | .logical op _ _ => op.slot
  | .binary op _ _ => op.slot
  | .unary op _ => op.slot
  | .attr _ _ | .call _ _ | .index _ _ => .suffixed
  | .literal _ | .name _ | .tuple _ => .primary

/-- What is written in a slot for a tree of the slot `own`. -/
def enclosed (slot own : Slot) (kinds : List Kind) : List Kind :=
  if own.rank < slot.rank then .symbol .leftParen :: kinds ++ [.symbol .rightParen] else kinds

mutual

/-- The spelling of a tree without parentheses around it. -/
def kinds : Expr → List Kind
  | .literal value => [value.kind]
  | .name word => [.name word]
  | .tuple items => .symbol .leftParen :: tupleKinds items ++ [.symbol .rightParen]
  | .attr object member =>
    enclosed .suffixed object.slot object.kinds ++ [.symbol .dot, .name member]
  | .call callee args =>
    enclosed .suffixed callee.slot callee.kinds ++
      .symbol .leftParen :: listKinds args ++ [.symbol .rightParen]
  | .index object key =>
    enclosed .suffixed object.slot object.kinds ++
      .symbol .leftBracket :: key.kinds ++ [.symbol .rightBracket]
  | .unary op operand => op.kind :: enclosed op.slot operand.slot operand.kinds
  | .binary op left right =>
    enclosed op.slot left.slot left.kinds ++ op.kinds ++
      enclosed op.slot.tighter right.slot right.kinds
  | .logical op left right =>
    enclosed op.slot left.slot left.kinds ++ op.kinds ++
      enclosed op.slot.tighter right.slot right.kinds
  | .lambda params body =>
    .keyword .lambda :: separated (.symbol .comma) params ++ .symbol .colon :: body.kinds

/-- Trees with commas between them. -/
def listKinds : List Expr → List Kind
  | [] => []
  | [item] => item.kinds
  | item :: rest => item.kinds ++ .symbol .comma :: listKinds rest

/-- The items of a tuple; a single one is followed by a comma. -/
def tupleKinds : List Expr → List Kind
  | [] => []
  | item :: rest => item.kinds ++ .symbol .comma :: listKinds rest

end

/-- The spelling of a tree in a slot. -/
def spelling (slot : Slot) (e : Expr) : List Kind := enclosed slot e.slot e.kinds

/-! ### Measures -/

/-- Levels that a tree of the slot `own` opens in a slot, given what it opens without
parentheses. -/
def enclosedLevels (slot own : Slot) (levels : Nat) : Nat :=
  if own.rank < slot.rank then levels + 1 else levels

mutual

/-- Levels of nesting that reading the spelling of a tree opens below the level it is read on. -/
def levels : Expr → Nat
  | .literal _ => 0
  | .name _ => 0
  | .tuple items => listLevels items
  | .attr object _ => enclosedLevels .suffixed object.slot object.levels
  | .call callee args =>
    max (enclosedLevels .suffixed callee.slot callee.levels) (listLevels args)
  | .index object key =>
    max (enclosedLevels .suffixed object.slot object.levels) (key.levels + 1)
  | .unary op operand => enclosedLevels op.slot operand.slot operand.levels + 1
  | .binary op left right =>
    max (enclosedLevels op.slot left.slot left.levels)
      (enclosedLevels op.slot.tighter right.slot right.levels)
  | .logical op left right =>
    max (enclosedLevels op.slot left.slot left.levels)
      (enclosedLevels op.slot.tighter right.slot right.levels)
  | .lambda _ body => body.levels + 1

/-- Each item of a list is read one level deeper. -/
def listLevels : List Expr → Nat
  | [] => 0
  | item :: rest => max (item.levels + 1) (listLevels rest)

end

mutual

/-- The height of the highest node that a chain of operators or suffixes builds. -/
def chainHeight : Expr → Nat
  | .literal _ => 0
  | .name _ => 0
  | .tuple items => listChainHeight items
  | .attr object member => max (height (.attr object member)) object.chainHeight
  | .call callee args =>
    max (height (.call callee args)) (max callee.chainHeight (listChainHeight args))
  | .index object key =>
    max (height (.index object key)) (max object.chainHeight key.chainHeight)
  | .unary _ operand => operand.chainHeight
  | .binary op left right =>
    max (height (.binary op left right)) (max left.chainHeight right.chainHeight)
  | .logical op left right =>
    max (height (.logical op left right)) (max left.chainHeight right.chainHeight)
  | .lambda _ body => body.chainHeight

def listChainHeight : List Expr → Nat
  | [] => 0
  | item :: rest => max item.chainHeight (listChainHeight rest)

end

/-- The tree stays within both limits when its spelling is read in a slot with so many levels
left below. -/
def FitsIn (slot : Slot) (left : Nat) (e : Expr) : Prop :=
  enclosedLevels slot e.slot e.levels ≤ left ∧ e.chainHeight ≤ maxHeight

/-- The tree stays within both limits as an expression of its own. -/
def Fits (e : Expr) : Prop := e.levels + 1 ≤ maxDepth ∧ e.chainHeight ≤ maxHeight

instance (e : Expr) : Decidable e.Fits := inferInstanceAs (Decidable (_ ∧ _))

end Expr

/-! ### Statements -/

/-- The tree that an assignment is written to. -/
def Target.expr : Target → Expr
  | .name word => .name word
  | .attr object member => .attr object member
  | .index object key => .index object key

/-- The names that a dotted path is made of. -/
def pathWords (path : String) : List String := (path.toList.splitOn '.').map String.ofList

def newNameKinds : Option String → List Kind
  | none => []
  | some name => [.keyword .asName, .name name]

def importItemKinds : List (String × Option String) → List Kind
  | [] => []
  | [(name, newName)] => .name name :: newNameKinds newName
  | (name, newName) :: rest =>
    .name name :: newNameKinds newName ++ .symbol .comma :: importItemKinds rest

def ImportNames.kinds : ImportNames → List Kind
  | .all => [.symbol .star]
  | .listed names => importItemKinds names

namespace Statement

def kinds : Statement → List Kind
  | .expr value => value.kinds
  | .assign target value => target.expr.kinds ++ .symbol .equal :: value.kinds
  | .imports path newName =>
    .keyword .imports :: separated (.symbol .dot) (pathWords path) ++ newNameKinds newName
  | .fromImport path names =>
    .keyword .froms :: separated (.symbol .dot) (pathWords path) ++
      .keyword .imports :: names.kinds
  | .raise none => [.keyword .raise]
  | .raise (some value) => .keyword .raise :: value.kinds
  | .pass => [.keyword .pass]

/-- A list of imported names is not empty. -/
def Listed : Statement → Prop
  | .fromImport _ (.listed names) => names ≠ []
  | _ => True

/-- Every expression of the statement stays within both limits. -/
def Fits : Statement → Prop
  | .expr value => value.Fits
  | .assign target value => target.expr.Fits ∧ value.Fits
  | .raise (some value) => value.Fits
  | _ => True

instance : (s : Statement) → Decidable s.Listed
  | .fromImport _ (.listed names) => decidable_of_iff (names.isEmpty = false) (by simp [Listed])
  | .fromImport _ .all | .expr _ | .assign _ _ | .imports _ _ | .raise _ | .pass => .isTrue trivial

instance : (s : Statement) → Decidable s.Fits
  | .expr value | .raise (some value) => inferInstanceAs (Decidable value.Fits)
  | .assign _ _ => inferInstanceAs (Decidable (_ ∧ _))
  | .fromImport _ _ | .imports _ _ | .raise none | .pass => .isTrue trivial

end Statement

/-- Every statement of the program stays within the limits. -/
def Program.Fits (program : Program) : Prop := ∀ entry ∈ program, entry.2.Fits

def Program.Listed (program : Program) : Prop := ∀ entry ∈ program, entry.2.Listed

instance (program : Program) : Decidable program.Fits :=
  inferInstanceAs (Decidable (∀ entry ∈ program, entry.2.Fits))

instance (program : Program) : Decidable program.Listed :=
  inferInstanceAs (Decidable (∀ entry ∈ program, entry.2.Listed))

/-- The tokens spell the program: one statement after the other, each on the line it is recorded
with and followed by a line end. -/
inductive Program.Spells : Program → List Token → Prop
  | nil (end_ : Position) : Spells [] [⟨.endOfInput, end_⟩]
  | cons {line : Nat} {first : Statement} {rest : Program} {front more : List Token}
      (lineEnd : Position) (kinds : front.map Token.kind = first.kinds)
      (starts : (nextPosition front).line = line) (others : Spells rest more) :
      Spells ((line, first) :: rest) (front ++ ⟨.newline, lineEnd⟩ :: more)

end ScriptBridge.Syntax
