/-!
# White space

The property White_Space of Unicode and the trimming of a text at both ends.
-/

namespace ScriptBridge.Text

/-- A character with the property White_Space. -/
def isBlank (c : Char) : Bool :=
  let code := c.toNat
  (0x09 ≤ code && code ≤ 0x0D) || code == 0x20 || code == 0x85 || code == 0xA0 ||
    code == 0x1680 || (0x2000 ≤ code && code ≤ 0x200A) || code == 0x2028 || code == 0x2029 ||
    code == 0x202F || code == 0x205F || code == 0x3000

theorem isBlank_of_isWhitespace {c : Char} (h : c.isWhitespace = true) : isBlank c = true := by
  simp only [Char.isWhitespace, Bool.or_eq_true, decide_eq_true_eq] at h
  rcases h with ((h | h) | h) | h <;> subst h <;> decide

/-- The characters between the first and the last that is not blank. -/
def trimChars (cs : List Char) : List Char :=
  ((cs.dropWhile isBlank).reverse.dropWhile isBlank).reverse

/-- `text` without white space at either end. -/
def trim (text : String) : String := String.ofList (trimChars text.toList)

/-- Whether `text` is empty or holds white space only. -/
def isBlankText (text : String) : Bool := text.toList.all isBlank

end ScriptBridge.Text
