/-!
# UTF-16 units

A 16-bit unit stands for a character unless it is one half of a surrogate pair. Read alone, such
a half has no character and is shown as the replacement character.
-/

namespace ScriptBridge.Text

/-- The character U+FFFD. -/
def replacement : Char := '\ufffd'

/-- The first UTF-16 unit of a character. -/
def firstUnit (c : Char) : UInt16 :=
  let code := c.toNat
  if code < 0x10000 then UInt16.ofNat code
  else UInt16.ofNat (0xD800 + (code - 0x10000) / 0x400)

/-- Half of a surrogate pair. -/
def isSurrogate (unit : UInt16) : Bool := 0xD800 ≤ unit && unit ≤ 0xDFFF

/-- The character that a unit stands for when it is read alone, or `fallback`. -/
def charOfUnitD (unit : UInt16) (fallback : Char) : Char :=
  if isSurrogate unit then fallback else Char.ofNat unit.toNat

/-- The text of a unit that is read alone. -/
def unitText (unit : UInt16) : String := String.singleton (charOfUnitD unit replacement)

end ScriptBridge.Text
