import Interlock.Text.Basic
import Interlock.Text.Property

/-!
# Texts in quotes

A text as a reader of messages sees it: in double quotes, with a backslash before quotes and
backslashes, and with escapes for what does not show on its own.
-/

namespace Interlock.Text

/-- Whether a character does not show on its own: controls, marks, blanks other than the space,
what has no appearance, and what is set aside for private use. -/
def isHidden (c : Char) : Bool :=
  let n := c.toNat
  n < 0x20 || n == 0x7F ||
    (!isAscii c && (n < 0xA0 || isExtend c || isBlank c || inRanges controlRanges c ||
      inRanges ignorableRanges c || (0xE000 ≤ n && n ≤ 0xF8FF) || 0xF0000 ≤ n))

/-- A character in quotes. -/
def quotedChar (c : Char) : List Char :=
  if c = '"' ∨ c = '\\' then ['\\', c]
  else if c = '\n' then ['\\', 'n']
  else if c = '\r' then ['\\', 'r']
  else if c = '\t' then ['\\', 't']
  else if c.toNat = 0 then ['\\', '0']
  else if isHidden c then
    "\\u\x7b".toList ++ Nat.toDigits 16 c.toNat ++ ['\x7d']
  else [c]

/-- A text in quotes. -/
def quoted (s : String) : String := String.ofList ('"' :: s.toList.flatMap quotedChar ++ ['"'])

end Interlock.Text
