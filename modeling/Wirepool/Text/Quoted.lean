import Wirepool.Text.Extending
import Wirepool.Text.Unprintable

/-!
# Quoted text

A quoted text shows every character it holds. What would end the quotation or
could not be seen is written with a backslash: the quote and the backslash
itself, four blanks that have letters of their own, and otherwise the number of
the code point in hexadecimal. A mark that joins the character before it would
join the quote or an escape, so it is written by number too.
-/

namespace Wirepool

namespace Quoted

/-- A character by number. -/
def byNumber (c : Char) : List Char :=
  ['\\', 'u', '\x7b'] ++ Nat.toDigits 16 c.toNat ++ ['\x7d']

/-- A character as it is shown. -/
def showChar (c : Char) : List Char :=
  if c = '\x00' then ['\\', '0']
  else if c = '\t' then ['\\', 't']
  else if c = '\n' then ['\\', 'n']
  else if c = '\r' then ['\\', 'r']
  else if c = '\x22' || c = '\\' then ['\\', c]
  else if CharSet.extending.contains c || CharSet.unprintable.contains c then byNumber c
  else [c]

end Quoted

/-- **A text in quotes.** -/
def quoted (s : String) : String :=
  String.ofList (['\x22'] ++ s.toList.flatMap Quoted.showChar ++ ['\x22'])

end Wirepool
