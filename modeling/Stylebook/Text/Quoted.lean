/-
  Stylebook.Text.Quoted

  A text in double quotes for a message: the quote, the backslash and four
  controls have an escape of one letter, undisplayed characters are written by
  their number in hexadecimal, every other character stands for itself.
-/

import Stylebook.Text.Undisplayed

namespace Stylebook.Text

/-- A character inside a quotation. -/
def quoteChar (c : Char) : List Char :=
  if c = '\x00' then ['\\', '0']
  else if c = '\t' then ['\\', 't']
  else if c = '\r' then ['\\', 'r']
  else if c = '\n' then ['\\', 'n']
  else if c = '\\' then ['\\', '\\']
  else if c = '"' then ['\\', '"']
  else if isUndisplayed c then
    ['\\', 'u', '\x7b'] ++ Nat.toDigits 16 c.toNat ++ ['\x7d']
  else [c]

/-- A text in double quotes. -/
def quote (s : String) : String :=
  String.ofList ('"' :: s.toList.flatMap quoteChar ++ ['"'])

end Stylebook.Text
