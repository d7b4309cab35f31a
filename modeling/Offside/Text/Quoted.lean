import Offside.Text.Hex
import Offside.Text.Unprintable

/-!
# Texts in quotes

A text is shown in double quotes.  Quotes and backslashes in it, the usual
control characters, and every character that cannot be seen by itself are
written as escapes.
-/

namespace Offside
namespace Quoted

def escapeChar (c : Char) : List Char :=
  if c = '\x22' then ['\x5c', '\x22']
  else if c = '\x5c' then ['\x5c', '\x5c']
  else if c = '\x00' then ['\x5c', '0']
  else if c = '\t' then ['\x5c', 't']
  else if c = '\n' then ['\x5c', 'n']
  else if c = '\r' then ['\x5c', 'r']
  else if unprintable.contains c then
    '\x5c' :: 'u' :: '\x7b' :: Hex.ofNat c.toNat ++ ['\x7d']
  else [c]

def ofString (s : String) : String :=
  String.ofList ('\x22' :: s.toList.flatMap escapeChar ++ ['\x22'])

end Quoted
end Offside
