import ObjectDepot.Text.Hex
import ObjectDepot.Text.Unprintable

/-!
Text as error messages quote it: between double quotes, with backslash escapes for the quote, the
backslash and the usual controls, and `\\u` with braces around hexadecimal digits for any other
character that does not print.
-/

namespace ObjectDepot.Text

def escapeChar (c : Char) : List Char :=
  if c = '\x00' then ['\\', '0']
  else if c = '\t' then ['\\', 't']
  else if c = '\r' then ['\\', 'r']
  else if c = '\n' then ['\\', 'n']
  else if c = '\\' then ['\\', '\\']
  else if c = '"' then ['\\', '"']
  else if isUnprintable c then ['\\', 'u', '\x7b'] ++ hexDigits c.val.toNat ++ ['\x7d']
  else [c]

def quoted (s : String) : String :=
  String.ofList ('"' :: s.toList.flatMap escapeChar ++ ['"'])

end ObjectDepot.Text
