import StorageBus.Text.Hex
import StorageBus.Text.Printable

/-!
# Quoted text

Text between quotation marks, on one line and in visible characters only. A quotation mark and a
backslash get a backslash in front; tab, line feed, carriage return and NUL have letters of their
own; whatever else is not printable is written by its code point.
-/
namespace StorageBus.Text.Quoted

/-- How one character is written. -/
def escape (c : Char) : List Char :=
  if c = '\x00' then ['\\', '0']
  else if c = '\t' then ['\\', 't']
  else if c = '\r' then ['\\', 'r']
  else if c = '\n' then ['\\', 'n']
  else if c = '"' || c = '\\' then ['\\', c]
  else if Printable.isPrintable c then [c]
  else ['\\', 'u', '\x7b'] ++ Hex.minimal .lower c.toNat ++ ['\x7d']

def encode (s : String) : String :=
  String.ofList ('"' :: s.toList.flatMap escape ++ ['"'])

end StorageBus.Text.Quoted
