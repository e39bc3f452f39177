import NibbleMachine.Text.PrintableTable

namespace NibbleMachine
namespace Text

/-!
# Quoted texts

Messages show a text they complain about in quotes, on one line and without
characters that cannot be seen.  Single quotes are used unless the text holds
one and no double quote.  The quote in use and the backslash are escaped by a
backslash; tabs and line ends have escapes of their own; any other hidden
character is shown by its code in the shortest of three fixed widths.
-/

/-- The quote that encloses a text. -/
def quoteFor (text : List Char) : Char :=
  if text.contains '\'' && !text.contains '"' then '"' else '\''

/-- A number in lower-case hexadecimal, filled with zeros to a width. -/
def hexCode (width code : Nat) : List Char :=
  let digits := Nat.toDigits 16 code
  List.replicate (width - digits.length) '0' ++ digits

/-- A character as it stands inside the given quotes. -/
def quotedChar (quote c : Char) : List Char :=
  if c = quote || c = '\\' then ['\\', c]
  else if c = '\t' then ['\\', 't']
  else if c = '\n' then ['\\', 'n']
  else if c = '\r' then ['\\', 'r']
  else if isPrintable c then [c]
  else if c.toNat < 0x100 then '\\' :: 'x' :: hexCode 2 c.toNat
  else if c.toNat < 0x10000 then '\\' :: 'u' :: hexCode 4 c.toNat
  else '\\' :: 'U' :: hexCode 8 c.toNat

def quoted (text : String) : String :=
  let quote := quoteFor text.toList
  String.ofList
    (quote :: text.toList.flatMap (quotedChar quote) ++ [quote])

end Text
end NibbleMachine
