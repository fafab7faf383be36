import WindsAloft.Text.Printable

/-!
# Texts quoted in messages

A text that a message repeats stands in double quotes.  The quote, the
backslash and the common controls get short escapes; other characters without
a shape of their own are written as their code in braces.
-/

namespace WindsAloft

def messageChar (c : Char) : List Char :=
  if c = '"' then ['\\', '"']
  else if c = '\\' then ['\\', '\\']
  else if c = '\n' then ['\\', 'n']
  else if c = '\r' then ['\\', 'r']
  else if c = '\t' then ['\\', 't']
  else if c.toNat = 0 then ['\\', '0']
  else if isPrintable c then [c]
  else ['\\', 'u', '{'] ++ Nat.toDigits 16 c.toNat ++ ['}']

def messageQuoted (s : String) : String :=
  String.ofList ('"' :: (s.toList.flatMap messageChar ++ ['"']))

end WindsAloft
