import LoxExpr.Text.Printable

/-!
# Quoted text

The inspected form of a text stands between double quotes.  Six characters
have an escape of their own, every other character that is not printable is
written as its code point in braces, and all else stands as itself.
-/

namespace LoxExpr

namespace Text

/-- The code point of a character in lower-case hexadecimal digits, without
leading zeros, between braces. -/
def codePointEscape (c : Char) : List Char :=
  ['\\', 'u', '\x7b'] ++ Nat.toDigits 16 c.toNat ++ ['\x7d']

/-- How one character is written between quotes. -/
def quotedChar (c : Char) : List Char :=
  if c = '\x00' then ['\\', '0']
  else if c = '\t' then ['\\', 't']
  else if c = '\r' then ['\\', 'r']
  else if c = '\n' then ['\\', 'n']
  else if c = '"' then ['\\', '"']
  else if c = '\\' then ['\\', '\\']
  else if isPrintable c then [c]
  else codePointEscape c

/-- The text between double quotes, with escapes. -/
def quoted (text : String) : String :=
  String.ofList (['"'] ++ text.toList.flatMap quotedChar ++ ['"'])

end Text

end LoxExpr
