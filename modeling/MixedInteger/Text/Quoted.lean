import MixedInteger.Text.Hidden

/-! # Quoted names

Names appear in messages between double quotes, with escapes for quotes,
backslashes, common control characters and everything that is not shown. An
apostrophe stands for itself.
-/

namespace MixedInteger.Text

/-- The escaped form of one character of a name. -/
def escapeChar (c : Char) : List Char :=
  if c = '"' then ['\\', '"']
  else if c = '\\' then ['\\', '\\']
  else if c = '\n' then ['\\', 'n']
  else if c = '\t' then ['\\', 't']
  else if c = '\r' then ['\\', 'r']
  else if c.toNat = 0 then ['\\', '0']
  else if isHidden c then ['\\', 'u', '\x7b'] ++ Nat.toDigits 16 c.toNat ++ ['\x7d']
  else [c]

/-- A name between double quotes. -/
def quoted (name : String) : String :=
  String.ofList ('"' :: name.toList.flatMap escapeChar ++ ['"'])

end MixedInteger.Text
