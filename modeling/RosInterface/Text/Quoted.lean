import RosInterface.Text.Combining
import RosInterface.Text.Unprintable

/-! # Quoted texts

Names inside error texts are written between double quotes, with every character that a reader
could not see or could mistake written as an escape. The apostrophe stands for itself.
-/

namespace RosInterface.Text

/-- The lower-case hexadecimal digits of a number, without leading zeros. -/
def hexDigits (n : Nat) : List Char :=
  Nat.toDigits 16 n

/-- A character by its code point, as in `\u{200b}`. -/
def codePointEscape (c : Char) : List Char :=
  '\\' :: 'u' :: '\x7b' :: (hexDigits c.toNat ++ ['\x7d'])

/-- The form of one character between the quotes. -/
def quoteChar (c : Char) : List Char :=
  match c with
  | '\x22' => ['\\', '\x22']
  | '\\' => ['\\', '\\']
  | '\t' => ['\\', 't']
  | '\n' => ['\\', 'n']
  | '\r' => ['\\', 'r']
  | '\x00' => ['\\', '0']
  | _ => if isCombining c || isUnprintable c then codePointEscape c else [c]

end RosInterface.Text

namespace String

/-- The text between double quotes, with escapes for what is not plainly visible. -/
def quoted (text : String) : String :=
  ofList ('\x22' :: (text.toList.flatMap RosInterface.Text.quoteChar ++ ['\x22']))

end String
