import MemFs.Text.Extending
import MemFs.Text.Unprintable

/-!
# Quoted texts

The diagnostic form of a text stands between double quotes. Quotes, backslashes and the usual
controls are written with a backslash; other characters that would not show, or that would change
the look of the one before them, are written by their code point in hexadecimal.
-/

namespace MemFs.Quoted

/-- Whether a character is written by its code point. The printable part of ASCII never is. -/
def needsCodePoint (character : Char) : Bool :=
  if ' ' ≤ character && character ≤ '~' then false
  else Unprintable.contains character || Extending.contains character

def encodeChar : Char → List Char
  | '"' => ['\\', '"']
  | '\\' => ['\\', '\\']
  | '\n' => ['\\', 'n']
  | '\r' => ['\\', 'r']
  | '\t' => ['\\', 't']
  | '\x00' => ['\\', '0']
  | character =>
      if needsCodePoint character then
        ['\\', 'u', '\x7b'] ++ Nat.toDigits 16 character.toNat ++ ['\x7d']
      else [character]

def encode (text : String) : String :=
  String.ofList (['"'] ++ text.toList.flatMap encodeChar ++ ['"'])

end MemFs.Quoted
