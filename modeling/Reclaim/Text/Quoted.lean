import Reclaim.Text.Hidden
import Reclaim.Text.Joining

/-! Quoted text: between double quotes, with a backslash before what could be mistaken, and the code
point in place of what could not be seen. -/

namespace Reclaim.Text

def hexadecimal (number : Nat) : List Char := Nat.toDigits 16 number

def escape (character : Char) : List Char :=
  match character with
  | '\x00' => ['\\', '0']
  | '\t' => ['\\', 't']
  | '\n' => ['\\', 'n']
  | '\r' => ['\\', 'r']
  | '\\' => ['\\', '\\']
  | '"' => ['\\', '"']
  | other =>
      if isJoining other || isHidden other then
        ['\\', 'u', '\x7b'] ++ hexadecimal other.toNat ++ ['\x7d']
      else [other]

def quoted (text : String) : String :=
  String.ofList ('"' :: text.toList.flatMap escape ++ ['"'])

end Reclaim.Text
