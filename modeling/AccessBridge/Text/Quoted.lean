import AccessBridge.Text.Extending
import AccessBridge.Text.Invisible

/-!
# Quoted text

Text in a diagnostic stands between double quotes. Quotes, backslashes and the common control
characters are written with a backslash. A character that would not show up by itself is written
as its code point: one that joins the character before it, and one that shows nothing.
-/

namespace AccessBridge.Text

/-- Sound marks that join the character before them and yet fill a cell of their own. -/
def halfwidthMarks : Ranges := [(0xFF9E, 0xFF9F)]

/-- Letters that keep the place of a missing part of a syllable and show nothing. -/
def fillers : Ranges := [(0x115F, 0x1160), (0x3164, 0x3164), (0xFFA0, 0xFFA0)]

/-- Whether a character is written as its code point. -/
def needsCodePoint (c : Char) : Bool :=
  invisible.covers c || fillers.covers c || (extending.covers c && !halfwidthMarks.covers c)

/-- The written form of one character. -/
def escape (c : Char) : List Char :=
  match c with
  | '\x00' => ['\\', '0']
  | '\t' => ['\\', 't']
  | '\r' => ['\\', 'r']
  | '\n' => ['\\', 'n']
  | '"' => ['\\', '"']
  | '\\' => ['\\', '\\']
  | c =>
    if needsCodePoint c then
      ['\\', 'u', '\x7b'] ++ Nat.toDigits 16 c.toNat ++ ['\x7d']
    else [c]

/-- The text between quotes. -/
def quoted (s : String) : String :=
  String.ofList ('"' :: s.toList.flatMap escape ++ ['"'])

end AccessBridge.Text
