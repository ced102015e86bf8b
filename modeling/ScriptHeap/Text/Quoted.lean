import ScriptHeap.Text.ExtendingMark
import ScriptHeap.Text.Unprintable

/-! Quoted text: a text between double quotes in which a backslash introduces everything that would
end it early, change its neighbours or not be seen at all. -/
namespace ScriptHeap.Text

/-- The written form of one character inside quotes. -/
def escape (c : Char) : List Char :=
  match c with
  | '\x00' => ['\\', '0']
  | '\t' => ['\\', 't']
  | '\r' => ['\\', 'r']
  | '\n' => ['\\', 'n']
  | '\\' => ['\\', '\\']
  | '"' => ['\\', '"']
  | c =>
    if isExtendingMark c || isUnprintable c then
      ['\\', 'u', '\x7b'] ++ Nat.toDigits 16 c.toNat ++ ['\x7d']
    else [c]

/-- A text between quotes. -/
def quote (text : String) : String :=
  String.ofList (['"'] ++ text.toList.flatMap escape ++ ['"'])

end ScriptHeap.Text
