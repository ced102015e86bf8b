import ScriptHeap.Text.Utf8

/-! Cutting a text. The bytes of a text are cut where a character begins or where they end; a cut anywhere
else has no answer. -/
namespace ScriptHeap.Text

namespace Utf8

/-- Whether a byte of a text is the first one of a character. -/
def begins (byte : UInt8) : Bool := byte < 0x80 || 0xC0 ≤ byte

/-- Whether the bytes of a text can be cut at a place. -/
def isBoundary (bytes : List UInt8) (place : Nat) : Bool :=
  place == 0 || match bytes[place]? with
    | some byte => begins byte
    | none => place == bytes.length

/-- The first boundary on the way back from a place, byte by byte. Before the front there is nothing to
step back to. -/
def boundaryFrom? (bytes : List UInt8) (place : Nat) : Option Nat :=
  if isBoundary bytes place then some place
  else match place with
    | 0 => none
    | before + 1 => boundaryFrom? bytes before

end Utf8

/-- The text before a place, which has to be a boundary. -/
def cut? (text : String) (place : Nat) : Option String :=
  if Utf8.isBoundary (utf8 text) place then ofUtf8? ((utf8 text).take place) else none

/-- The text up to the last boundary that is no more than `room` bytes from its front. -/
def truncate? (text : String) (room : Nat) : Option String :=
  (Utf8.boundaryFrom? (utf8 text) (min (utf8 text).length room)).bind (cut? text)

end ScriptHeap.Text
