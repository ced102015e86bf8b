/-! UTF-8 in both directions. Writing a text is a map over its characters. Reading is a machine that
takes one byte at a time and yields a character for each complete sequence and a gap for each longest
run of bytes that begins a sequence but cannot be continued; a byte that begins nothing is a gap of
its own. A strict reader refuses gaps, a lossy one shows U+FFFD for each. -/
namespace ScriptHeap.Text

/-- The bytes of a text. -/
def utf8 (text : String) : List UInt8 := text.toList.flatMap String.utf8EncodeChar

namespace Utf8

/-- A sequence that has begun: how many bytes it still owes, between which bounds the next of them
has to lie, and the bits gathered so far. -/
structure Partial where
  owed : Nat
  low : UInt8
  high : UInt8
  bits : Nat
deriving DecidableEq, Repr

/-- What one byte completes, and the sequence it leaves unfinished. -/
structure Reading where
  produced : List (Option Char)
  unfinished : Option Partial
deriving DecidableEq, Repr

/-- A byte read between characters. The tighter bounds after E0, ED, F0 and F4 keep out overlong
forms, surrogates and anything above U+10FFFF. -/
def start (byte : UInt8) : Reading :=
  let value := byte.toNat
  let begins (owed : Nat) (low high : UInt8) (bits : Nat) : Reading := ⟨[], some ⟨owed, low, high, bits⟩⟩
  if value < 0x80 then ⟨[some (Char.ofNat value)], none⟩
  else if value < 0xC2 then ⟨[none], none⟩
  else if value < 0xE0 then begins 1 0x80 0xBF (value - 0xC0)
  else if value = 0xE0 then begins 2 0xA0 0xBF 0
  else if value = 0xED then begins 2 0x80 0x9F 0xD
  else if value < 0xF0 then begins 2 0x80 0xBF (value - 0xE0)
  else if value = 0xF0 then begins 3 0x90 0xBF 0
  else if value < 0xF4 then begins 3 0x80 0xBF (value - 0xF0)
  else if value = 0xF4 then begins 3 0x80 0x8F 4
  else ⟨[none], none⟩

/-- One byte. A byte that cannot continue the open sequence closes it as a gap and starts afresh. -/
def step : Option Partial → UInt8 → Reading
  | none, byte => start byte
  | some sequence, byte =>
    if sequence.low ≤ byte ∧ byte ≤ sequence.high then
      let bits := sequence.bits * 64 + (byte.toNat - 0x80)
      if sequence.owed ≤ 1 then ⟨[some (Char.ofNat bits)], none⟩
      else ⟨[], some ⟨sequence.owed - 1, 0x80, 0xBF, bits⟩⟩
    else
      let reading := start byte
      { reading with produced := none :: reading.produced }

/-- The characters and gaps of a byte string read from a given state. A sequence cut off by the end
is one gap. -/
def decodeFrom : Option Partial → List UInt8 → List (Option Char)
  | none, [] => []
  | some _, [] => [none]
  | state, byte :: rest =>
    let reading := step state byte
    reading.produced ++ decodeFrom reading.unfinished rest

end Utf8

/-- The characters of a byte string, with `none` for each gap. -/
def decodeUtf8 (bytes : List UInt8) : List (Option Char) := Utf8.decodeFrom none bytes

/-- The text of a byte string that is UTF-8 throughout. -/
def ofUtf8? (bytes : List UInt8) : Option String :=
  (decodeUtf8 bytes).mapM id |>.map String.ofList

/-- The text of any byte string, with U+FFFD for each gap. -/
def ofUtf8Lossy (bytes : List UInt8) : String :=
  String.ofList ((decodeUtf8 bytes).map (·.getD '\uFFFD'))

end ScriptHeap.Text
