/-! JSON values as far as settings need them: numbers keep their spelling, and a text is missing when
the spelling of a string names half of a surrogate pair. -/
namespace ScriptHeap

inductive Json where
  | null
  | bool (b : Bool)
  | number (literal : String)
  | string (text : Option String)
  | array (items : List Json)
  | object (members : List (Option String × Json))
deriving Inhabited

namespace Json

/-- The number of a literal that is nothing but digits. The grammar admits no needless zero in front,
and a sign, a point or an exponent makes another kind of number. -/
def natural? : Json → Option Nat
  | number literal =>
    let digits := literal.toList
    if digits.all (·.isDigit) then some (Nat.ofDigitChars 10 digits 0) else none
  | _ => none

/-- A natural number that fits a 64-bit word. -/
def word? (json : Json) : Option UInt64 :=
  match json.natural? with
  | some n => if n < UInt64.size then some n.toUInt64 else none
  | none => none

/-- A value that may also be absent, written as null. -/
def nullable? {α : Type} (decode : Json → Option α) : Json → Option (Option α)
  | null => some none
  | json => (decode json).map some

/-! ## Records

A record is an object whose members are fields, or an array that lists the fields in order. Fields may
be left out, at the end of an array or anywhere in an object, and then take a default. -/

/-- Whether a value can be read as a record of `count` fields. -/
def isRecord (count : Nat) : Json → Bool
  | object members => members.all (·.1.isSome)
  | array items => items.length ≤ count
  | _ => false

/-- A field of a record. In an object it goes by name, and it may be given only once. -/
def field? {α : Type} (json : Json) (position : Nat) (name : String) (missing : α)
    (decode : Json → Option α) : Option α :=
  match json with
  | object members =>
    match members.filter (·.1 == some name) with
    | [] => some missing
    | [(_, value)] => decode value
    | _ => none
  | array items =>
    match items[position]? with
    | some value => decode value
    | none => some missing
  | _ => none

end Json
end ScriptHeap
