import ScriptHeap.Proofs.DisplayDepth
import ScriptHeap.Text.Digits
import ScriptHeap.Text.Quoted.Lemmas
import ScriptHeap.Text.Utf8.Lemmas

/-! What printing tells about contents. Arrays and maps of nulls, integers, texts, arrays and maps are printed
without anything to mark where a part ends but the next separator, and keys and texts may contain every
separator. It can be told all the same what is printed, since each part can be read off the beginning of a
text, whatever follows it there. -/
namespace ScriptHeap

/-- Bytes that are UTF-8 throughout. -/
structure TextBytes where
  bytes : List UInt8
  valid : (Text.ofUtf8? bytes).isSome

/-- The contents of a value, apart from where they are held. -/
inductive Datum where
  | null
  | integer (n : Int32)
  | text (content : TextBytes)
  | list (items : List Datum)
  | record (entries : List (String × Datum))

namespace TextBytes

def text (content : TextBytes) : String := (Text.ofUtf8? content.bytes).get content.valid

theorem ofUtf8?_bytes (content : TextBytes) : Text.ofUtf8? content.bytes = some content.text :=
  (Option.some_get content.valid).symm

theorem text_inj {content other : TextBytes} (same : content.text = other.text) : content = other := by
  have bytes : content.bytes = other.bytes := by
    rw [← Text.utf8_of_ofUtf8? content.ofUtf8?_bytes, same, Text.utf8_of_ofUtf8? other.ofUtf8?_bytes]
  cases content
  cases other
  cases bytes
  rfl

end TextBytes

namespace Datum

def IsContainer : Datum → Prop
  | list _ | record _ => True
  | _ => False

/-- The text of contents within an array or a map. -/
def print : Datum → String
  | null => "null"
  | integer n => toString n
  | text content => Text.quote content.text
  | list items => "[" ++ ", ".intercalate (items.map print) ++ "]"
  | record entries =>
    "\x7b" ++ ", ".intercalate (entries.map fun entry => Text.quote entry.1 ++ ": " ++ print entry.2) ++
      "\x7d"
decreasing_by
  · decreasing_tactic
  · next listed =>
    have smaller := List.sizeOf_lt_of_mem listed
    rw [show sizeOf entry = 1 + sizeOf entry.1 + sizeOf entry.2 from rfl] at smaller
    rw [record.sizeOf_spec]
    omega

def chars (datum : Datum) : List Char := datum.print.toList

def entryChars (entry : String × Datum) : List Char :=
  (Text.quote entry.1).toList ++ ':' :: ' ' :: entry.2.chars

/-! ## Integers -/

/-- Whether a character may stand in a written integer. -/
def isNumeral (c : Char) : Bool := c = '-' || c.isDigit

theorem toList_integer (n : Int32) :
    (toString n).toList =
      if 0 ≤ n.toInt then Nat.toDigits 10 n.toInt.toNat else '-' :: Nat.toDigits 10 (-n.toInt).toNat := by
  rw [show toString n = Int.repr n.toInt from rfl, Int.repr_eq_if]
  split
  · exact Nat.toList_repr
  · rw [String.toList_append, Nat.toList_repr]
    rfl

theorem isNumeral_of_written {n : Int32} {c : Char} (listed : c ∈ (toString n).toList) :
    isNumeral c = true := by
  rw [toList_integer] at listed
  rw [isNumeral, Bool.or_eq_true, decide_eq_true_iff]
  split at listed
  · exact .inr (Text.isDigit_of_written listed)
  · exact (List.mem_cons.mp listed).imp id Text.isDigit_of_written

theorem integer_ne_nil (n : Int32) : (toString n).toList ≠ [] := by
  rw [toList_integer]
  split
  · exact Nat.toDigits_ne_nil
  · exact List.cons_ne_nil _ _

theorem integer_inj {m n : Int32} (same : (toString m).toList = (toString n).toList) : m = n := by
  -- a sign is no digit, so both are written with one or neither is
  have apart {number : Nat} {digits : List Char} : Nat.toDigits 10 number ≠ '-' :: digits := fun equal =>
    absurd (Text.isDigit_of_written (equal ▸ List.mem_cons_self)) (by decide)
  refine Int32.toInt_inj.mp ?_
  rw [toList_integer, toList_integer] at same
  split at same <;> split at same
  · have := Text.written_inj same
    omega
  · exact absurd same apart
  · exact absurd same.symm apart
  · have := Text.written_inj (List.cons.inj same).2
    omega

/-! ## What a part begins with -/

inductive Shape where
  | null
  | integer
  | text
  | list
  | record
deriving DecidableEq

def shape : Datum → Shape
  | .null => .null
  | .integer _ => .integer
  | .text _ => .text
  | .list _ => .list
  | .record _ => .record

/-- What a printed part is, by its first character. -/
def shapeOf? (c : Char) : Option Shape :=
  if isNumeral c then some .integer
  else if c = 'n' then some .null
  else if c = '"' then some .text
  else if c = '[' then some .list
  else if c = '\x7b' then some .record
  else none

theorem chars_list (items : List Datum) :
    (list items).chars = '[' :: ([',', ' '].intercalate (items.map chars) ++ [']']) := by
  rw [chars, print]
  simp only [String.toList_append, String.toList_intercalate, List.map_map]
  rfl

theorem chars_record (entries : List (String × Datum)) :
    (record entries).chars =
      '\x7b' :: ([',', ' '].intercalate (entries.map entryChars) ++ ['\x7d']) := by
  rw [chars, print, String.toList_append, String.toList_append, String.toList_intercalate, List.map_map,
    List.map_congr_left (g := entryChars) fun entry _ => ?_]
  · rfl
  · rw [Function.comp_apply, String.toList_append, String.toList_append, List.append_assoc]
    rfl

/-- A printed part is not empty, and its first character tells its shape. -/
theorem print_begins (datum : Datum) :
    ∃ c rest, datum.chars = c :: rest ∧ shapeOf? c = some datum.shape := by
  cases datum with
  | null => exact ⟨'n', _, by rw [chars, print]; rfl, rfl⟩
  | integer n =>
    obtain ⟨c, rest, written⟩ := List.exists_cons_of_ne_nil (integer_ne_nil n)
    have numeral : isNumeral c = true := isNumeral_of_written (written ▸ List.mem_cons_self)
    exact ⟨c, rest, by rw [chars, print, written], if_pos numeral⟩
  | text content => exact ⟨'"', _, by rw [chars, print, Text.toList_quote], rfl⟩
  | list items => exact ⟨'[', _, chars_list items, rfl⟩
  | record entries => exact ⟨'\x7b', _, chars_record entries, rfl⟩

theorem shape_eq {datum other : Datum} {rest rest' : List Char}
    (same : datum.chars ++ rest = other.chars ++ rest') : datum.shape = other.shape := by
  obtain ⟨c, more, written, shape⟩ := datum.print_begins
  obtain ⟨c', more', written', shape'⟩ := other.print_begins
  rw [written, written'] at same
  rw [(List.cons_eq_cons.mp same).1, shape'] at shape
  exact (Option.some.inj shape).symm

theorem ne_closing {datum : Datum} {rest rest' : List Char} :
    datum.chars ++ rest ≠ ']' :: rest' := by
  obtain ⟨c, more, written, shape⟩ := datum.print_begins
  rw [written]
  intro same
  rw [(List.cons_eq_cons.mp same).1] at shape
  cases shape

/-! ## Parts in a row -/

/-- What may follow a written part: anything that does not continue an integer. -/
def Ends (rest : List Char) : Prop := ∀ c ∈ rest.head?, ¬ isNumeral c = true

/-- A part can be read off the beginning of a text. -/
def Legible {α : Type} (write : α → List Char) (item : α) : Prop :=
  ∀ other rest rest', Ends rest → Ends rest' → write item ++ rest = write other ++ rest' →
    item = other ∧ rest = rest'

section
variable {α : Type} {write : α → List Char} {close : Char} {rest rest' : List Char}

/-- The parts after the first, each behind a separator. -/
def tail (write : α → List Char) (items : List α) : List Char :=
  items.flatMap fun item => ',' :: ' ' :: write item

theorem intercalate_cons (item : α) (items : List α) :
    [',', ' '].intercalate ((item :: items).map write) = write item ++ tail write items := by
  induction items generalizing item with
  | nil => simp [tail]
  | cons next items ih =>
    rw [List.map_cons, List.map_cons, List.intercalate_cons_cons, ← List.map_cons, ih, tail, tail,
      List.flatMap_cons, List.append_assoc]
    rfl

/-- Behind a part comes a separator or the end. -/
theorem ends_behind (items : List α) (closing : isNumeral close = false) :
    Ends (tail write items ++ close :: rest) := by
  cases items with
  | nil =>
    rintro c ⟨⟩
    simp [closing]
  | cons item items =>
    rintro c ⟨⟩
    decide

theorem row_inj {items items' : List α} (each : ∀ item ∈ items, Legible write item)
    (closing : isNumeral close = false) (apart : close ≠ ',')
    (same : tail write items ++ close :: rest = tail write items' ++ close :: rest') :
    items = items' ∧ rest = rest' := by
  induction items generalizing items' with
  | nil =>
    cases items' with
    | nil => exact ⟨rfl, (List.cons_eq_cons.mp same).2⟩
    | cons => exact absurd (List.cons_eq_cons.mp same).1 apart
  | cons item items ih =>
    cases items' with
    | nil => exact absurd (List.cons_eq_cons.mp same).1.symm apart
    | cons item' items' =>
      rw [tail, tail, List.flatMap_cons, List.flatMap_cons, List.append_assoc, List.append_assoc] at same
      obtain ⟨rfl, later⟩ := each item List.mem_cons_self _ _ _ (ends_behind items closing)
        (ends_behind items' closing) (List.cons_eq_cons.mp (List.cons_eq_cons.mp same).2).2
      obtain ⟨rfl, ends⟩ := ih (fun item listed => each item (List.mem_cons_of_mem _ listed)) later
      exact ⟨rfl, ends⟩

/-- Parts with separators between them, up to a closing character that none of them begins with. -/
theorem separated_inj {items items' : List α} (each : ∀ item ∈ items, Legible write item)
    (closing : isNumeral close = false) (apart : close ≠ ',')
    (begins : ∀ item more more', write item ++ more ≠ close :: more')
    (same : [',', ' '].intercalate (items.map write) ++ close :: rest =
      [',', ' '].intercalate (items'.map write) ++ close :: rest') :
    items = items' ∧ rest = rest' := by
  cases items with
  | nil =>
    cases items' with
    | nil => exact ⟨rfl, (List.cons_eq_cons.mp same).2⟩
    | cons item' items' =>
      rw [intercalate_cons, List.append_assoc] at same
      exact absurd same.symm (begins _ _ _)
  | cons item items =>
    rw [intercalate_cons, List.append_assoc] at same
    cases items' with
    | nil => exact absurd same (begins _ _ _)
    | cons item' items' =>
      rw [intercalate_cons, List.append_assoc] at same
      obtain ⟨rfl, later⟩ := each item List.mem_cons_self _ _ _ (ends_behind items closing)
        (ends_behind items' closing) same
      obtain ⟨rfl, ends⟩ := row_inj (fun item listed => each item (List.mem_cons_of_mem _ listed))
        closing apart later
      exact ⟨rfl, ends⟩

end

/-- A key is quoted, so it can be told where it ends, and what is behind it is read next. -/
theorem legible_entry {entry : String × Datum} (item : Legible chars entry.2) :
    Legible entryChars entry := by
  rintro ⟨key', item'⟩ rest rest' ends ends' same
  rw [entryChars, entryChars, List.append_assoc, List.append_assoc] at same
  obtain ⟨key, later⟩ := Text.quote_inj same
  obtain ⟨rfl, rest⟩ := item item' _ _ ends ends' (List.cons_eq_cons.mp (List.cons_eq_cons.mp later).2).2
  exact ⟨Prod.ext key rfl, rest⟩

theorem entry_ne_closing {entry : String × Datum} {rest rest' : List Char} :
    entryChars entry ++ rest ≠ '\x7d' :: rest' := by
  rw [entryChars, Text.toList_quote]
  exact fun same => absurd (List.cons_eq_cons.mp same).1 (by decide)

/-- Whatever contents are printed, they can be read off the beginning of a text. -/
theorem legible (datum : Datum) : Legible chars datum := by
  induction datum using Datum.print.induct with
  | case1 =>
    intro other rest rest' _ _ same
    cases other <;> cases shape_eq same
    exact ⟨rfl, List.append_cancel_left same⟩
  | case2 n =>
    intro other rest rest' ends ends' same
    cases other <;> cases shape_eq same
    next n' =>
      rw [chars, chars, print, print] at same
      obtain ⟨written, rest⟩ := Text.front_inj (fun c => isNumeral_of_written)
        (fun c => isNumeral_of_written) ends ends' same
      exact ⟨congrArg integer (integer_inj written), rest⟩
  | case3 content =>
    intro other rest rest' _ _ same
    cases other <;> cases shape_eq same
    next content' =>
      rw [chars, chars, print, print] at same
      obtain ⟨written, rest⟩ := Text.quote_inj same
      exact ⟨congrArg text (TextBytes.text_inj written), rest⟩
  | case4 items ih =>
    intro other rest rest' _ _ same
    cases other <;> cases shape_eq same
    next items' =>
      rw [chars_list, chars_list, List.cons_append, List.cons_append, List.append_assoc,
        List.append_assoc] at same
      obtain ⟨rfl, rest⟩ := separated_inj ih rfl (by decide) (fun _ _ _ => ne_closing)
        (List.cons_eq_cons.mp same).2
      exact ⟨rfl, rest⟩
  | case5 entries ih =>
    intro other rest rest' _ _ same
    cases other <;> cases shape_eq same
    next entries' =>
      rw [chars_record, chars_record, List.cons_append, List.cons_append, List.append_assoc,
        List.append_assoc] at same
      obtain ⟨rfl, rest⟩ := separated_inj (fun entry listed => legible_entry (ih entry listed)) rfl
        (by decide) (fun _ _ _ => entry_ne_closing) (List.cons_eq_cons.mp same).2
      exact ⟨rfl, rest⟩

theorem print_inj {datum other : Datum} (same : datum.print = other.print) : datum = other :=
  (datum.legible other [] [] (by rintro _ ⟨⟩) (by rintro _ ⟨⟩) (by rw [chars, same, chars])).1

end Datum

/-! ## Printing shows the contents -/

namespace Heap

/-- The contents of a value that contains nothing further. -/
def plainContents? (heap : Heap) (cells : HostCells) : Value → Option Datum
  | .null => some .null
  | .object handle =>
    (heap.view? .string handle).bind fun string =>
      if valid : string.text?.isSome then some (.text ⟨string.bytes, valid⟩) else none
  | value => (value.tryInteger heap.links cells).map .integer

/-- The contents of a value that is built of nulls, integers, texts, arrays and maps alone and nests no
deeper than so many levels. -/
def contents? (heap : Heap) (cells : HostCells) (levels : Nat) (value : Value) : Option Datum :=
  match heap.enclosure? value, levels with
  | none, _ => heap.plainContents? cells value
  | some (.array values), levels + 1 =>
    (values.mapM fun item => heap.contents? cells levels item).map .list
  | some (.map entries), levels + 1 =>
    (entries.mapM fun entry => (heap.contents? cells levels entry.2).map (entry.1, ·)).map .record
  | _, _ => none

variable {heap heap' : Heap} {cells cells' : HostCells} {value value' : Value} {datum datum' : Datum}

theorem contents?_cases {levels : Nat} (holds : heap.contents? cells levels value = some datum) :
    (heap.enclosure? value = none ∧ heap.plainContents? cells value = some datum) ∨
      ∃ below, levels = below + 1 ∧
        ((∃ values items, heap.enclosure? value = some (.array values) ∧
          values.mapM (heap.contents? cells below) = some items ∧ datum = .list items) ∨
        ∃ entries items, heap.enclosure? value = some (.map entries) ∧
          (entries.mapM fun entry => (heap.contents? cells below entry.2).map (entry.1, ·)) = some items ∧
          datum = .record items) := by
  unfold contents? at holds
  split at holds
  · next flat => exact .inl ⟨flat, holds⟩
  · next values below found =>
    obtain ⟨items, all, rfl⟩ := Option.map_eq_some_iff.mp holds
    exact .inr ⟨below, rfl, .inl ⟨values, items, found, all, rfl⟩⟩
  · next entries below found =>
    obtain ⟨items, all, rfl⟩ := Option.map_eq_some_iff.mp holds
    exact .inr ⟨below, rfl, .inr ⟨entries, items, found, all, rfl⟩⟩
  · cases holds

theorem valueText_of_plainContents (holds : heap.plainContents? cells value = some datum) :
    heap.valueText cells none true value = datum.print ∧ ¬ datum.IsContainer := by
  cases value with
  | null =>
    cases holds
    exact ⟨by rw [valueText, Datum.print], id⟩
  | integer n =>
    cases holds
    exact ⟨by rw [valueText, Datum.print], id⟩
  | linkedInteger id' =>
    obtain ⟨n, read, rfl⟩ := Option.map_eq_some_iff.mp holds
    rw [Value.tryInteger] at read
    exact ⟨by rw [valueText, read, Datum.print], id⟩
  | object handle =>
    obtain ⟨string, seen, holds⟩ := Option.bind_eq_some_iff.mp holds
    split at holds
    · next valid =>
      cases holds
      obtain ⟨object, found, kind⟩ := Option.bind_eq_some_iff.mp seen
      have payload := Variant.string.inject_of_project _ _ kind
      have lossy : string.lossyText = TextBytes.text ⟨string.bytes, valid⟩ :=
        Text.ofUtf8Lossy_of_ofUtf8? (TextBytes.ofUtf8?_bytes ⟨string.bytes, valid⟩)
      simp only [valueText, found, objectText, ← payload, Variant.string, if_true, lossy]
      exact ⟨by rw [Datum.print], id⟩
    · cases holds
  | _ => cases holds

/-- Whatever has contents is printed as these are, and an array or a map so too where it stands alone. -/
theorem displayWithin_of_contents {levels : Nat} (holds : heap.contents? cells levels value = some datum)
    {nested : Bool} (inside : nested = true ∨ datum.IsContainer) :
    heap.displayWithin cells levels nested value = datum.print := by
  induction levels generalizing value datum nested with
  | zero =>
    obtain ⟨flat, plain⟩ | ⟨below, ⟨⟩, -⟩ := contents?_cases holds
    obtain ⟨text, bare⟩ := valueText_of_plainContents plain
    rw [inside.resolve_right bare, displayWithin, text]
  | succ levels ih =>
    have nests (item : Value) (part : Datum) (holds : heap.contents? cells levels item = some part) :
        heap.displayWithin cells levels true item = part.print := ih holds (.inl rfl)
    obtain ⟨flat, plain⟩ | ⟨_, ⟨⟩, ⟨values, items, found, all, rfl⟩ | ⟨entries, items, found, all, rfl⟩⟩ :=
      contents?_cases holds
    · obtain ⟨text, bare⟩ := valueText_of_plainContents plain
      rw [inside.resolve_right bare, displayWithin, valueText_of_plain flat, text]
    · rw [displayWithin, (valueText_of_enclosure found cells nested).2, Datum.print, Enclosure.text,
        ← Text.map_eq_of_mapM all nests]
      rfl
    · have each (entry : String × Value) (item : String × Datum)
          (read : (heap.contents? cells levels entry.2).map (entry.1, ·) = some item) :
          Text.quote entry.1 ++ ": " ++ heap.displayWithin cells levels true entry.2 =
            Text.quote item.1 ++ ": " ++ item.2.print := by
        obtain ⟨part, holds, rfl⟩ := Option.map_eq_some_iff.mp read
        rw [nests _ _ holds]
      rw [displayWithin, (valueText_of_enclosure found cells nested).2, Datum.print, Enclosure.text,
        ← Text.map_eq_of_mapM all each]
      rfl

/-! ## Telling contents apart -/

/-- **Printed contents are unambiguous.** Two arrays or maps, of one heap or of two, that hold nothing but
nulls, integers, UTF-8 texts, arrays and maps and nest no deeper than is printed, have one text just when
they have the same contents: the same items in the same order, the same bytes in texts, and the same keys in
maps, spelled alike and in the same order. -/
theorem display_eq_iff_contents_eq (holds : heap.contents? cells displayDepth value = some datum)
    (holds' : heap'.contents? cells' displayDepth value' = some datum') (container : datum.IsContainer)
    (container' : datum'.IsContainer) :
    heap.display cells value = heap'.display cells' value' ↔ datum = datum' := by
  rw [display, display, displayWithin_of_contents holds (.inr container),
    displayWithin_of_contents holds' (.inr container')]
  exact ⟨Datum.print_inj, congrArg Datum.print⟩

/-- Three texts, an array of the first and an array of the other two. Between quotes, the first is what
stands between the quotes of the other two. -/
def rows : Heap :=
  let heap := ((ofConfig .default).copyText "a\", \"b").heap
  let heap := (heap.copyText "a").heap
  let heap := (heap.copyText "b").heap
  let heap := (heap.newArray #[.object ⟨⟨0, 0⟩⟩]).heap
  (heap.newArray #[.object ⟨⟨1, 0⟩⟩, .object ⟨⟨2, 0⟩⟩]).heap

theorem display_rows_ne :
    rows.display .zero (.object ⟨⟨3, 0⟩⟩) ≠ rows.display .zero (.object ⟨⟨4, 0⟩⟩) := by
  have first : rows.contents? .zero displayDepth (.object ⟨⟨3, 0⟩⟩) =
      some (.list [.text ⟨Text.utf8 "a\", \"b", by decide⟩]) := by rfl
  have second : rows.contents? .zero displayDepth (.object ⟨⟨4, 0⟩⟩) =
      some (.list [.text ⟨Text.utf8 "a", by decide⟩, .text ⟨Text.utf8 "b", by decide⟩]) := by rfl
  rw [Ne, display_eq_iff_contents_eq first second trivial trivial]
  exact fun same => absurd (Datum.list.inj same) (by simp)

end Heap
end ScriptHeap
