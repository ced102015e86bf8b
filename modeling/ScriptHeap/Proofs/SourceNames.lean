import ScriptHeap.Object.Function
import ScriptHeap.Text.Utf8.Lemmas

/-! Names of source files, which are cut where they are too long. From the last place within the limit the cut
steps back to where a character begins. There the longest front of the name that fits has its end, no more than
three bytes away, since no character has more than four. -/
namespace ScriptHeap

namespace Text

/-! ## Boundaries -/

namespace Utf8
variable {chars front other : List Char} {place : Nat}

theorem begins_ofNat {n : Nat} (small : n < 0x100) :
    begins (UInt8.ofNat n) = decide (n < 0x80 ∨ 0xC0 ≤ n) := by
  have same : (UInt8.ofNat n).toNat = n := UInt8.toNat_ofNat_of_lt' small
  simp only [begins, UInt8.lt_iff_toNat_lt, UInt8.le_iff_toNat_le, same, Bool.decide_or]
  rfl

/-- Of the bytes of a character the first one begins it, and no other begins one. -/
theorem encode_split (c : Char) : ∃ first others, String.utf8EncodeChar c = first :: others ∧
    begins first = true ∧ others.any begins = false := by
  have bound : c.val.toNat < 0x110000 := c.valid.elim (fun low => by omega) And.right
  have leads {n : Nat} (small : n < 0x100) (outside : n < 0x80 ∨ 0xC0 ≤ n) :
      begins (UInt8.ofNat n) = true := (begins_ofNat small).trans (decide_eq_true outside)
  have follows (n : Nat) : begins (UInt8.ofNat (n % 0x40 + 0x80)) = false :=
    (begins_ofNat (by omega)).trans (decide_eq_false (by omega))
  fun_cases String.utf8EncodeChar c with
  | case1 => exact ⟨_, _, rfl, leads (by omega) (by omega), rfl⟩
  | _ =>
    refine ⟨_, _, rfl, leads (by omega) (by omega), ?_⟩
    simp only [List.any_cons, List.any_nil, follows, Bool.or_self]

theorem length_encoded_cons (c : Char) (chars : List Char) :
    ((c :: chars).flatMap String.utf8EncodeChar).length =
      c.utf8Size + (chars.flatMap String.utf8EncodeChar).length := by
  rw [List.flatMap_cons, List.length_append, String.length_utf8EncodeChar]

/-- Between the first byte of a character and its end there is no boundary. -/
theorem isBoundary_inside (c : Char) (chars : List Char) (after : 0 < place)
    (before : place < c.utf8Size) :
    isBoundary ((c :: chars).flatMap String.utf8EncodeChar) place = false := by
  obtain ⟨first, others, split, -, follow⟩ := encode_split c
  obtain ⟨spot, rfl⟩ := Nat.exists_eq_add_one.2 after
  rw [← String.length_utf8EncodeChar, split, List.length_cons] at before
  have within : spot < others.length := Nat.lt_of_succ_lt_succ before
  have follows : begins others[spot] = false :=
    Bool.eq_false_iff.2 (List.any_eq_false.1 follow _ (List.getElem_mem within))
  rw [isBoundary, List.flatMap_cons, split, List.cons_append, List.getElem?_cons_succ,
    List.getElem?_append_left within, List.getElem?_eq_getElem within]
  simp only [follows]
  rfl

/-- Behind a character the boundaries are those of what follows on it. -/
theorem isBoundary_behind (c : Char) (chars : List Char) (place : Nat) :
    isBoundary ((c :: chars).flatMap String.utf8EncodeChar) (c.utf8Size + place) =
      isBoundary (chars.flatMap String.utf8EncodeChar) place := by
  have positive := c.utf8Size_pos
  have there : ((c :: chars).flatMap String.utf8EncodeChar)[c.utf8Size + place]? =
      (chars.flatMap String.utf8EncodeChar)[place]? := by
    rw [← String.length_utf8EncodeChar, List.flatMap_cons,
      List.getElem?_append_right (Nat.le_add_right ..), Nat.add_sub_cancel_left]
  have behind : (c.utf8Size + place == 0) = false := beq_eq_false_iff_ne.2 (by omega)
  have shifted (n : Nat) : (c.utf8Size + place == c.utf8Size + n) = (place == n) := by
    rw [Bool.eq_iff_iff, beq_iff_eq, beq_iff_eq, Nat.add_left_cancel_iff]
  rw [isBoundary, isBoundary, there, behind, Bool.false_or, length_encoded_cons, shifted]
  cases place with
  | succ place => rfl
  | zero =>
    -- The front of what follows is a boundary since a character begins there, or since nothing follows.
    cases chars with
    | nil => rfl
    | cons next chars =>
      obtain ⟨first, others, split, leads, -⟩ := encode_split next
      rw [List.flatMap_cons, split]
      exact leads

/-- The boundaries are the places where a front of the characters ends. -/
theorem isBoundary_iff : isBoundary (chars.flatMap String.utf8EncodeChar) place = true ↔
    ∃ front, front <+: chars ∧ (front.flatMap String.utf8EncodeChar).length = place := by
  constructor
  · intro boundary
    induction chars generalizing place with
    | nil =>
      obtain rfl : place = 0 := by simpa [isBoundary] using boundary
      exact ⟨[], List.nil_prefix, rfl⟩
    | cons c chars ih =>
      obtain before | behind := Nat.lt_or_ge place c.utf8Size
      · obtain rfl | after := Nat.eq_zero_or_pos place
        · exact ⟨[], List.nil_prefix, rfl⟩
        · rw [isBoundary_inside c chars after before] at boundary
          cases boundary
      · obtain ⟨later, rfl⟩ := Nat.exists_eq_add_of_le behind
        obtain ⟨front, early, rfl⟩ := ih (isBoundary_behind c chars later ▸ boundary)
        exact ⟨c :: front, (List.prefix_cons_inj c).2 early, length_encoded_cons ..⟩
  · rintro ⟨front, ⟨back, rfl⟩, rfl⟩
    induction front with
    | nil => rfl
    | cons c front ih =>
      rw [List.cons_append, length_encoded_cons, isBoundary_behind]
      exact ih

/-- Stepping back always comes to a boundary, and to the last one that is not behind where it began. -/
theorem exists_boundaryFrom? (bytes : List UInt8) (start : Nat) :
    ∃ place ≤ start, boundaryFrom? bytes start = some place ∧ isBoundary bytes place = true ∧
      ∀ other ≤ start, isBoundary bytes other = true → other ≤ place := by
  induction start with
  | zero => exact ⟨0, Nat.le_refl 0, rfl, rfl, fun other near _ => near⟩
  | succ start ih =>
    by_cases here : isBoundary bytes (start + 1) = true
    · refine ⟨start + 1, Nat.le_refl _, ?_, here, fun other near _ => near⟩
      rw [boundaryFrom?, if_pos here]
    · obtain ⟨place, near, stepped, boundary, last⟩ := ih
      refine ⟨place, Nat.le_succ_of_le near, ?_, boundary, fun other near' boundary' => ?_⟩
      · rw [boundaryFrom?, if_neg here]
        exact stepped
      · have elsewhere : other ≠ start + 1 := fun same => here (same ▸ boundary')
        exact last other (by omega) boundary'

/-- Of two fronts of the same characters the one with no more bytes is a front of the other. -/
theorem prefix_of_length_encoded_le (early : front <+: chars) (early' : other <+: chars)
    (le : (other.flatMap String.utf8EncodeChar).length ≤
      (front.flatMap String.utf8EncodeChar).length) : other <+: front := by
  obtain within | ⟨more, rfl⟩ := List.prefix_or_prefix_of_prefix early' early
  · exact within
  · cases more with
    | nil => simp
    | cons c more =>
      have positive := c.utf8Size_pos
      rw [List.flatMap_append, List.length_append, length_encoded_cons] at le
      omega

end Utf8

/-! ## Fronts -/

/-- The longest front of a text within so many bytes: whole characters of it, as many as fit. -/
structure LongestFront (room : Nat) (text front : String) : Prop where
  whole : front.toList <+: text.toList
  fits : (utf8 front).length ≤ room
  longest : ∀ other : String, other.toList <+: text.toList → (utf8 other).length ≤ room →
    other.toList <+: front.toList

section
variable {text front : String}

theorem utf8_of_front {back : List Char} (whole : front.toList ++ back = text.toList) :
    utf8 text = utf8 front ++ back.flatMap String.utf8EncodeChar := by
  rw [utf8, ← whole, List.flatMap_append]
  rfl

theorem length_utf8_le (whole : front.toList <+: text.toList) :
    (utf8 front).length ≤ (utf8 text).length := by
  obtain ⟨back, whole⟩ := whole
  rw [utf8_of_front whole, List.length_append]
  exact Nat.le_add_right ..

/-- Where a front of a text ends the text can be cut, and what stands before the cut is that front. -/
theorem cut?_eq (whole : front.toList <+: text.toList) : cut? text (utf8 front).length = some front := by
  have boundary : Utf8.isBoundary (utf8 text) (utf8 front).length = true :=
    Utf8.isBoundary_iff.2 ⟨front.toList, whole, rfl⟩
  obtain ⟨back, whole⟩ := whole
  rw [cut?, if_pos boundary, utf8_of_front whole, List.take_left, ofUtf8?_utf8]

end

/-- Every text can be truncated, and what is left is the longest of its fronts that fit. -/
theorem truncate?_longest (text : String) (room : Nat) :
    ∃ front, truncate? text room = some front ∧ LongestFront room text front := by
  obtain ⟨place, near, stepped, boundary, last⟩ :=
    Utf8.exists_boundaryFrom? (utf8 text) (min (utf8 text).length room)
  obtain ⟨chars, early, rfl⟩ := Utf8.isBoundary_iff.1 boundary
  obtain ⟨front, rfl⟩ : ∃ front : String, front.toList = chars :=
    ⟨String.ofList chars, String.toList_ofList⟩
  refine ⟨front, ?_, early, Nat.le_trans near (Nat.min_le_right ..), fun other early' fits => ?_⟩
  · rw [truncate?, stepped]
    exact cut?_eq early
  · have reached : (utf8 other).length ≤ min (utf8 text).length room :=
      Nat.le_min.2 ⟨length_utf8_le early', fits⟩
    exact Utf8.prefix_of_length_encoded_le early early'
      (last _ reached (Utf8.isBoundary_iff.2 ⟨other.toList, early', rfl⟩))

namespace LongestFront
variable {room : Nat} {text front : String}

/-- A text that fits is its own longest front. -/
theorem eq_of_fits (cut : LongestFront room text front) (fits : (utf8 text).length ≤ room) :
    front = text := by
  have all := cut.longest text List.prefix_rfl fits
  exact String.toList_inj.1 (cut.whole.eq_of_length_le all.length_le)

/-- The next character is one that does not fit. -/
theorem lt_length_next {c : Char} {back : List Char} (cut : LongestFront room text front)
    (whole : front.toList ++ c :: back = text.toList) : room < (utf8 front).length + c.utf8Size := by
  refine Nat.lt_of_not_le fun fits => ?_
  have early : (front.push c).toList <+: text.toList := by
    rw [String.toList_push, ← whole]
    exact ⟨back, List.append_assoc ..⟩
  have length : (utf8 (front.push c)).length = (utf8 front).length + c.utf8Size := by
    rw [utf8, String.toList_push, List.flatMap_append, List.length_append, List.flatMap_singleton,
      String.length_utf8EncodeChar]
    rfl
  have shorter := (cut.longest (front.push c) early (Nat.le_trans (Nat.le_of_eq length) fits)).length_le
  rw [String.toList_push, List.length_append] at shorter
  exact Nat.not_succ_le_self _ shorter

/-- Where the text does not fit, no more than three bytes of room are left. -/
theorem le_length_add_three (cut : LongestFront room text front) (long : room < (utf8 text).length) :
    room ≤ (utf8 front).length + 3 := by
  obtain ⟨back, whole⟩ := cut.whole
  cases back with
  | nil =>
    rw [utf8_of_front whole, List.flatMap_nil, List.append_nil] at long
    exact absurd cut.fits (Nat.not_le.2 long)
  | cons c back =>
    have next := cut.lt_length_next whole
    have small := c.utf8Size_le_four
    omega

end LongestFront

end Text

/-! ## Source files -/

namespace FunctionDef

/-- **A source file goes by the longest front of its name that fits.** Every name can be set, and nothing of
the function is changed but its source. A name of up to 255 bytes is kept as it is; of a longer one at least
252 bytes are kept, and no part of a character. To set what was kept once more changes nothing. -/
theorem sourceName_longest (function : FunctionDef) (source : String) :
    let named := function.setSource source
    function.setSource? source = some named ∧ named = { function with source := named.source } ∧
      Text.LongestFront 255 source named.source ∧
      ((Text.utf8 source).length ≤ 255 → named.source = source) ∧
      (255 < (Text.utf8 source).length →
        252 ≤ (Text.utf8 named.source).length ∧ (Text.utf8 named.source).length ≤ 255) ∧
      named.setSource? named.source = some named := by
  intro named
  obtain ⟨front, truncated, cut⟩ := Text.truncate?_longest source sourceLimit
  have answers : function.setSource? source = some { function with source := front } := by
    rw [setSource?, truncated, Option.map_some]
  have stored : named = { function with source := front } := congrArg (·.getD function) answers
  rw [stored]
  -- What was kept fits, and is cut no further.
  obtain ⟨again, truncated', cut'⟩ := Text.truncate?_longest front sourceLimit
  have same : again = front := cut'.eq_of_fits cut.fits
  refine ⟨answers, rfl, cut, fun short => cut.eq_of_fits short, fun long => ⟨?_, cut.fits⟩, ?_⟩
  · have near : 252 + 3 ≤ (Text.utf8 front).length + 3 := cut.le_length_add_three long
    exact Nat.le_of_add_le_add_right near
  · rw [setSource?, truncated', same, Option.map_some]

/-- A name of 256 bytes whose last character begins at byte 252, and a name that is short enough. -/
theorem sourceName_faces :
    let faces := String.ofList (List.replicate 64 '😀')
    255 < (Text.utf8 faces).length ∧
      (empty.setSource faces).source.toList = List.replicate 63 '😀' ∧
      (Text.utf8 "scripts/main.hsl").length ≤ 255 ∧
      (empty.setSource "scripts/main.hsl").source = "scripts/main.hsl" := by
  intro faces
  have bytes (count : Nat) :
      ((List.replicate count '😀').flatMap String.utf8EncodeChar).length = 4 * count := by
    induction count with
    | zero => rfl
    | succ count ih =>
      rw [List.replicate_succ, Text.Utf8.length_encoded_cons, ih]
      show 4 + 4 * count = 4 * (count + 1)
      omega
  obtain ⟨-, -, cut, -, near, -⟩ := sourceName_longest empty faces
  obtain ⟨-, -, -, kept, -, -⟩ := sourceName_longest empty "scripts/main.hsl"
  have long : 255 < (Text.utf8 faces).length := by
    rw [Text.utf8, String.toList_ofList, bytes]
    decide
  have whole := cut.whole
  rw [String.toList_ofList, List.prefix_replicate_iff] at whole
  have size := near long
  rw [Text.utf8, whole.2, bytes] at size
  have count : (empty.setSource faces).source.toList.length = 63 := by omega
  exact ⟨long, count ▸ whole.2, by decide, kept (by decide)⟩

end FunctionDef
end ScriptHeap
