import ScriptHeap.Text.Utf8

/-! Reading UTF-8 strictly loses nothing: where a byte string is a text, it is just the bytes of that text, and
what is written for a text is read back as that text. -/
namespace ScriptHeap.Text

/-! ## The bytes of one character -/

/-- The bytes that may stand second, third and fourth. -/
def Continues (byte : UInt8) : Prop := 0x80 ≤ byte.toNat ∧ byte.toNat ≤ 0xBF

private theorem val_ofNat {n : Nat} (scalar : n.isValidChar) : (Char.ofNat n).val.toNat = n := by
  rw [Char.ofNat, dif_pos scalar]
  rfl

private theorem ofNat_eq {n : Nat} (byte : UInt8) (same : n = byte.toNat) : UInt8.ofNat n = byte := by
  rw [same, UInt8.ofNat_toNat]

theorem encode_one {first : UInt8} (small : first.toNat < 0x80) :
    String.utf8EncodeChar (Char.ofNat first.toNat) = [first] := by
  have scalar : first.toNat.isValidChar := .inl (by omega)
  rw [String.utf8EncodeChar, val_ofNat scalar]
  simp only [if_pos (show first.toNat ≤ 127 by omega), UInt8.ofNat_toNat]

theorem encode_two {first second : UInt8} (leads : 0xC2 ≤ first.toNat ∧ first.toNat < 0xE0)
    (tail : Continues second) {code : Nat}
    (gathered : code = (first.toNat - 0xC0) * 64 + (second.toNat - 0x80)) :
    String.utf8EncodeChar (Char.ofNat code) = [first, second] := by
  obtain ⟨above, below⟩ := tail
  have scalar : code.isValidChar := .inl (by omega)
  rw [String.utf8EncodeChar, val_ofNat scalar]
  simp only [if_neg (show ¬ code ≤ 127 by omega), if_pos (show code ≤ 2047 by omega)]
  rw [ofNat_eq first (by omega), ofNat_eq second (by omega)]

/-- The bounds of the code leave out overlong forms and surrogates. -/
theorem encode_three {first second third : UInt8} (leads : 0xE0 ≤ first.toNat ∧ first.toNat < 0xF0)
    (tail : Continues second) (tail' : Continues third) {code : Nat}
    (gathered : code = ((first.toNat - 0xE0) * 64 + (second.toNat - 0x80)) * 64 + (third.toNat - 0x80))
    (long : 0x800 ≤ code) (scalar : code < 0xD800 ∨ 0xDFFF < code) :
    String.utf8EncodeChar (Char.ofNat code) = [first, second, third] := by
  obtain ⟨above, below⟩ := tail
  obtain ⟨above', below'⟩ := tail'
  have scalar : code.isValidChar := scalar.imp id fun high => ⟨high, by omega⟩
  rw [String.utf8EncodeChar, val_ofNat scalar]
  simp only [if_neg (show ¬ code ≤ 127 by omega), if_neg (show ¬ code ≤ 2047 by omega),
    if_pos (show code ≤ 65535 by omega)]
  rw [ofNat_eq first (by omega), ofNat_eq second (by omega), ofNat_eq third (by omega)]

theorem encode_four {first second third fourth : UInt8}
    (leads : 0xF0 ≤ first.toNat ∧ first.toNat < 0xF8) (tail : Continues second)
    (tail' : Continues third) (tail'' : Continues fourth) {code : Nat}
    (gathered : code = (((first.toNat - 0xF0) * 64 + (second.toNat - 0x80)) * 64 +
      (third.toNat - 0x80)) * 64 + (fourth.toNat - 0x80))
    (long : 0x10000 ≤ code) (scalar : code < 0x110000) :
    String.utf8EncodeChar (Char.ofNat code) = [first, second, third, fourth] := by
  obtain ⟨above, below⟩ := tail
  obtain ⟨above', below'⟩ := tail'
  obtain ⟨above'', below''⟩ := tail''
  have scalar : code.isValidChar := .inr ⟨by omega, scalar⟩
  rw [String.utf8EncodeChar, val_ofNat scalar]
  simp only [if_neg (show ¬ code ≤ 127 by omega), if_neg (show ¬ code ≤ 2047 by omega),
    if_neg (show ¬ code ≤ 65535 by omega)]
  rw [ofNat_eq first (by omega), ofNat_eq second (by omega), ofNat_eq third (by omega),
    ofNat_eq fourth (by omega)]

/-! ## One character at a time -/

namespace Utf8

/-- What is left of a byte string after one character, and what is read of it. -/
def Reads (bytes : List UInt8) (chars : List Char) : Prop :=
  ∃ first rest others, bytes = String.utf8EncodeChar first ++ rest ∧ chars = first :: others ∧
    decodeFrom none rest = others.map some

/-- An open sequence that owes one byte is completed by it, since there is no gap. -/
theorem decodeFrom_last {low high : UInt8} {bits : Nat} {bytes : List UInt8} {chars : List Char}
    (read : decodeFrom (some ⟨1, low, high, bits⟩) bytes = chars.map some) :
    ∃ byte rest others, bytes = byte :: rest ∧ (low.toNat ≤ byte.toNat ∧ byte.toNat ≤ high.toNat) ∧
      chars = Char.ofNat (bits * 64 + (byte.toNat - 0x80)) :: others ∧
      decodeFrom none rest = others.map some := by
  cases bytes with
  | nil => cases chars <;> cases read
  | cons byte rest =>
    rw [decodeFrom, step] at read
    split at read
    · next within =>
      obtain ⟨c, others, rfl, here, later⟩ := List.map_eq_cons_iff.mp read.symm
      exact ⟨byte, rest, others, rfl, within, by rw [Option.some.inj here], later.symm⟩
    · cases chars <;> cases read

/-- An open sequence that owes more is continued. -/
theorem decodeFrom_inner {owed bits : Nat} {low high : UInt8} {bytes : List UInt8} {chars : List Char}
    (read : decodeFrom (some ⟨owed + 2, low, high, bits⟩) bytes = chars.map some) :
    ∃ byte rest, bytes = byte :: rest ∧ (low.toNat ≤ byte.toNat ∧ byte.toNat ≤ high.toNat) ∧
      decodeFrom (some ⟨owed + 1, 0x80, 0xBF, bits * 64 + (byte.toNat - 0x80)⟩) rest =
        chars.map some := by
  cases bytes with
  | nil => cases chars <;> cases read
  | cons byte rest =>
    rw [decodeFrom, step] at read
    split at read
    · next within =>
      rw [if_neg (Nat.not_le.mpr (Nat.lt_add_left owed Nat.one_lt_two))] at read
      exact ⟨byte, rest, rfl, within, read⟩
    · cases chars <;> cases read

theorem reads_two {first : UInt8} {bytes : List UInt8} {chars : List Char}
    (read : decodeFrom (some ⟨1, 0x80, 0xBF, first.toNat - 0xC0⟩) bytes = chars.map some)
    (leads : 0xC2 ≤ first.toNat ∧ first.toNat < 0xE0) :
    Reads (first :: bytes) chars := by
  obtain ⟨second, rest, others, rfl, tail, rfl, later⟩ := decodeFrom_last read
  exact ⟨_, rest, others, by rw [encode_two leads tail rfl]; rfl, rfl, later⟩

theorem reads_three {first low high : UInt8} {bits : Nat} {bytes : List UInt8} {chars : List Char}
    (read : decodeFrom (some ⟨2, low, high, bits⟩) bytes = chars.map some)
    (gathered : bits = first.toNat - 0xE0) (leads : 0xE0 ≤ first.toNat ∧ first.toNat < 0xF0)
    (bounds : 0x80 ≤ low.toNat ∧ high.toNat ≤ 0xBF)
    (long : first.toNat = 0xE0 → 0xA0 ≤ low.toNat)
    (scalar : first.toNat = 0xED → high.toNat ≤ 0x9F) : Reads (first :: bytes) chars := by
  obtain ⟨second, rest, rfl, tail, read⟩ := decodeFrom_inner read
  obtain ⟨third, rest, others, rfl, tail', rfl, later⟩ := decodeFrom_last read
  have within : Continues second := ⟨Nat.le_trans bounds.1 tail.1, Nat.le_trans tail.2 bounds.2⟩
  have within' : Continues third := tail'
  refine ⟨_, rest, others, ?_, rfl, later⟩
  rw [encode_three leads within within' (by rw [gathered])]
  · rfl
  all_goals
    obtain ⟨above, below⟩ := within
    obtain ⟨above', below'⟩ := within'
    omega

theorem reads_four {first low high : UInt8} {bits : Nat} {bytes : List UInt8} {chars : List Char}
    (read : decodeFrom (some ⟨3, low, high, bits⟩) bytes = chars.map some)
    (gathered : bits = first.toNat - 0xF0) (leads : 0xF0 ≤ first.toNat ∧ first.toNat ≤ 0xF4)
    (bounds : 0x80 ≤ low.toNat ∧ high.toNat ≤ 0xBF)
    (long : first.toNat = 0xF0 → 0x90 ≤ low.toNat)
    (scalar : first.toNat = 0xF4 → high.toNat ≤ 0x8F) : Reads (first :: bytes) chars := by
  obtain ⟨second, rest, rfl, tail, read⟩ := decodeFrom_inner read
  obtain ⟨third, rest, rfl, tail', read⟩ := decodeFrom_inner read
  obtain ⟨fourth, rest, others, rfl, tail'', rfl, later⟩ := decodeFrom_last read
  have within : Continues second := ⟨Nat.le_trans bounds.1 tail.1, Nat.le_trans tail.2 bounds.2⟩
  have within' : Continues third := tail'
  have within'' : Continues fourth := tail''
  refine ⟨_, rest, others, ?_, rfl, later⟩
  rw [encode_four ⟨leads.1, by omega⟩ within within' within'' (by rw [gathered])]
  · rfl
  all_goals
    obtain ⟨above, below⟩ := within
    obtain ⟨above', below'⟩ := within'
    obtain ⟨above'', below''⟩ := within''
    omega

/-- What is read without a gap begins with the bytes of its first character. -/
theorem reads_cons {byte : UInt8} {bytes : List UInt8} {chars : List Char}
    (read : decodeFrom none (byte :: bytes) = chars.map some) : Reads (byte :: bytes) chars := by
  rw [decodeFrom, step] at read
  simp only [start] at read
  split at read
  · next small =>
    obtain ⟨c, others, rfl, here, later⟩ := List.map_eq_cons_iff.mp read.symm
    cases here
    exact ⟨_, bytes, others, by rw [encode_one small]; rfl, rfl, later.symm⟩
  split at read
  · cases chars <;> cases read
  split at read
  · exact reads_two read (by omega)
  split at read
  · exact reads_three read (by omega) (by omega) (by decide) (fun _ => by decide) (by omega)
  split at read
  · exact reads_three read (by omega) (by omega) (by decide) (by omega) fun _ => by decide
  split at read
  · exact reads_three read rfl (by omega) (by decide) (by omega) (by omega)
  split at read
  · exact reads_four read (by omega) (by omega) (by decide) (fun _ => by decide) (by omega)
  split at read
  · exact reads_four read rfl (by omega) (by decide) (by omega) (by omega)
  split at read
  · exact reads_four read (by omega) (by omega) (by decide) (by omega) fun _ => by decide
  · cases chars <;> cases read

theorem flatMap_encode {bytes : List UInt8} {chars : List Char}
    (read : decodeFrom none bytes = chars.map some) :
    chars.flatMap String.utf8EncodeChar = bytes := by
  induction length : bytes.length using Nat.strongRecOn generalizing bytes chars with
  | ind length ih =>
    subst length
    cases bytes with
    | nil =>
      cases chars with
      | nil => rfl
      | cons => cases read
    | cons byte bytes =>
      obtain ⟨first, rest, others, split, rfl, later⟩ := reads_cons read
      have shorter : rest.length < (byte :: bytes).length := by
        have := List.length_pos_iff.mpr (String.utf8EncodeChar_ne_nil (c := first))
        rw [split, List.length_append]
        omega
      rw [split, List.flatMap_cons, ih _ shorter later rfl]

/-! ## What was written -/

variable {first second third fourth low high byte : UInt8} {bits : Nat}

theorem start_one (small : first.toNat < 0x80) :
    start first = ⟨[some (Char.ofNat first.toNat)], none⟩ := by
  rw [start]
  exact if_pos small

theorem start_two (leads : 0xC2 ≤ first.toNat ∧ first.toNat < 0xE0) :
    start first = ⟨[], some ⟨1, 0x80, 0xBF, first.toNat - 0xC0⟩⟩ := by
  simp only [start]
  rw [if_neg (by omega), if_neg (by omega), if_pos leads.2]

theorem start_three (leads : 0xE0 ≤ first.toNat ∧ first.toNat < 0xF0) :
    start first = ⟨[], some ⟨2, if first.toNat = 0xE0 then 0xA0 else 0x80,
      if first.toNat = 0xED then 0x9F else 0xBF, first.toNat - 0xE0⟩⟩ := by
  simp only [start]
  rw [if_neg (by omega), if_neg (by omega), if_neg (by omega)]
  split
  · next lowest =>
    rw [lowest]
    rfl
  split
  · next surrogates => rw [surrogates]
  · rw [if_pos leads.2]

theorem start_four (leads : 0xF0 ≤ first.toNat ∧ first.toNat ≤ 0xF4) :
    start first = ⟨[], some ⟨3, if first.toNat = 0xF0 then 0x90 else 0x80,
      if first.toNat = 0xF4 then 0x8F else 0xBF, first.toNat - 0xF0⟩⟩ := by
  simp only [start]
  rw [if_neg (by omega), if_neg (by omega), if_neg (by omega), if_neg (by omega), if_neg (by omega),
    if_neg (by omega)]
  split
  · next lowest =>
    rw [lowest]
    rfl
  split
  · rw [if_neg (by omega)]
  · have highest : first.toNat = 0xF4 := by omega
    rw [highest]
    rfl

/-- A byte within the bounds completes a sequence that owes one. -/
theorem decodeFrom_completed (rest : List UInt8)
    (within : low.toNat ≤ byte.toNat ∧ byte.toNat ≤ high.toNat) :
    decodeFrom (some ⟨1, low, high, bits⟩) (byte :: rest) =
      some (Char.ofNat (bits * 64 + (byte.toNat - 0x80))) :: decodeFrom none rest := by
  have inside : low ≤ byte ∧ byte ≤ high := within
  rw [decodeFrom, step, if_pos inside]
  rfl

/-- A byte within the bounds continues a sequence that owes more. -/
theorem decodeFrom_continued {owed : Nat} (rest : List UInt8)
    (within : low.toNat ≤ byte.toNat ∧ byte.toNat ≤ high.toNat) :
    decodeFrom (some ⟨owed + 2, low, high, bits⟩) (byte :: rest) =
      decodeFrom (some ⟨owed + 1, 0x80, 0xBF, bits * 64 + (byte.toNat - 0x80)⟩) rest := by
  have inside : low ≤ byte ∧ byte ≤ high := within
  have more : ¬ owed + 2 ≤ 1 := by omega
  rw [decodeFrom, step, if_pos inside]
  simp only [if_neg more]
  rfl

theorem decodeFrom_one (rest : List UInt8) (small : first.toNat < 0x80) :
    decodeFrom none (first :: rest) = some (Char.ofNat first.toNat) :: decodeFrom none rest := by
  rw [decodeFrom, step, start_one small]
  rfl

theorem decodeFrom_two (rest : List UInt8) (leads : 0xC2 ≤ first.toNat ∧ first.toNat < 0xE0)
    (tail : Continues second) :
    decodeFrom none (first :: second :: rest) =
      some (Char.ofNat ((first.toNat - 0xC0) * 64 + (second.toNat - 0x80))) ::
        decodeFrom none rest := by
  rw [decodeFrom, step, start_two leads]
  exact decodeFrom_completed rest tail

theorem decodeFrom_three (rest : List UInt8) (leads : 0xE0 ≤ first.toNat ∧ first.toNat < 0xF0)
    (tail : Continues second) (tail' : Continues third)
    (long : first.toNat = 0xE0 → 0xA0 ≤ second.toNat)
    (scalar : first.toNat = 0xED → second.toNat ≤ 0x9F) :
    decodeFrom none (first :: second :: third :: rest) =
      some (Char.ofNat (((first.toNat - 0xE0) * 64 + (second.toNat - 0x80)) * 64 +
        (third.toNat - 0x80))) :: decodeFrom none rest := by
  rw [decodeFrom, step, start_three leads]
  refine (decodeFrom_continued _ ⟨?_, ?_⟩).trans (decodeFrom_completed rest tail')
  · split
    · exact long ‹_›
    · exact tail.1
  · split
    · exact scalar ‹_›
    · exact tail.2

theorem decodeFrom_four (rest : List UInt8) (leads : 0xF0 ≤ first.toNat ∧ first.toNat ≤ 0xF4)
    (tail : Continues second) (tail' : Continues third) (tail'' : Continues fourth)
    (long : first.toNat = 0xF0 → 0x90 ≤ second.toNat)
    (scalar : first.toNat = 0xF4 → second.toNat ≤ 0x8F) :
    decodeFrom none (first :: second :: third :: fourth :: rest) =
      some (Char.ofNat ((((first.toNat - 0xF0) * 64 + (second.toNat - 0x80)) * 64 +
        (third.toNat - 0x80)) * 64 + (fourth.toNat - 0x80))) :: decodeFrom none rest := by
  have between : (0x80 : UInt8).toNat ≤ third.toNat ∧ third.toNat ≤ (0xBF : UInt8).toNat := tail'
  rw [decodeFrom, step, start_four leads]
  refine (decodeFrom_continued _ ⟨?_, ?_⟩).trans
    ((decodeFrom_continued _ between).trans (decodeFrom_completed rest tail''))
  · split
    · exact long ‹_›
    · exact tail.1
  · split
    · exact scalar ‹_›
    · exact tail.2

theorem exists_byte {n : Nat} (small : n < 0x100) : ∃ byte : UInt8, byte.toNat = n :=
  ⟨UInt8.ofNat n, UInt8.toNat_ofNat_of_lt' small⟩

/-- What is written for a character is read back as that character, whatever follows. -/
theorem decodeFrom_encode (c : Char) (rest : List UInt8) :
    decodeFrom none (String.utf8EncodeChar c ++ rest) = some c :: decodeFrom none rest := by
  obtain ⟨code, valid, rfl⟩ : ∃ code : Nat, (code < 0xD800 ∨ 0xDFFF < code ∧ code < 0x110000) ∧
      Char.ofNat code = c := ⟨c.toNat, c.valid, Char.ofNat_toNat c⟩
  obtain one | two | three | four : code < 0x80 ∨ 0x80 ≤ code ∧ code < 0x800 ∨
      0x800 ≤ code ∧ code < 0x10000 ∨ 0x10000 ≤ code := by omega
  · obtain ⟨first, rfl⟩ := exists_byte (show code < 0x100 by omega)
    rw [encode_one one]
    exact decodeFrom_one rest one
  · obtain ⟨first, lead⟩ := exists_byte (show 0xC0 + code / 64 < 0x100 by omega)
    obtain ⟨second, tail⟩ := exists_byte (show 0x80 + code % 64 < 0x100 by omega)
    have leads : 0xC2 ≤ first.toNat ∧ first.toNat < 0xE0 := by omega
    have within : Continues second := ⟨by omega, by omega⟩
    have gathered : code = (first.toNat - 0xC0) * 64 + (second.toNat - 0x80) := by omega
    rw [encode_two leads within gathered, gathered]
    exact decodeFrom_two rest leads within
  · obtain ⟨first, lead⟩ := exists_byte (show 0xE0 + code / 4096 < 0x100 by omega)
    obtain ⟨second, tail⟩ := exists_byte (show 0x80 + code / 64 % 64 < 0x100 by omega)
    obtain ⟨third, tail'⟩ := exists_byte (show 0x80 + code % 64 < 0x100 by omega)
    have leads : 0xE0 ≤ first.toNat ∧ first.toNat < 0xF0 := by omega
    have within : Continues second := ⟨by omega, by omega⟩
    have within' : Continues third := ⟨by omega, by omega⟩
    have gathered : code =
      ((first.toNat - 0xE0) * 64 + (second.toNat - 0x80)) * 64 + (third.toNat - 0x80) := by omega
    rw [encode_three leads within within' gathered three.1 (by omega), gathered]
    exact decodeFrom_three rest leads within within' (by omega) (by omega)
  · obtain ⟨first, lead⟩ := exists_byte (show 0xF0 + code / 262144 < 0x100 by omega)
    obtain ⟨second, tail⟩ := exists_byte (show 0x80 + code / 4096 % 64 < 0x100 by omega)
    obtain ⟨third, tail'⟩ := exists_byte (show 0x80 + code / 64 % 64 < 0x100 by omega)
    obtain ⟨fourth, tail''⟩ := exists_byte (show 0x80 + code % 64 < 0x100 by omega)
    have leads : 0xF0 ≤ first.toNat ∧ first.toNat ≤ 0xF4 := by omega
    have within : Continues second := ⟨by omega, by omega⟩
    have within' : Continues third := ⟨by omega, by omega⟩
    have within'' : Continues fourth := ⟨by omega, by omega⟩
    have gathered : code = (((first.toNat - 0xF0) * 64 + (second.toNat - 0x80)) * 64 +
      (third.toNat - 0x80)) * 64 + (fourth.toNat - 0x80) := by omega
    rw [encode_four ⟨leads.1, by omega⟩ within within' within'' gathered four (by omega), gathered]
    exact decodeFrom_four rest leads within within' within'' (by omega) (by omega)

theorem decodeFrom_flatMap_encode (chars : List Char) :
    decodeFrom none (chars.flatMap String.utf8EncodeChar) = chars.map some := by
  induction chars with
  | nil => rfl
  | cons c chars ih => rw [List.flatMap_cons, decodeFrom_encode, ih, List.map_cons]

end Utf8

/-! ## Texts -/

/-- What a list is read as, item by item, agrees with it wherever one item agrees with what it is read as. -/
theorem map_eq_of_mapM {α β γ : Type} {read : α → Option β} {before : α → γ} {after : β → γ}
    {items : List α} {values : List β} (all : items.mapM read = some values)
    (each : ∀ item value, read item = some value → before item = after value) :
    items.map before = values.map after := by
  induction items generalizing values with
  | nil =>
    cases all
    rfl
  | cons item items ih =>
    rw [List.mapM_cons] at all
    obtain ⟨value, here, all⟩ := Option.bind_eq_some_iff.mp all
    obtain ⟨others, rest, joined⟩ := Option.bind_eq_some_iff.mp all
    cases joined
    rw [List.map_cons, List.map_cons, each item value here, ih rest]

/-- A text is read of characters without a gap. -/
theorem decodeUtf8_of_ofUtf8? {bytes : List UInt8} {text : String} (read : ofUtf8? bytes = some text) :
    decodeUtf8 bytes = text.toList.map some := by
  obtain ⟨chars, all, rfl⟩ := Option.map_eq_some_iff.mp read
  have whole := map_eq_of_mapM all fun gap c (here : gap = some c) => here
  rw [String.toList_ofList, ← whole, List.map_id']

/-- A byte string that is a text is the bytes of that text. -/
theorem utf8_of_ofUtf8? {bytes : List UInt8} {text : String} (read : ofUtf8? bytes = some text) :
    utf8 text = bytes :=
  Utf8.flatMap_encode (decodeUtf8_of_ofUtf8? read)

/-- What is written for a text is read back as that text. -/
theorem ofUtf8?_utf8 (text : String) : ofUtf8? (utf8 text) = some text := by
  have read : decodeUtf8 (utf8 text) = text.toList.map some := Utf8.decodeFrom_flatMap_encode text.toList
  have all : (text.toList.map some).mapM id = some text.toList := by
    rw [List.mapM_map]
    exact List.mapM_pure.trans (congrArg some (List.map_id text.toList))
  rw [ofUtf8?, read, all, Option.map_some, String.ofList_toList]

/-- On a byte string that is a text the lossy reader agrees with the strict one. -/
theorem ofUtf8Lossy_of_ofUtf8? {bytes : List UInt8} {text : String}
    (read : ofUtf8? bytes = some text) : ofUtf8Lossy bytes = text := by
  rw [ofUtf8Lossy, decodeUtf8_of_ofUtf8? read, List.map_map]
  exact (congrArg String.ofList (List.map_id text.toList)).trans String.ofList_toList

end ScriptHeap.Text
