import Mathlib.Data.List.Nodup
import ScriptHeap.Config.Heap
import ScriptHeap.Json.Grammar.Lemmas
import ScriptHeap.Json.Reader.Lemmas

/-! Configurations as text. Of an object in JSON only the members that go by the names of fields count, and
their order does not: each field may be given once and has to be a natural number of 64 bits, and what is
not given is as it is by default. -/
namespace ScriptHeap.HeapConfig

/-! ## Fields -/

inductive Field where
  | initialCapacity
  | maxObjectCount
  | maxMemorySize
  | collectThreshold
deriving DecidableEq, Repr

namespace Field

def all : List Field := [initialCapacity, maxObjectCount, maxMemorySize, collectThreshold]

def name : Field → String
  | initialCapacity => "initial_capacity"
  | maxObjectCount => "max_object_count"
  | maxMemorySize => "max_memory_size"
  | collectThreshold => "collect_threshold"

def ofName? (name : String) : Option Field := all.find? (·.name == name)

theorem ofName?_eq_some_iff {spelled : String} {field : Field} :
    ofName? spelled = some field ↔ spelled = field.name := by
  constructor
  · intro found
    rw [ofName?] at found
    have named := List.find?_some found
    exact (eq_of_beq named).symm
  · rintro rfl
    cases field <;> decide

end Field

variable {config : HeapConfig} {members : List (Option String × Json)} {field : Field}

def get (config : HeapConfig) : Field → UInt64
  | .initialCapacity => config.initialCapacity
  | .maxObjectCount => config.maxObjectCount
  | .maxMemorySize => config.maxMemorySize
  | .collectThreshold => config.collectThreshold

def ofFields (value : Field → UInt64) : HeapConfig where
  initialCapacity := value .initialCapacity
  maxObjectCount := value .maxObjectCount
  maxMemorySize := value .maxMemorySize
  collectThreshold := value .collectThreshold

theorem get_ofFields (value : Field → UInt64) : (ofFields value).get = value := by
  funext field
  cases field <;> rfl

theorem ofFields_get (config : HeapConfig) : ofFields config.get = config := rfl

/-- The default configuration with some fields set to other values. -/
def withFields (given : List (Field × UInt64)) : HeapConfig :=
  ofFields fun field => (given.lookup field).getD (default.get field)

/-! ## Objects -/

/-- What an object has under the names of fields, in its order. -/
def fieldsOf (members : List (Option String × Json)) : List (Field × Json) :=
  members.filterMap fun member => (member.1.bind Field.ofName?).map (·, member.2)

/-- What a field is by an object: its default where the object does not have it, and nothing where the object
has it more than once. -/
def readField? (members : List (Option String × Json)) (field : Field) : Option UInt64 :=
  match ((fieldsOf members).filter (·.1 == field)).map Prod.snd with
  | [] => some (default.get field)
  | [value] => value.word?
  | _ => none

theorem map_filter_members (members : List (Option String × Json)) (field : Field) :
    (members.filter (·.1 == some field.name)).map Prod.snd =
      ((fieldsOf members).filter (·.1 == field)).map Prod.snd := by
  induction members with
  | nil => rfl
  | cons member members ih =>
    obtain ⟨name, value⟩ := member
    have listed : (name == some field.name) = true ↔ name.bind Field.ofName? = some field := by
      rw [beq_iff_eq, Option.bind_eq_some_iff]
      simp only [Field.ofName?_eq_some_iff, exists_eq_right]
    rw [List.filter_cons, fieldsOf, List.filterMap_cons]
    cases known : name.bind Field.ofName? with
    | none =>
      rw [known] at listed
      simp only [reduceCtorEq, iff_false] at listed
      rw [if_neg listed]
      exact ih
    | some other =>
      rw [known, Option.some.injEq] at listed
      by_cases own : other = field
      · rw [if_pos (listed.2 own), Option.map_some, List.filter_cons_of_pos (by simpa using own)]
        exact congrArg (value :: ·) ih
      · rw [if_neg (own ∘ listed.1), Option.map_some, List.filter_cons_of_neg (by simpa using own)]
        exact ih

theorem field?_object (members : List (Option String × Json)) (field : Field) (position : Nat) :
    (Json.object members).field? position field.name (default.get field) Json.word? =
      readField? members field := by
  rw [readField?, ← map_filter_members, Json.field?]
  generalize members.filter (·.1 == some field.name) = listed
  rcases listed with _ | ⟨⟨name, value⟩, _ | ⟨other, more⟩⟩ <;> rfl

/-- What it takes for an object to be read as a configuration. -/
theorem ofJson?_object_eq_some_iff :
    ofJson? (.object members) = some config ↔
      (∀ member ∈ members, member.1.isSome = true) ∧
        ∀ field, readField? members field = some (config.get field) := by
  have names : (Json.object members).isRecord 4 = true ↔ ∀ member ∈ members, member.1.isSome = true :=
    List.all_eq_true
  have read := field?_object members
  have initialCapacity := read .initialCapacity 0
  have maxObjectCount := read .maxObjectCount 1
  have maxMemorySize := read .maxMemorySize 2
  have collectThreshold := read .collectThreshold 3
  simp only [Field.name, get] at initialCapacity maxObjectCount maxMemorySize collectThreshold
  simp only [ofJson?, initialCapacity, maxObjectCount, maxMemorySize, collectThreshold, ← names,
    Option.bind_eq_bind]
  constructor
  · intro found
    split at found
    · next whole =>
      simp only [Option.bind_eq_some_iff, Option.some.injEq] at found
      obtain ⟨_, first, _, second, _, third, _, fourth, rfl⟩ := found
      refine ⟨whole, fun field => ?_⟩
      cases field <;> assumption
    · cases found
  · rintro ⟨whole, fields⟩
    rw [if_pos whole]
    simp only [fields, Option.bind_some, get]

/-! ## What is read and what is not -/

theorem toList_word (word : UInt64) : (toString word).toList = Nat.toDigits 10 word.toNat := by
  rw [show toString word = word.toNat.repr from rfl]
  exact Nat.toList_repr

theorem word?_natural (n : Nat) :
    (Json.number (toString n)).word? = if n < UInt64.size then some n.toUInt64 else none := by
  have digits : (Nat.toDigits 10 n).all (·.isDigit) = true :=
    List.all_eq_true.2 fun c => Text.isDigit_of_written
  have spelled : (toString n).toList = Nat.toDigits 10 n := Nat.toList_repr
  simp only [Json.word?, Json.natural?, spelled, digits, ↓reduceIte, Nat.ofDigitChars_ten_toDigits]

theorem word?_word (word : UInt64) : (Json.number (toString word)).word? = some word := by
  have natural := word?_natural word.toNat
  rwa [if_pos word.toNat_lt, Nat.toUInt64_eq, UInt64.ofNat_toNat] at natural

/-- Values that no field can have. -/
inductive Misfit : Json → Prop where
  | null : Misfit .null
  | bool (b : Bool) : Misfit (.bool b)
  | string (text : Option String) : Misfit (.string text)
  | array (items : List Json) : Misfit (.array items)
  | object (members : List (Option String × Json)) : Misfit (.object members)
  /-- A number with a sign, a point or an exponent. -/
  | unnatural {literal : String} {c : Char} (listed : c ∈ literal.toList) (other : c.isDigit = false) :
      Misfit (.number literal)
  | large {n : Nat} (exceeds : UInt64.size ≤ n) : Misfit (.number (toString n))

theorem Misfit.word?_eq_none {value : Json} (misfit : Misfit value) : value.word? = none := by
  cases misfit with
  | @unnatural literal c listed other =>
    have odd : literal.toList.all (·.isDigit) = false :=
      List.all_eq_false.2 ⟨c, listed, by simp [other]⟩
    simp only [Json.word?, Json.natural?, odd, Bool.false_eq_true, ↓reduceIte]
  | large exceeds => rw [word?_natural, if_neg (Nat.not_lt.2 exceeds)]
  | _ => rfl

/-- Every value is the number of a word, or no field can have it. -/
theorem word_or_misfit {value : Json} {text : String} (spelled : value.SpelledBy text) :
    (∃ word : UInt64, value = .number (toString word)) ∨ Misfit value := by
  cases value with
  | number literal =>
    by_cases natural : ∀ c ∈ literal.toList, c.isDigit = true
    · obtain ⟨chars, numeral, rfl⟩ : ∃ chars, Json.Numeral chars ∧ literal = String.ofList chars := by
        rw [Json.SpelledBy] at spelled
        generalize text.toList = chars at spelled
        cases spelled with
        | element _ spelled _ =>
          cases spelled with
          | number numeral => exact ⟨_, numeral, rfl⟩
      rw [String.toList_ofList] at natural
      have same : String.ofList chars = toString (Nat.ofDigitChars 10 chars 0) := by
        rw [Nat.toString_eq_ofList_toDigits, Json.numeral_natural numeral natural]
      rw [same]
      by_cases small : Nat.ofDigitChars 10 chars 0 < UInt64.size
      · refine .inl ⟨UInt64.ofNat (Nat.ofDigitChars 10 chars 0), ?_⟩
        rw [show ∀ word : UInt64, toString word = toString word.toNat from fun _ => rfl,
          UInt64.toNat_ofNat_of_lt' small]
      · exact .inr (.large (Nat.le_of_not_lt small))
    · simp only [not_forall, Bool.not_eq_true] at natural
      obtain ⟨c, listed, other⟩ := natural
      exact .inr (.unnatural listed other)
  | null => exact .inr .null
  | bool b => exact .inr (.bool b)
  | string text => exact .inr (.string text)
  | array items => exact .inr (.array items)
  | object members => exact .inr (.object members)

section
variable {given given' : List (Field × UInt64)}

theorem filter_of_nodup (distinct : (given.map Prod.fst).Nodup) (field : Field) :
    given.filter (·.1 == field) = ((given.lookup field).map (field, ·)).toList := by
  induction given with
  | nil => rfl
  | cons one given ih =>
    obtain ⟨other, word⟩ := one
    obtain ⟨fresh, rest⟩ := List.nodup_cons.1 distinct
    by_cases own : field = other
    · subst own
      have others : given.filter (·.1 == field) = [] := by
        refine List.filter_eq_nil_iff.2 fun one listed same => fresh ?_
        exact List.mem_map.2 ⟨one, listed, eq_of_beq same⟩
      simp [others]
    · rw [List.filter_cons_of_neg (by simpa using Ne.symm own), ih rest, List.lookup_cons,
        beq_false_of_ne own]

theorem lookup_perm (distinct : (given.map Prod.fst).Nodup) (same : given.Perm given') (field : Field) :
    given'.lookup field = given.lookup field := by
  have distinct' : (given'.map Prod.fst).Nodup := (same.map _).nodup_iff.1 distinct
  have filtered := same.filter (·.1 == field)
  rw [filter_of_nodup distinct, filter_of_nodup distinct'] at filtered
  generalize given.lookup field = word, given'.lookup field = word' at filtered ⊢
  cases word <;> cases word' <;> simp_all

theorem readField?_given (distinct : (given.map Prod.fst).Nodup)
    (gives : fieldsOf members = given.map fun one => (one.1, .number (toString one.2))) (field : Field) :
    readField? members field = some ((withFields given).get field) := by
  have values : ((fieldsOf members).filter (·.1 == field)).map Prod.snd =
      (given.filter (·.1 == field)).map fun one => .number (toString one.2) := by
    rw [gives, List.filter_map, List.map_map]
    rfl
  rw [readField?, values, filter_of_nodup distinct, withFields, get_ofFields]
  cases given.lookup field with
  | none => rfl
  | some word => exact word?_word word

end

theorem readField?_of_repeated (repeated : ¬ ((fieldsOf members).map Prod.fst).Nodup) :
    ∃ field, readField? members field = none := by
  rw [List.nodup_iff_count_le_one] at repeated
  simp only [not_forall, Nat.not_le] at repeated
  obtain ⟨field, twice⟩ := repeated
  refine ⟨field, ?_⟩
  have several : 1 < (((fieldsOf members).filter (·.1 == field)).map Prod.snd).length := by
    rw [List.length_map, ← List.countP_eq_length_filter]
    rwa [List.count, List.countP_map] at twice
  rw [readField?]
  generalize ((fieldsOf members).filter (·.1 == field)).map Prod.snd = values at several
  rcases values with _ | ⟨value, _ | ⟨other, more⟩⟩
  · simp at several
  · simp at several
  · rfl

theorem readField?_of_misfit {value : Json} (listed : (field, value) ∈ fieldsOf members)
    (misfit : Misfit value) : readField? members field = none := by
  have held : value ∈ ((fieldsOf members).filter (·.1 == field)).map Prod.snd :=
    List.mem_map.2 ⟨(field, value), List.mem_filter.2 ⟨listed, by simp⟩, rfl⟩
  rw [readField?]
  generalize ((fieldsOf members).filter (·.1 == field)).map Prod.snd = values at held
  rcases values with _ | ⟨other, _ | ⟨another, more⟩⟩
  · cases held
  · rw [List.mem_singleton.1 held] at misfit
    exact misfit.word?_eq_none
  · rfl

/-! ## What is written -/

/-- All fields of a configuration, in the order in which they are written. -/
def fields (config : HeapConfig) : List (Field × UInt64) := Field.all.map fun field => (field, config.get field)

def membersOf (given : List (Field × UInt64)) : List (Option String × Json) :=
  given.map fun one => (some one.1.name, .number (toString one.2))

theorem fieldsOf_membersOf (given : List (Field × UInt64)) :
    fieldsOf (membersOf given) = given.map fun one => (one.1, .number (toString one.2)) := by
  rw [fieldsOf, membersOf, List.filterMap_map, ← List.filterMap_eq_map]
  refine List.filterMap_congr fun one _ => ?_
  have known : Field.ofName? one.1.name = some one.1 := Field.ofName?_eq_some_iff.2 rfl
  simp [known]

private theorem blank_nil : Json.Blank [] := fun _ listed => absurd listed List.not_mem_nil

theorem spells_word (word : UInt64) :
    Json.Spells (.element (.number (toString word))) (toString word).toList := by
  have numeral := Json.numeral_toDigits word.toNat
  rw [← toList_word] at numeral
  have spelled := Json.Spells.element blank_nil (.number numeral) blank_nil
  rwa [String.ofList_toList, List.append_nil, List.nil_append] at spelled

theorem spells_name (field : Field) :
    Json.NameSpelled (some field.name) ('"' :: (field.name.toList ++ ['"'])) := by
  have quoted := @Json.quoted_plain field.name.toList (by cases field <;> decide)
  have spelled := Json.NameSpelled.intro blank_nil quoted blank_nil
  rwa [String.ofList_toList, List.append_nil, List.nil_append] at spelled

theorem spelledBy_write (config : HeapConfig) :
    Json.SpelledBy (.object (membersOf config.fields)) config.write := by
  have inside := Json.Spells.member (spells_name .initialCapacity) (spells_word config.initialCapacity)
    (.member (spells_name .maxObjectCount) (spells_word config.maxObjectCount)
      (.member (spells_name .maxMemorySize) (spells_word config.maxMemorySize)
        (.lastMember (spells_name .collectThreshold) (spells_word config.collectThreshold))))
  have spelled := Json.Spells.element blank_nil (.object inside) blank_nil
  unfold Json.SpelledBy write
  refine Eq.mp (congrArg (Json.Spells (.element (.object (membersOf config.fields)))) ?_) spelled
  simp [Field.name]

/-! ## Texts -/

theorem withFields_fields (config : HeapConfig) : withFields config.fields = config := by
  rw [← ofFields_get config, withFields]
  congr 1
  funext field
  cases field <;> rfl

theorem nodup_fields (config : HeapConfig) : (config.fields.map Prod.fst).Nodup := by
  rw [fields, List.map_map]
  exact (by decide : Field.all.Nodup)

/-- A text is an object in which these fields are given, each once, among any others. Every name in it is a
text, as all names without escapes are. -/
def Lists (text : String) (given : List (Field × UInt64)) : Prop :=
  ∃ members, Json.SpelledBy (.object members) text ∧ (∀ member ∈ members, member.1.isSome = true) ∧
    fieldsOf members = given.map (fun one => (one.1, .number (toString one.2))) ∧
    (given.map Prod.fst).Nodup

theorem lists_write (config : HeapConfig) : Lists config.write config.fields := by
  refine ⟨membersOf config.fields, spelledBy_write config, ?_, fieldsOf_membersOf config.fields,
    nodup_fields config⟩
  intro member listed
  obtain ⟨one, -, rfl⟩ := List.mem_map.1 listed
  rfl

theorem read?_eq_ofJson? {json : Json} {text : String} (spelled : json.SpelledBy text) :
    read? text = ofJson? json := by
  rw [read?, Json.read?_of_spelledBy spelled, Option.bind_some]

theorem read?_of_lists {text : String} {given : List (Field × UInt64)} (lists : Lists text given) :
    read? text = some (withFields given) := by
  obtain ⟨members, spelled, names, gives, distinct⟩ := lists
  rw [read?_eq_ofJson? spelled, ofJson?_object_eq_some_iff]
  exact ⟨names, readField?_given distinct gives⟩

theorem withFields_perm {given given' : List (Field × UInt64)} (distinct : (given.map Prod.fst).Nodup)
    (same : given.Perm given') : withFields given' = withFields given := by
  simp only [withFields, lookup_perm distinct same]

/-- **Configurations survive being written, and texts are read field by field.** What is written of a
configuration is read as that configuration. An object that gives some of the fields, each once and as a
natural number of 64 bits, in any order and among any other members, is read as the default configuration
with just these fields set; so it does not matter in which order they are given and among what. An object
that gives a field twice or as something else is not read at all, and what is something else is any value
but such a number. -/
theorem read_texts :
    (∀ config : HeapConfig, read? config.write = some config) ∧
    (∀ text given, Lists text given → read? text = some (withFields given) ∧
      ∀ text' given', Lists text' given' → given.Perm given' → read? text' = read? text) ∧
    (∀ members text, Json.SpelledBy (.object members) text →
      ¬ ((fieldsOf members).map Prod.fst).Nodup ∨ (∃ given ∈ fieldsOf members, Misfit given.2) →
      read? text = none) ∧
    ∀ value text, Json.SpelledBy value text →
      (∃ word : UInt64, value = .number (toString word)) ∨ Misfit value := by
  refine ⟨fun config => ?_, fun text given lists => ⟨read?_of_lists lists, ?_⟩, ?_,
    fun value text => word_or_misfit⟩
  · rw [read?_of_lists (lists_write config), withFields_fields]
  · intro text' given' lists' same
    have distinct : (given.map Prod.fst).Nodup := by
      obtain ⟨-, -, -, -, distinct⟩ := lists
      exact distinct
    rw [read?_of_lists lists', read?_of_lists lists, withFields_perm distinct same]
  · intro members text spelled faulty
    have failing : ∃ field, readField? members field = none := by
      rcases faulty with repeated | ⟨⟨field, value⟩, listed, misfit⟩
      · exact readField?_of_repeated repeated
      · exact ⟨field, readField?_of_misfit listed misfit⟩
    obtain ⟨field, nothing⟩ := failing
    rw [read?_eq_ofJson? spelled, Option.eq_none_iff_forall_ne_some]
    intro config found
    have value := (ofJson?_object_eq_some_iff.1 found).2 field
    rw [nothing] at value
    cases value

/-- Two fields beside something else, and with a blank. -/
def crowded : String :=
  "\x7b\"x\":[-1.5,null],\"max_object_count\": 8,\"initial_capacity\":1\x7d"

/-- The same fields, the other way round. -/
def bare : String := "\x7b\"initial_capacity\":1,\"max_object_count\":8\x7d"

def negative : String := "\x7b\"max_object_count\":-1\x7d"

theorem lists_crowded : Lists crowded [(.maxObjectCount, 8), (.initialCapacity, 1)] := by
  have half : Json.Numeral ['-', '1', '.', '5'] :=
    @Json.Numeral.intro ['-'] ['1'] ['.', '5'] [] (by simp) (by simp [Json.Integral, Json.Digits])
      (.digits (by simp [Json.Digits])) .absent
  have array := Json.Spells.array (.item (.element blank_nil (.number half) blank_nil)
    (.lastItem (.element blank_nil .null blank_nil)))
  have blank : Json.Blank [' '] := by simp [Json.Blank]
  have name := Json.NameSpelled.intro blank_nil (@Json.quoted_plain ['x'] (by decide)) blank_nil
  have inside := Json.Spells.member name (.element blank_nil array blank_nil)
    (.member (spells_name .maxObjectCount)
      (.element blank (.number (Json.numeral_toDigits 8)) blank_nil)
      (.lastMember (spells_name .initialCapacity) (spells_word 1)))
  exact ⟨_, .element blank_nil (.object inside) blank_nil, by decide, rfl, by decide⟩

theorem lists_bare : Lists bare [(.initialCapacity, 1), (.maxObjectCount, 8)] := by
  have inside := Json.Spells.member (spells_name .initialCapacity) (spells_word 1)
    (.lastMember (spells_name .maxObjectCount) (spells_word 8))
  exact ⟨_, .element blank_nil (.object inside) blank_nil, by decide, rfl, by decide⟩

theorem spelledBy_negative :
    Json.SpelledBy (.object [(some "max_object_count", .number "-1")]) negative := by
  have minus : Json.Numeral ['-', '1'] :=
    @Json.Numeral.intro ['-'] ['1'] [] [] (by simp) (by simp [Json.Integral, Json.Digits]) .absent .absent
  have inside := Json.Spells.lastMember (spells_name .maxObjectCount)
    (.element blank_nil (.number minus) blank_nil)
  exact .element blank_nil (.object inside) blank_nil

theorem read_crowded :
    read? crowded = some { default with initialCapacity := 1, maxObjectCount := 8 } ∧
      read? bare = read? crowded ∧ read? negative = none := by
  obtain ⟨-, listed, refused, -⟩ := read_texts
  obtain ⟨known, alike⟩ := listed crowded _ lists_crowded
  have misfit : Misfit (.number "-1") := @Misfit.unnatural "-1" '-' (by decide) rfl
  exact ⟨known.trans (by decide), alike bare _ lists_bare (by decide),
    refused _ negative spelledBy_negative
      (.inr ⟨(.maxObjectCount, .number "-1"), List.mem_singleton.2 rfl, misfit⟩)⟩

end ScriptHeap.HeapConfig
