import Mathlib.Algebra.Group.Int.Defs
import Mathlib.Algebra.Group.Nat.Defs
import Mathlib.Data.List.Basic

/-!
# JSON values and how typed data are read from them

The reading side follows what a derived decoder of a self-describing format does: a record is an
object, whose further entries are ignored, or an array with one item for each field; a tagged record
carries the name of its variant in an entry of its own, or as the first item; a variant without data
is its name, or an object with its name as the only key.

A `Codec` pairs a writer with a reader and says for which values the pair gives the value back. Each
value that is read is one of them, so that reading, writing and reading again is reading once
(`Codec.stable`).

- `Codec.string`, `Codec.int`, `Codec.nat`, `Codec.text`, `Codec.enumeration`: codecs of plain
  values.
- `Codec.field`, `Codec.skipped`, `Codec.nulled` with `Codec.required_of_lookup` and
  `Codec.optional_of_lookup`: entries of records.
-/

set_option autoImplicit false

/-- A JSON value. The numbers that are integers are told from the others. -/
inductive Json where
  | null
  | bool (value : Bool)
  | int (value : Int)
  | float (text : String)
  | string (value : String)
  | array (items : List Json)
  | object (entries : List (String × Json))

namespace Json

/-- The entries of a record with the named fields. -/
def fields (names : List String) : Json → Option (List (String × Json))
  | object entries => some entries
  | array items => if items.length = names.length then some (names.zip items) else none
  | _ => none

/-- The variant of a tagged record, and the rest of it. -/
def tagged (tag : String) : Json → Option (Json × Json)
  | object entries =>
      (entries.lookup tag).map fun kind =>
        (kind, object (entries.filter fun entry => entry.1 ≠ tag))
  | array (kind :: items) => some (kind, array items)
  | _ => none

/-- The tag is taken out of the entries. -/
theorem tagged_object_cons (tag : String) (kind : Json) (entries : List (String × Json)) :
    tagged tag (object ((tag, kind) :: entries)) =
      some (kind, object (entries.filter fun entry => entry.1 ≠ tag)) := by
  simp [tagged]

/-- Entries of other names are found where those of one name are left out. -/
theorem lookup_filter_ne {entries : List (String × Json)} {name tag : String} (h : name ≠ tag) :
    (entries.filter fun entry => entry.1 ≠ tag).lookup name = entries.lookup name := by
  induction entries with
  | nil => rfl
  | cons entry entries ih =>
      obtain ⟨key, value⟩ := entry
      by_cases hkey : key = tag
      · have hne : (name == key) = false := beq_eq_false_iff_ne.mpr (hkey ▸ h)
        rw [List.filter_cons_of_neg (by simpa using hkey), ih, List.lookup_cons, hne]
      · rw [List.filter_cons_of_pos (by simpa using hkey), List.lookup_cons, List.lookup_cons, ih]

/-- The name of a variant without data. -/
def variantName : Json → Option String
  | string name => some name
  | object [(name, null)] => some name
  | object [(name, object [])] => some name
  | _ => none

/-- A writer and a reader, and the values that they agree on. -/
structure Codec (α : Type) where
  encode : α → Json
  decode : Json → Option α
  Valid : α → Prop
  decode_encode : ∀ value, Valid value → decode (encode value) = some value
  valid_of_decode : ∀ json value, decode json = some value → Valid value
  decode_null : decode null = none

namespace Codec

variable {α : Type}

/-- What was read is read again when it is written. -/
theorem stable (c : Codec α) {json : Json} {value : α} (h : c.decode json = some value) :
    c.decode (c.encode value) = some value :=
  c.decode_encode value (c.valid_of_decode json value h)

/-! ## Plain values -/

/-- A value that is written as text. -/
def text (write : α → String) (parse : String → Option α) (Valid : α → Prop)
    (hwrite : ∀ value, Valid value → parse (write value) = some value)
    (hparse : ∀ text value, parse text = some value → Valid value) : Codec α where
  encode value := string (write value)
  decode
    | string text => parse text
    | _ => none
  Valid := Valid
  decode_encode := hwrite
  valid_of_decode json value h := by
    cases json with
    | string text => exact hparse text value h
    | null => cases h
    | bool _ => cases h
    | int _ => cases h
    | float _ => cases h
    | array _ => cases h
    | object _ => cases h
  decode_null := rfl

/-- A text. -/
def string : Codec String :=
  text id some (fun _ => True) (fun _ _ => rfl) fun _ _ _ => trivial

/-- A number that is an integer in a range, as a value that counts from somewhere. -/
def int (write : α → Int) (parse : Int → Option α) (Valid : α → Prop)
    (hwrite : ∀ value, Valid value → parse (write value) = some value)
    (hparse : ∀ number value, parse number = some value → Valid value) : Codec α where
  encode value := Json.int (write value)
  decode
    | .int number => parse number
    | _ => none
  Valid := Valid
  decode_encode := hwrite
  valid_of_decode json value h := by
    cases json with
    | int number => exact hparse number value h
    | null => cases h
    | bool _ => cases h
    | float _ => cases h
    | string _ => cases h
    | array _ => cases h
    | object _ => cases h
  decode_null := rfl

/-- A signed integer of a width. -/
def signed (bits : Nat) : Codec Int :=
  int id (fun number => if -2 ^ (bits - 1) ≤ number ∧ number < 2 ^ (bits - 1)
    then some number else none)
    (fun number => -2 ^ (bits - 1) ≤ number ∧ number < 2 ^ (bits - 1))
    (fun _ h => if_pos h)
    (fun number value h => by
      obtain ⟨hrange, hsame⟩ := Option.ite_none_right_eq_some.mp h
      obtain rfl := Option.some.inj hsame
      exact hrange)

/-- An unsigned integer of a width. -/
def unsigned (bits : Nat) : Codec Nat :=
  int Int.ofNat
    (fun number => if 0 ≤ number ∧ number.toNat < 2 ^ bits then some number.toNat else none)
    (fun number => number < 2 ^ bits)
    (fun number h => if_pos ⟨Int.natCast_nonneg number, h⟩)
    (fun number value h => by
      obtain ⟨⟨_, hrange⟩, hsame⟩ := Option.ite_none_right_eq_some.mp h
      obtain rfl := Option.some.inj hsame
      exact hrange)

/-- The variants of an enumeration without data. -/
def enumeration (write : α → String) (parse : String → Option α)
    (hwrite : ∀ value, parse (write value) = some value) : Codec α where
  encode value := Json.string (write value)
  decode json := (variantName json).bind parse
  Valid _ := True
  decode_encode value _ := hwrite value
  valid_of_decode _ _ _ := trivial
  decode_null := rfl

/-! ## Entries of a record -/

section Entries

variable (c : Codec α) (name : String)

/-- An entry that is always written. -/
def field (value : α) : List (String × Json) := [(name, c.encode value)]

/-- An entry that is left out where there is no value. -/
def skipped : Option α → List (String × Json)
  | none => []
  | some value => [(name, c.encode value)]

/-- An entry that is null where there is no value. -/
def nulled : Option α → List (String × Json)
  | none => [(name, null)]
  | some value => [(name, c.encode value)]

/-- An entry that must be there. -/
def required (entries : List (String × Json)) : Option α := (entries.lookup name).bind c.decode

/-- An entry that may be left out, or null. -/
def optional (entries : List (String × Json)) : Option (Option α) :=
  match entries.lookup name with
  | none => some none
  | some null => some none
  | some json => (c.decode json).map some

variable {c name}

@[simp] theorem lookup_field (key : String) (value : α) :
    (c.field name value).lookup key = if key = name then some (c.encode value) else none := by
  by_cases h : key = name
  · simp [field, h]
  · have hne : (key == name) = false := beq_eq_false_iff_ne.mpr h
    simp [field, h, List.lookup_cons, hne]

@[simp] theorem lookup_skipped (key : String) (value : Option α) :
    (c.skipped name value).lookup key = if key = name then value.map c.encode else none := by
  cases value with
  | none => simp [skipped]
  | some value => exact lookup_field key value

@[simp] theorem lookup_nulled (key : String) (value : Option α) :
    (c.nulled name value).lookup key =
      if key = name then some ((value.map c.encode).getD null) else none := by
  cases value with
  | none =>
      by_cases h : key = name
      · simp [nulled, h]
      · have hne : (key == name) = false := beq_eq_false_iff_ne.mpr h
        simp [nulled, h, List.lookup_cons, hne]
  | some value => exact lookup_field key value

theorem required_of_lookup {entries : List (String × Json)} {value : α} (hvalid : c.Valid value)
    (h : entries.lookup name = some (c.encode value)) : c.required name entries = some value := by
  rw [required, h]
  exact c.decode_encode value hvalid

theorem valid_of_required {entries : List (String × Json)} {value : α}
    (h : c.required name entries = some value) : c.Valid value := by
  obtain ⟨json, _, hdecode⟩ := Option.bind_eq_some_iff.mp h
  exact c.valid_of_decode json value hdecode

theorem optional_of_lookup {entries : List (String × Json)} {value : Option α}
    (hvalid : ∀ inner ∈ value, c.Valid inner)
    (h : entries.lookup name = value.map c.encode ∨
      entries.lookup name = some ((value.map c.encode).getD null)) :
    c.optional name entries = some value := by
  unfold optional
  cases value with
  | none =>
      rcases h with h | h
      · rw [h]
        rfl
      · rw [h]
        rfl
  | some value =>
      have hlookup : entries.lookup name = some (c.encode value) := h.elim id id
      have hdecode := c.decode_encode value (hvalid value rfl)
      rw [hlookup]
      split
      · contradiction
      · rename_i hnull
        rw [Option.some.inj hnull, c.decode_null] at hdecode
        cases hdecode
      · rename_i json _ hjson
        rw [← Option.some.inj hjson, hdecode]
        rfl

theorem valid_of_optional {entries : List (String × Json)} {value : Option α}
    (h : c.optional name entries = some value) : ∀ inner ∈ value, c.Valid inner := by
  intro inner hinner
  unfold optional at h
  split at h
  · obtain rfl := Option.some.inj h
    cases hinner
  · obtain rfl := Option.some.inj h
    cases hinner
  · rename_i json _ _
    obtain ⟨read, hdecode, hsame⟩ := Option.map_eq_some_iff.mp h
    rw [← hsame, Option.mem_some] at hinner
    subst hinner
    exact c.valid_of_decode json read hdecode

end Entries

end Codec

end Json
