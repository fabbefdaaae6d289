import Tabular.Json.Decode
import Tabular.Proofs.Json.Text
import Tabular.Proofs.Ordered.SortedMap

/-!
# Records that read back

A type with a writer and a reader is a codec when the reader undoes the writer and the text of
what is written can be read too. Codecs come from codecs: for lists, for maps of strings, for
words, and for records. A record needs one condition of its own, that no field goes by the name
of a later one. Then its members are filed each under its own field, and the fields are taken
from them one by one.
-/

namespace Tabular.Json

open Ordered

variable {α : Type}

/-- A reader undoes a writer, and what is written holds no number, so that its text can be read
as well. -/
structure IsCodec (encode : α → Value) (decode : Decoder α) : Prop where
  decode_encode : ∀ a, decode (encode a) = some a
  isPlain : ∀ a, (encode a).IsPlain

namespace IsCodec

variable {encode : α → Value} {decode : Decoder α}

theorem encode_injective (h : IsCodec encode decode) : Function.Injective encode := by
  intro a b heq
  have ha := h.decode_encode a
  rw [heq, h.decode_encode b] at ha
  exact (Option.some.inj ha).symm

/-- Different elements have different texts, each being read as the value it was written for. -/
theorem compact_injective (h : IsCodec encode decode) :
    Function.Injective fun a => (encode a).compact := by
  intro a b heq
  have ha := read?_compact (h.isPlain a)
  rw [show (encode a).compact = (encode b).compact from heq, read?_compact (h.isPlain b)] at ha
  exact h.encode_injective (Option.some.inj ha).symm

end IsCodec

/-! ## Members and fields -/

namespace Record

/-- No field goes by the name of a later one. -/
def Apart (fields : List RecordField) : Prop := fields.Pairwise fun f g => f.named g.name = false

instance (fields : List RecordField) : Decidable (Apart fields) :=
  inferInstanceAs (Decidable (List.Pairwise _ fields))

variable {fields : List RecordField}

theorem named_self (f : RecordField) : f.named f.name = true := by
  rw [RecordField.named, beq_self_eq_true, Bool.true_or]

/-- A field is the first one that goes by its name. -/
theorem find?_named (h : Apart fields) {f : RecordField} (hf : f ∈ fields) :
    fields.find? (·.named f.name) = some f := by
  induction fields with
  | nil => cases hf
  | cons g rest ih =>
      obtain ⟨hg, hrest⟩ := List.pairwise_cons.mp h
      obtain rfl | hf := List.mem_cons.mp hf
      · exact List.find?_cons_of_pos (named_self f)
      · rw [List.find?_cons, hg f hf]
        exact ih hrest hf

theorem names_nodup (h : Apart fields) : (fields.map (·.name)).Nodup := by
  refine List.pairwise_map.mpr (h.imp fun {f g} hfg heq => ?_)
  rw [← heq, named_self] at hfg
  cases hfg

theorem lookup_eq_none {key : String} {ms : List (String × Value)}
    (h : key ∉ ms.map (·.1)) : Value.lookup key ms = none := by
  induction ms with
  | nil => rfl
  | cons m rest ih =>
      rw [List.map_cons, List.mem_cons, not_or] at h
      rw [Value.lookup, if_neg (fun heq => h.1 heq.symm), ih h.2]

/-- Members under the names of different fields are filed as they are. -/
theorem ofMembers?_eq (h : Apart fields) {ms filed : List (String × Value)}
    (hnames : ∀ m ∈ ms, m.1 ∈ fields.map (·.name)) (hnodup : ((filed ++ ms).map (·.1)).Nodup) :
    ofMembers? fields ms filed = some (filed ++ ms) := by
  induction ms generalizing filed with
  | nil => rw [ofMembers?, List.append_nil]
  | cons m rest ih =>
      obtain ⟨k, v⟩ := m
      obtain ⟨f, hf, rfl⟩ := List.mem_map.mp (hnames _ List.mem_cons_self)
      have hnew : Value.lookup f.name filed = none := by
        refine lookup_eq_none fun hmem => ?_
        rw [List.map_append, List.map_cons] at hnodup
        exact (List.nodup_append.mp hnodup).2.2 _ hmem _ List.mem_cons_self rfl
      have hsplit : filed ++ (f.name, v) :: rest = (filed ++ [(f.name, v)]) ++ rest := by simp
      rw [hsplit] at hnodup ⊢
      rw [ofMembers?, find?_named h hf]
      simp only [hnew, Option.isSome_none]
      exact ih (fun m hm => hnames m (List.mem_cons_of_mem _ hm)) hnodup

/-- An object with members for some of the fields, in the order of the fields, gives these
members. -/
theorem read?_obj {ms : List (String × Value)} (h : Apart fields)
    (hsub : (ms.map (·.1)).Sublist (fields.map (·.name))) :
    read? fields (.obj ms) = some ms := by
  refine ofMembers?_eq h (fun m hm => ?_) ?_
  · exact hsub.subset (List.mem_map.mpr ⟨m, hm, rfl⟩)
  · exact (names_nodup h).sublist hsub

/-! A field is taken from the member that has its name, and others are passed over. -/

variable {name key : String} {v : Value} {r : Record} {decode : Decoder α}

@[simp] theorem required_self : required ((name, v) :: r) name decode = decode v := by
  simp [required, Value.lookup]

@[simp] theorem required_skip (h : key ≠ name) :
    required ((key, v) :: r) name decode = required r name decode := by
  simp [required, Value.lookup, h]

@[simp] theorem orElse_self {a : α} : orElse ((name, v) :: r) name decode a = decode v := by
  simp [orElse, Value.lookup]

@[simp] theorem orElse_skip {a : α} (h : key ≠ name) :
    orElse ((key, v) :: r) name decode a = orElse r name decode a := by
  simp [orElse, Value.lookup, h]

@[simp] theorem optional_skip (h : key ≠ name) :
    optional ((key, v) :: r) name decode = optional r name decode := by
  simp [optional, Value.lookup, h]

@[simp] theorem optional_str {s : String} :
    optional ((name, .str s) :: r) name Decode.string = some (some s) := by
  simp [optional, Value.lookup, Decode.string, Value.str?]

@[simp] theorem optional_nil : optional [] name decode = some none := rfl

/-- A string that may be missing is written as null, which no string is. -/
@[simp] theorem optional_self {s : Option String} :
    optional ((name, Encode.string? s) :: r) name Decode.string = some s := by
  cases s with
  | none => simp [optional, Value.lookup, Encode.string?, Encode.option]
  | some s => exact optional_str

end Record

/-! ## Codecs of codecs -/

namespace Value

@[simp] theorem isPlain_str (s : String) : (Value.str s).IsPlain := .str s

@[simp] theorem isPlain_bool (b : Bool) : (Value.bool b).IsPlain := .bool b

@[simp] theorem isPlain_string? (s : Option String) : (Encode.string? s).IsPlain := by
  cases s with
  | none => exact .null
  | some s => exact .str s

end Value

@[simp] theorem string_str (s : String) : Decode.string (.str s) = some s := rfl

@[simp] theorem bool_bool (b : Bool) : Decode.bool (.bool b) = some b := rfl

theorem isCodec_string : IsCodec Value.str Decode.string := ⟨string_str, Value.isPlain_str⟩

/-- A list is read back item by item. -/
theorem mapM_map_eq_some {β : Type} {f : α → β} {g : β → Option α} {xs : List α}
    (h : ∀ x ∈ xs, g (f x) = some x) : (xs.map f).mapM g = some xs := by
  induction xs with
  | nil => rfl
  | cons x xs ih =>
      rw [List.map_cons, List.mapM_cons, h x List.mem_cons_self,
        ih fun y hy => h y (List.mem_cons_of_mem x hy)]
      rfl

theorem IsCodec.list {encode : α → Value} {decode : Decoder α} (h : IsCodec encode decode) :
    IsCodec (Encode.list encode) (Decode.list decode) where
  decode_encode _ := mapM_map_eq_some fun a _ => h.decode_encode a
  isPlain xs := by
    refine .arr fun v hv => ?_
    obtain ⟨a, -, rfl⟩ := List.mem_map.mp hv
    exact h.isPlain a

@[simp] theorem stringMap_stringMap (m : SortedMap String String) :
    Decode.stringMap (Encode.stringMap m) = some m := by
  rw [Encode.stringMap, Decode.stringMap, mapM_map_eq_some (by intro e _; rfl)]
  exact congrArg some (SortedMap.ofList_toList m)

@[simp] theorem isPlain_stringMap (m : SortedMap String String) :
    (Encode.stringMap m).IsPlain := by
  refine .obj fun v hv => ?_
  obtain ⟨e, -, rfl⟩ := List.mem_map.mp hv
  exact .str e.2

theorem isCodec_word {words : List (String × α)} {text : α → String}
    (h : ∀ a, words.lookup (text a) = some a) :
    IsCodec (fun a => .str (text a)) (Decode.word words) where
  decode_encode := h
  isPlain a := .str (text a)

/-- A type that is written field by field is read back when taking the fields from what was
written gives it. -/
theorem isCodec_record {fields : List RecordField} {members : α → Record}
    {take : Record → Option α} (hapart : Record.Apart fields)
    (hsub : ∀ a, ((members a).map (·.1)).Sublist (fields.map (·.name)))
    (htake : ∀ a, take (members a) = some a) (hplain : ∀ a, ∀ m ∈ members a, m.2.IsPlain) :
    IsCodec (fun a => .obj (members a)) (fun v => Record.read? fields v >>= take) where
  decode_encode a := by
    rw [Record.read?_obj hapart (hsub a)]
    exact htake a
  isPlain a := .obj (hplain a)

end Tabular.Json
