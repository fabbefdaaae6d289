import Tabular.Json.Reader
import Tabular.Json.Writer

/-!
# Text that reads back

The reader undoes the compact layout of a value without numbers. Each character of a string
is read as it was written, whatever follows it, so a string is read up to its closing quote.
For a value the claim is made with text behind it and a budget, and proved along the value:
what is written begins with a character that tells which reader goes on, and twice as many
calls as it has characters are enough to read it.
-/

namespace Tabular.Json

open Reader Writer

/-! ## Strings -/

theorem hexCode?_hexDigit : ∀ n < 32,
    hexCode? '0' '0' (hexDigit (n / 16)) (hexDigit (n % 16)) = some n := by decide

theorem stringBody_of_noHex (readable : Bool) (soFar rest : List Char) {a b c d : Char}
    (h : hexCode? a b c d = none) :
    stringBody readable soFar ('\\' :: 'u' :: a :: b :: c :: d :: rest) = none := by
  by_cases hrest : ∃ e f g h rest', rest = '\\' :: 'u' :: e :: f :: g :: h :: rest'
  · obtain ⟨e, f, g, h', rest, rfl⟩ := hrest
    rw [stringBody, h]
  · rw [stringBody, h]
    intro e f g h' rest' heq
    exact hrest ⟨e, f, g, h', rest', heq⟩

/-- The code of a control character is read as that character, also in front of another
code. -/
theorem stringBody_of_hex (readable : Bool) (soFar rest : List Char) {a b c d : Char} {n : Nat}
    (h : hexCode? a b c d = some n) (hn : n < 32) :
    stringBody readable soFar ('\\' :: 'u' :: a :: b :: c :: d :: rest) =
      stringBody readable (Char.ofNat n :: soFar) rest := by
  have hhigh : isHighSurrogate n = false := by
    rw [isHighSurrogate, Bool.and_eq_false_iff, decide_eq_false_iff_not]
    omega
  have hlow : isLowSurrogate n = false := by
    rw [isLowSurrogate, Bool.and_eq_false_iff, decide_eq_false_iff_not]
    omega
  -- two codes in a row are looked at together, as they may be the halves of a pair
  by_cases hrest : ∃ e f g h rest', rest = '\\' :: 'u' :: e :: f :: g :: h :: rest'
  · obtain ⟨e, f, g, h', rest, rfl⟩ := hrest
    rw [stringBody, h]
    cases hsecond : hexCode? e f g h' with
    | none => exact (stringBody_of_noHex readable _ rest hsecond).symm
    | some second => simp [hhigh, hlow]
  · rw [stringBody, h]
    · simp [hhigh, hlow]
    · intro e f g h' rest' heq
      exact hrest ⟨e, f, g, h', rest', heq⟩

theorem stringBody_of_raw (readable : Bool) (soFar rest : List Char) {c : Char}
    (hquote : c ≠ '"') (hslash : c ≠ '\\') (hcontrol : 32 ≤ c.toNat) :
    stringBody readable soFar (c :: rest) = stringBody readable (c :: soFar) rest := by
  rw [stringBody]
  · have hlt : ¬ c.toNat < 32 := Nat.not_lt.mpr hcontrol
    simp [hlt, hslash]
  all_goals intros; contradiction

theorem stringBody_of_short (readable : Bool) (soFar rest : List Char) {c e : Char}
    (h : shortEscape? e = some c) :
    stringBody readable soFar ('\\' :: e :: rest) = stringBody readable (c :: soFar) rest := by
  have hu : e ≠ 'u' := by
    rintro rfl
    cases h
  rw [stringBody, h]
  all_goals intros; contradiction

/-- A character is written raw, by a letter behind a backslash, or by its code. -/
theorem escapeChar_cases (c : Char) :
    (c ≠ '"' ∧ c ≠ '\\' ∧ 32 ≤ c.toNat ∧ escapeChar c = [c])
      ∨ (∃ e, shortEscape? e = some c ∧ escapeChar c = ['\\', e])
      ∨ (c.toNat < 32 ∧ escapeChar c =
          ['\\', 'u', '0', '0', hexDigit (c.toNat / 16), hexDigit (c.toNat % 16)]) := by
  have short (e : Char) (h : shortEscape? e = some c) :
      ∃ e', shortEscape? e' = some c ∧ ['\\', e] = ['\\', e'] := ⟨e, h, rfl⟩
  have code {n : Nat} (h : c.toNat = n) : c = Char.ofNat n := by rw [← h, c.ofNat_toNat]
  rw [escapeChar]
  split
  · next h => exact .inr (.inl (short '"' (by rw [h]; rfl)))
  split
  · next h => exact .inr (.inl (short '\\' (by rw [h]; rfl)))
  split
  · next hquote hslash hraw => exact .inl ⟨hquote, hslash, hraw, rfl⟩
  split
  · next h => exact .inr (.inl (short 'n' (by rw [h]; rfl)))
  split
  · next h => exact .inr (.inl (short 'r' (by rw [h]; rfl)))
  split
  · next h => exact .inr (.inl (short 't' (by rw [h]; rfl)))
  split
  · next h => exact .inr (.inl (short 'b' (by rw [code h]; rfl)))
  split
  · next h => exact .inr (.inl (short 'f' (by rw [code h]; rfl)))
  · next hraw _ _ _ _ _ => exact .inr (.inr ⟨Nat.lt_of_not_le hraw, rfl⟩)

/-- A character is read as it was written, whatever follows. -/
theorem stringBody_escapeChar (readable : Bool) (soFar rest : List Char) (c : Char) :
    stringBody readable soFar (escapeChar c ++ rest) =
      stringBody readable (c :: soFar) rest := by
  obtain ⟨hquote, hslash, hraw, h⟩ | ⟨e, he, h⟩ | ⟨hn, h⟩ := escapeChar_cases c
  · rw [h]
    exact stringBody_of_raw readable soFar rest hquote hslash hraw
  · rw [h]
    exact stringBody_of_short readable soFar rest he
  · have hread := stringBody_of_hex readable soFar rest (hexCode?_hexDigit c.toNat hn) hn
    rw [c.ofNat_toNat] at hread
    rw [h]
    exact hread

theorem stringBody_escaped (soFar cs rest : List Char) :
    stringBody true soFar (cs.flatMap escapeChar ++ '"' :: rest) =
      some ((true, soFar.reverse ++ cs), rest) := by
  induction cs generalizing soFar with
  | nil => simp [stringBody]
  | cons c cs ih =>
      rw [List.flatMap_cons, List.append_assoc, stringBody_escapeChar, ih, List.reverse_cons,
        List.append_assoc, List.singleton_append]

theorem toList_string (s : String) :
    (Writer.string s).toList = '"' :: (s.toList.flatMap escapeChar ++ ['"']) :=
  String.toList_ofList

/-! ## Values -/

@[simp] theorem toList_arr (vs : List Value) :
    (compact (.arr vs)).toList = '[' :: ((compactItems vs).toList ++ [']']) := by
  rw [compact, String.toList_append, String.toList_append]
  rfl

@[simp] theorem toList_obj (ms : List (String × Value)) :
    (compact (.obj ms)).toList = '\x7b' :: ((compactMembers ms).toList ++ ['\x7d']) := by
  rw [compact, String.toList_append, String.toList_append]
  rfl

@[simp] theorem toList_items (v w : Value) (vs : List Value) :
    (compactItems (v :: w :: vs)).toList =
      (compact v).toList ++ ',' :: (compactItems (w :: vs)).toList := by
  rw [compactItems, String.toList_append, String.toList_append, List.append_assoc]
  · rfl
  · exact List.cons_ne_nil w vs

@[simp] theorem toList_member (k : String) (v : Value) :
    (compactMembers [(k, v)]).toList =
      '"' :: (k.toList.flatMap escapeChar ++ '"' :: ':' :: (compact v).toList) := by
  rw [compactMembers, String.toList_append, String.toList_append, toList_string]
  simp

@[simp] theorem toList_members (k : String) (v : Value) (m : String × Value)
    (ms : List (String × Value)) :
    (compactMembers ((k, v) :: m :: ms)).toList =
      (compactMembers [(k, v)]).toList ++ ',' :: (compactMembers (m :: ms)).toList := by
  rw [compactMembers, compactMembers, String.toList_append, String.toList_append,
    List.append_assoc]
  · rfl
  · exact List.cons_ne_nil m ms

/-- A value without numbers, every part of which names a value. -/
inductive Value.IsPlain : Value → Prop
  | null : IsPlain .null
  | bool (b : Bool) : IsPlain (.bool b)
  | str (s : String) : IsPlain (.str s)
  | arr {vs : List Value} (h : ∀ v ∈ vs, IsPlain v) : IsPlain (.arr vs)
  | obj {ms : List (String × Value)} (h : ∀ m ∈ ms, IsPlain m.2) : IsPlain (.obj ms)

/-- The text of a value is read as that value, whatever follows, with two calls for each of its
characters. -/
def ReadsBack (v : Value) : Prop :=
  ∀ fuel rest, 2 * (compact v).toList.length ≤ fuel →
    value? fuel ((compact v).toList ++ rest) = some (v, rest)

/-- The text of a value begins with no blank, and not with the end of an array. -/
theorem head_compact {v : Value} (h : v.IsPlain) :
    ∃ c cs, (compact v).toList = c :: cs ∧ isSpace c = false ∧ c ≠ ']' := by
  cases h with
  | null => exact ⟨_, _, rfl, by decide, by decide⟩
  | bool b => cases b <;> exact ⟨_, _, rfl, by decide, by decide⟩
  | str s => exact ⟨_, _, toList_string s, by decide, by decide⟩
  | arr _ => exact ⟨_, _, toList_arr _, by decide, by decide⟩
  | obj _ => exact ⟨_, _, toList_obj _, by decide, by decide⟩

theorem head_compactItems {v : Value} (h : v.IsPlain) (vs : List Value) :
    ∃ c cs, (compactItems (v :: vs)).toList = c :: cs ∧ isSpace c = false ∧ c ≠ ']' := by
  obtain ⟨c, cs, hc, hspace, hend⟩ := head_compact h
  cases vs with
  | nil => exact ⟨c, cs, by rw [compactItems, hc], hspace, hend⟩
  | cons w vs => exact ⟨c, _, by rw [toList_items, hc, List.cons_append], hspace, hend⟩

theorem items?_compactItems {vs : List Value} (h : ∀ v ∈ vs, ReadsBack v) (hne : vs ≠ [])
    (fuel : Nat) (soFar : List Value) (rest : List Char)
    (hfuel : 2 * (compactItems vs).toList.length < fuel) :
    items? fuel soFar ((compactItems vs).toList ++ ']' :: rest) =
      some (soFar.reverse ++ vs, rest) := by
  induction vs generalizing fuel soFar with
  | nil => exact absurd rfl hne
  | cons v vs ih =>
      obtain ⟨fuel, rfl⟩ := Nat.exists_eq_add_one_of_ne_zero (Nat.ne_zero_of_lt hfuel)
      have hv := h v List.mem_cons_self
      cases vs with
      | nil =>
          rw [compactItems] at hfuel ⊢
          rw [items?, hv fuel _ (by omega)]
          simp [skipSpace, isSpace]
      | cons w vs =>
          have hvs := ih (fun u hu => h u (List.mem_cons_of_mem v hu)) (List.cons_ne_nil w vs)
          rw [toList_items, List.length_append, List.length_cons] at hfuel
          rw [toList_items, List.append_assoc, List.cons_append, items?, hv fuel _ (by omega)]
          show items? fuel (v :: soFar) _ = _
          rw [hvs fuel _ (by omega), List.reverse_cons, List.append_assoc, List.singleton_append]

theorem head_compactMembers (m : String × Value) (ms : List (String × Value)) :
    ∃ cs, (compactMembers (m :: ms)).toList = '"' :: cs := by
  obtain ⟨k, v⟩ := m
  cases ms with
  | nil => exact ⟨_, toList_member k v⟩
  | cons m ms => exact ⟨_, by rw [toList_members, toList_member, List.cons_append]⟩

/-- A member is read with its key and its value, and then another one or the end. -/
theorem members?_member {v : Value} (h : ReadsBack v) (k : String) (fuel : Nat)
    (soFar : List (String × Value)) (rest : List Char)
    (hfuel : 2 * (compact v).toList.length ≤ fuel) :
    members? (fuel + 1) true soFar ((compactMembers [(k, v)]).toList ++ ',' :: rest) =
        members? fuel true ((k, v) :: soFar) rest
      ∧ members? (fuel + 1) true soFar ((compactMembers [(k, v)]).toList ++ '\x7d' :: rest) =
        some (.obj (soFar.reverse ++ [(k, v)]), rest) := by
  have hkey (rest : List Char) : skipSpace ((compactMembers [(k, v)]).toList ++ rest) =
      '"' :: (k.toList.flatMap escapeChar ++ '"' :: ':' :: ((compact v).toList ++ rest)) := by
    simp [skipSpace, isSpace]
  have hcolon (cs : List Char) : skipSpace (':' :: cs) = ':' :: cs := rfl
  have hcomma : skipSpace (',' :: rest) = ',' :: rest := rfl
  have hend : skipSpace ('\x7d' :: rest) = '\x7d' :: rest := rfl
  refine ⟨?_, ?_⟩
  · rw [members?, hkey]
    simp only [stringBody_escaped, hcolon, h fuel _ hfuel, hcomma, List.reverse_nil,
      List.nil_append, String.ofList_toList, Bool.and_self]
  · rw [members?, hkey]
    simp only [stringBody_escaped, hcolon, h fuel _ hfuel, hend, List.reverse_nil,
      List.nil_append, String.ofList_toList, Bool.and_self, List.reverse_cons, if_true]

theorem members?_compactMembers {ms : List (String × Value)} (h : ∀ m ∈ ms, ReadsBack m.2)
    (hne : ms ≠ []) (fuel : Nat) (soFar : List (String × Value)) (rest : List Char)
    (hfuel : 2 * (compactMembers ms).toList.length < fuel) :
    members? fuel true soFar ((compactMembers ms).toList ++ '\x7d' :: rest) =
      some (.obj (soFar.reverse ++ ms), rest) := by
  induction ms generalizing fuel soFar with
  | nil => exact absurd rfl hne
  | cons m ms ih =>
      obtain ⟨fuel, rfl⟩ := Nat.exists_eq_add_one_of_ne_zero (Nat.ne_zero_of_lt hfuel)
      obtain ⟨k, v⟩ := m
      have hv : ReadsBack v := h (k, v) List.mem_cons_self
      have hlength : (compact v).toList.length ≤ (compactMembers [(k, v)]).toList.length := by
        simp only [toList_member, List.length_append, List.length_cons]
        omega
      cases ms with
      | nil =>
          rw [(members?_member hv k fuel _ _ (by omega)).2]
      | cons m ms =>
          have hms := ih (fun u hu => h u (List.mem_cons_of_mem _ hu)) (List.cons_ne_nil m ms)
          rw [toList_members, List.length_append, List.length_cons] at hfuel
          rw [toList_members, List.append_assoc, List.cons_append,
            (members?_member hv k fuel _ _ (by omega)).1, hms fuel _ (by omega),
            List.reverse_cons, List.append_assoc, List.singleton_append]

/-- Reading a value takes one call at least, its text not being empty. -/
theorem readsBack_of_succ {v : Value} (hplain : v.IsPlain)
    (h : ∀ fuel rest, 2 * (compact v).toList.length ≤ fuel + 1 →
      value? (fuel + 1) ((compact v).toList ++ rest) = some (v, rest)) : ReadsBack v := by
  intro fuel rest hfuel
  cases fuel with
  | zero =>
      obtain ⟨c, cs, hc, -⟩ := head_compact hplain
      rw [hc, List.length_cons] at hfuel
      omega
  | succ fuel => exact h fuel rest hfuel

theorem readsBack_of_isPlain {v : Value} (h : v.IsPlain) : ReadsBack v := by
  induction h with
  | null => exact readsBack_of_succ .null fun fuel rest _ => rfl
  | bool b => cases b <;> exact readsBack_of_succ (.bool _) fun fuel rest _ => rfl
  | str s =>
      refine readsBack_of_succ (.str s) fun fuel rest _ => ?_
      have hstart : skipSpace ((compact (.str s)).toList ++ rest) =
          '"' :: (s.toList.flatMap escapeChar ++ '"' :: rest) := by
        simp [compact, scalar, toList_string, skipSpace, isSpace]
      rw [value?, hstart]
      simp [stringBody_escaped]
  | @arr vs hplain ih =>
      refine readsBack_of_succ (.arr hplain) fun fuel rest hfuel => ?_
      cases vs with
      | nil => rfl
      | cons v vs =>
          have hitems := items?_compactItems ih (List.cons_ne_nil v vs) fuel [] rest
            (by simp only [toList_arr, List.length_append, List.length_cons] at hfuel; omega)
          obtain ⟨c, cs, hc, hspace, hend⟩ :=
            head_compactItems (hplain v List.mem_cons_self) vs
          have hstart : skipSpace ((compact (.arr (v :: vs))).toList ++ rest) =
              '[' :: ((compactItems (v :: vs)).toList ++ ']' :: rest) := by
            simp [skipSpace, isSpace]
          have hnext : skipSpace ((compactItems (v :: vs)).toList ++ ']' :: rest) =
              c :: (cs ++ ']' :: rest) := by
            rw [hc, List.cons_append, skipSpace, List.dropWhile_cons_of_neg (by simp [hspace])]
          rw [value?, hstart]
          simp [hnext, hend, hitems]
  | @obj ms hplain ih =>
      refine readsBack_of_succ (.obj hplain) fun fuel rest hfuel => ?_
      cases ms with
      | nil => rfl
      | cons m ms =>
          have hmembers := members?_compactMembers ih (List.cons_ne_nil m ms) fuel [] rest
            (by simp only [toList_obj, List.length_append, List.length_cons] at hfuel; omega)
          have hstart : skipSpace ((compact (.obj (m :: ms))).toList ++ rest) =
              '\x7b' :: ((compactMembers (m :: ms)).toList ++ '\x7d' :: rest) := by
            simp [skipSpace, isSpace]
          obtain ⟨cs, hc⟩ := head_compactMembers m ms
          have hnext : skipSpace ((compactMembers (m :: ms)).toList ++ '\x7d' :: rest) =
              '"' :: (cs ++ '\x7d' :: rest) := by
            rw [hc]
            rfl
          rw [value?, hstart]
          simp [hnext, hmembers]

/-- A value without numbers is read from the text that is written for it. -/
theorem read?_compact {v : Value} (h : v.IsPlain) : read? v.compact = some v := by
  have hread := readsBack_of_isPlain h (2 * (compact v).toList.length + 2) [] (by omega)
  rw [List.append_nil] at hread
  rw [read?, Value.compact, hread]
  rfl

end Tabular.Json
