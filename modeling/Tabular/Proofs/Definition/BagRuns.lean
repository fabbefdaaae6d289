import Tabular.Proofs.Definition.PropertyBag
import Tabular.Proofs.Ordered.SortedMap

/-!
# What a bag holds after any run

A bag is changed by giving a property and by taking one out. Giving compares keys exactly and
taking does not, so several spellings of a key come and go in one bag. Whatever was done with
it, no spelling stands in it twice, and its keys stand in the order in which they came to stay:
the place of a key is that of the operation that gave it when it was not there, after which it
always was.

So an exact key has one entry at most, and a key in another spelling has a first one. That is
the entry that looking up reads, and it is the one that taking takes away. With one entry a key,
the map of a bag loses nothing.
-/

namespace Tabular.Definition.PropertyBag

open Ordered Text

/-- What can be done with a bag. -/
inductive Operation where
  | give (key value : String)
  | take (key : String)
  deriving DecidableEq, Repr

/-- The bag after an operation. -/
def after (b : PropertyBag) : Operation → PropertyBag
  | .give key value => b.insert key value
  | .take key => (b.take key).2

/-- A new bag after some operations. -/
def run (ops : List Operation) : PropertyBag := ops.foldl after empty

/-- The keys of a bag, as they stand in it. -/
def keys (b : PropertyBag) : List String := b.entries.map (·.1)

/-- The entry that a key leads to: the one with exactly this key, or else the first one whose
key is the same word, or none if no key is. -/
inductive LeadsTo (b : PropertyBag) (key : String) : Option (String × String) → Prop
  | exactly {value : String} : (key, value) ∈ b.entries → LeadsTo b key (some (key, value))
  | sameWord {before after : List (String × String)} {e : String × String} : key ∉ b.keys →
      b.entries = before ++ e :: after → sameWord e.1 key = true →
      (∀ d ∈ before, sameWord d.1 key = false) → LeadsTo b key (some e)
  | nothing : (∀ e ∈ b.entries, sameWord e.1 key = false) → LeadsTo b key none

/-- The operation that gave a key its place: the key was not in the bag before it, and has been
there ever since. -/
structure PlacedBy (ops : List Operation) (key : String) (n : Nat) : Prop where
  given : ∃ value, ops[n]? = some (.give key value)
  absent : key ∉ (run (ops.take n)).keys
  kept : ∀ m, n < m → m ≤ ops.length → key ∈ (run (ops.take m)).keys

/-- A bag that tells keys apart exactly, keeps them in the order in which they came to stay, and
reads and takes away the same entries. -/
structure WellKept (ops : List Operation) : Prop where
  keysApart : (run ops).KeysApart
  placed : ∀ key ∈ (run ops).keys, ∃! n, PlacedBy ops key n
  inOrder : (run ops).keys.Pairwise fun a b => ∀ n m, PlacedBy ops a n → PlacedBy ops b m → n < m
  leads : ∀ key, ∃! found, LeadsTo (run ops) key found
  get : ∀ key found, LeadsTo (run ops) key found → (run ops).get? key = found.map (·.2)
  take : ∀ key, ((run ops).take key).1 = (run ops).get? key
  takeNothing : ∀ key, LeadsTo (run ops) key none → ((run ops).take key).2 = run ops
  takeEntry : ∀ key e, LeadsTo (run ops) key (some e) → ∃ before after,
    (run ops).entries = before ++ e :: after ∧ ((run ops).take key).2.entries = before ++ after
  give : ∀ key value, (key, value) ∈ ((run ops).insert key value).entries
  giveOthers : ∀ key value, ((run ops).insert key value).entries.filter (·.1 != key) =
    (run ops).entries.filter (·.1 != key)
  toMap : (run ops).toMap.toList.Perm (run ops).entries

variable {b : PropertyBag} {ops : List Operation} {op : Operation} {key value : String}

/-! ## The entry of a key -/

theorem hasExactly_iff : b.hasExactly key = true ↔ key ∈ b.keys := by
  rw [hasExactly, List.any_eq_true, keys, List.mem_map]
  simp only [beq_iff_eq]

/-- In a bag whose keys are apart, a key leads to the entry that is found for it. -/
theorem leadsTo_iff (h : b.KeysApart) {found : Option (String × String)} :
    LeadsTo b key found ↔ b.find? key = found := by
  constructor
  · intro hleads
    cases hleads with
    | exactly hmem => exact find?_of_mem h hmem
    | sameWord hkey hsplit hword hbefore =>
        rw [← hasExactly_iff, Bool.not_eq_true] at hkey
        simp only [find?, isEntry, hkey, Bool.false_eq_true, if_false]
        exact List.find?_eq_some_iff_append.mpr
          ⟨hword, _, _, hsplit, fun d hd => by rw [hbefore d hd, Bool.not_false]⟩
    | nothing hnone =>
        refine List.find?_eq_none.mpr fun e he hentry => ?_
        have hword := sameWord_of_isEntry hentry
        rw [hnone e he] at hword
        cases hword
  · rintro rfl
    cases hexactly : b.hasExactly key with
    | true =>
        obtain ⟨⟨k, value⟩, hmem, rfl⟩ := List.mem_map.mp (hasExactly_iff.mp hexactly)
        rw [find?_of_mem h hmem]
        exact .exactly hmem
    | false =>
        have hkey : key ∉ b.keys := by
          rw [← hasExactly_iff, hexactly]
          exact Bool.false_ne_true
        have hfind : b.find? key = b.entries.find? fun e => sameWord e.1 key := by
          simp only [find?, isEntry, hexactly, Bool.false_eq_true, if_false]
        rw [hfind]
        cases hfound : b.entries.find? fun e => sameWord e.1 key with
        | none =>
            refine .nothing fun e he => ?_
            have hother := List.find?_eq_none.mp hfound e he
            rwa [Bool.not_eq_true] at hother
        | some e =>
            obtain ⟨hword, before, after, hsplit, hbefore⟩ :=
              List.find?_eq_some_iff_append.mp hfound
            refine .sameWord hkey hsplit hword fun d hd => ?_
            exact Bool.not_eq_true' _ ▸ hbefore d hd

theorem erase_of_find?_eq_none (h : b.find? key = none) : b.erase key = b := by
  have hentries := entries_erase b key
  rw [h, Option.toList_none, List.diff_nil] at hentries
  exact congrArg PropertyBag.mk hentries

theorem exists_split_of_find? {e : String × String} (h : b.find? key = some e) :
    ∃ before after, b.entries = before ++ e :: after
      ∧ (b.erase key).entries = before ++ after := by
  have hentries := entries_erase b key
  rw [h, Option.toList_some, List.diff_cons, List.diff_nil] at hentries
  obtain ⟨before, after, -, hsplit, hrest⟩ :=
    List.exists_erase_eq (List.mem_of_find?_eq_some h)
  exact ⟨before, after, hsplit, by rw [hentries, hrest]⟩

/-! ## One operation -/

/-- An operation adds one key behind the others, or it adds none. -/
theorem keys_after_cases (b : PropertyBag) (op : Operation) :
    (b.after op).keys.Sublist b.keys
      ∨ ∃ key value, op = .give key value ∧ key ∉ b.keys
        ∧ (b.after op).keys = b.keys ++ [key] := by
  cases op with
  | give key value =>
      have hkeys : (b.insert key value).keys =
          if key ∈ b.keys then b.keys else b.keys ++ [key] :=
        map_fst_setEntry key value b.entries
      by_cases hmem : key ∈ b.keys
      · rw [if_pos hmem] at hkeys
        exact .inl (by rw [after, hkeys])
      · rw [if_neg hmem] at hkeys
        exact .inr ⟨key, value, rfl, hmem, hkeys⟩
  | take key =>
      left
      rw [after, take, keys, entries_erase]
      exact (List.diff_sublist _ _).map _

theorem keysApart_after (h : b.KeysApart) (op : Operation) : (b.after op).KeysApart := by
  rcases keys_after_cases b op with hsub | ⟨key, value, -, hnew, hkeys⟩
  · exact List.Nodup.sublist hsub h
  · have hconcat := List.Nodup.concat hnew h
    rwa [List.concat_eq_append, ← hkeys] at hconcat

theorem mem_insert_entries (b : PropertyBag) (key value : String) :
    (key, value) ∈ (b.insert key value).entries := by
  obtain ⟨es⟩ := b
  rw [insert]
  induction es with
  | nil => exact List.mem_singleton_self _
  | cons e rest ih =>
      rw [setEntry]
      split
      · next hkey =>
          rw [hkey]
          exact List.mem_cons_self
      · exact List.mem_cons_of_mem _ ih

theorem filter_insert_entries (b : PropertyBag) (key value : String) :
    (b.insert key value).entries.filter (·.1 != key) = b.entries.filter (·.1 != key) := by
  rw [insert, filter_setEntry, if_pos rfl]

/-! ## A run -/

theorem run_concat (ops : List Operation) (op : Operation) :
    run (ops ++ [op]) = (run ops).after op := List.foldl_concat ..

theorem keysApart_run (ops : List Operation) : (run ops).KeysApart := by
  induction ops using List.reverseRecOn with
  | nil => exact List.nodup_nil
  | append_singleton ops op ih =>
      rw [run_concat]
      exact keysApart_after ih op

namespace PlacedBy

variable {n m : Nat}

theorem lt_length (h : PlacedBy ops key n) : n < ops.length := by
  obtain ⟨value, hgiven⟩ := h.given
  exact (List.getElem?_eq_some_iff.mp hgiven).1

theorem unique (h : PlacedBy ops key n) (h' : PlacedBy ops key m) : n = m := by
  rcases Nat.lt_trichotomy n m with hlt | heq | hgt
  · exact absurd (h.kept m hlt (Nat.le_of_lt h'.lt_length)) h'.absent
  · exact heq
  · exact absurd (h'.kept n hgt (Nat.le_of_lt h.lt_length)) h.absent

/-- A key keeps its place as long as it is in the bag. -/
theorem concat (h : PlacedBy ops key n) (hkey : key ∈ (run (ops ++ [op])).keys) :
    PlacedBy (ops ++ [op]) key n where
  given := by
    obtain ⟨value, hgiven⟩ := h.given
    exact ⟨value, by rw [List.getElem?_append_left h.lt_length, hgiven]⟩
  absent := by
    rw [List.take_append_of_le_length (Nat.le_of_lt h.lt_length)]
    exact h.absent
  kept := by
    intro m hlt hle
    rw [List.length_append, List.length_singleton] at hle
    by_cases hlast : m ≤ ops.length
    · rw [List.take_append_of_le_length hlast]
      exact h.kept m hlt hlast
    · rwa [List.take_of_length_le (by rw [List.length_append, List.length_singleton]; omega)]

/-- A key that is given when it is not in the bag gets its place then. -/
theorem last (h : key ∉ (run ops).keys) (hkey : key ∈ (run (ops ++ [.give key value])).keys) :
    PlacedBy (ops ++ [.give key value]) key ops.length where
  given := ⟨value, List.getElem?_concat_length⟩
  absent := by rwa [List.take_left]
  kept := by
    intro m hlt hle
    rwa [List.take_of_length_le (by rw [List.length_append, List.length_singleton]; omega)]

end PlacedBy

theorem exists_placedBy (hkey : key ∈ (run ops).keys) : ∃ n, PlacedBy ops key n := by
  -- the last operation gives the key its place, or finds it there
  induction ops using List.reverseRecOn with
  | nil => cases hkey
  | append_singleton ops op ih =>
      have hstays := hkey
      rw [run_concat] at hkey
      rcases keys_after_cases (run ops) op with hsub | ⟨k, value, rfl, hnew, hkeys⟩
      · obtain ⟨n, hn⟩ := ih (hsub.subset hkey)
        exact ⟨n, hn.concat hstays⟩
      · rw [hkeys, List.mem_append, List.mem_singleton] at hkey
        rcases hkey with hold | rfl
        · obtain ⟨n, hn⟩ := ih hold
          exact ⟨n, hn.concat hstays⟩
        · exact ⟨ops.length, .last hnew hstays⟩

/-- The keys of a bag stand in the order in which they came to stay. -/
theorem keys_pairwise (ops : List Operation) : (run ops).keys.Pairwise fun a b =>
    ∃ n m, n < m ∧ PlacedBy ops a n ∧ PlacedBy ops b m := by
  induction ops using List.reverseRecOn with
  | nil => exact List.Pairwise.nil
  | append_singleton ops op ih =>
      have hstay : ∀ {a b}, a ∈ (run (ops ++ [op])).keys → b ∈ (run (ops ++ [op])).keys →
          (∃ n m, n < m ∧ PlacedBy ops a n ∧ PlacedBy ops b m) →
          ∃ n m, n < m ∧ PlacedBy (ops ++ [op]) a n ∧ PlacedBy (ops ++ [op]) b m := by
        rintro a b ha hb ⟨n, m, hlt, hn, hm⟩
        exact ⟨n, m, hlt, hn.concat ha, hm.concat hb⟩
      have hrun := run_concat ops op
      rcases keys_after_cases (run ops) op with hsub | ⟨k, value, rfl, hnew, hkeys⟩
      · rw [← hrun] at hsub
        exact (ih.sublist hsub).imp_of_mem hstay
      · rw [← hrun] at hkeys
        rw [hkeys] at hstay ⊢
        have hk : k ∈ (run (ops ++ [.give k value])).keys := by simp [hkeys]
        refine List.pairwise_append.mpr ⟨ih.imp_of_mem ?_, List.pairwise_singleton _ _, ?_⟩
        · exact fun ha hb => hstay (List.mem_append_left _ ha) (List.mem_append_left _ hb)
        · intro a ha b hb
          obtain rfl := List.mem_singleton.mp hb
          obtain ⟨n, hn⟩ := exists_placedBy ha
          have hold : a ∈ (run (ops ++ [.give b value])).keys := by simp [hkeys, ha]
          exact ⟨n, ops.length, hn.lt_length, hn.concat hold, .last hnew hk⟩

/-- Where keys are apart, the map of a bag has the entries of the bag. -/
theorem perm_toMap (h : b.KeysApart) : b.toMap.toList.Perm b.entries := by
  have hkeys : b.toMap.keys.Nodup := SortedSet.nodup_of_strictlySorted b.toMap.keys_sorted
  refine (List.perm_ext_iff_of_nodup (List.Nodup.of_map _ hkeys) (List.Nodup.of_map _ h)).mpr ?_
  rintro ⟨key, value⟩
  have hget : b.toMap.get? key =
      ((b.entries.reverse.find? fun e => e.1 = key).map (·.2)).or none :=
    SortedMap.get?_foldl_insert Prod.fst Prod.snd b.entries ∅ key
  rw [SortedMap.mem_toList_iff, hget, Option.or_none, Option.map_eq_some_iff]
  constructor
  · rintro ⟨⟨k, v⟩, hfind, rfl⟩
    have hkey := List.find?_some hfind
    obtain rfl : k = key := of_decide_eq_true hkey
    exact List.mem_reverse.mp (List.mem_of_find?_eq_some hfind)
  · intro hmem
    have hreverse : (b.entries.reverse.map (·.1)).Nodup := by
      rw [List.map_reverse, List.nodup_reverse]
      exact h
    exact ⟨(key, value), find?_fst_of_mem hreverse (List.mem_reverse.mpr hmem), rfl⟩

/-- After any run, a bag is kept well. -/
theorem wellKept_run (ops : List Operation) : WellKept ops where
  keysApart := keysApart_run ops
  placed key hkey := by
    obtain ⟨n, hn⟩ := exists_placedBy hkey
    exact ⟨n, hn, fun m hm => hm.unique hn⟩
  inOrder := by
    refine (keys_pairwise ops).imp ?_
    rintro a b ⟨n, m, hlt, hn, hm⟩ n' m' hn' hm'
    rwa [hn'.unique hn, hm'.unique hm]
  leads key := by
    refine ⟨(run ops).find? key, (leadsTo_iff (keysApart_run ops)).mpr rfl, fun found h => ?_⟩
    exact ((leadsTo_iff (keysApart_run ops)).mp h).symm
  get key found hfound := by rw [get?, (leadsTo_iff (keysApart_run ops)).mp hfound]
  take key := rfl
  takeNothing key hnothing :=
    erase_of_find?_eq_none ((leadsTo_iff (keysApart_run ops)).mp hnothing)
  takeEntry key e hentry :=
    exists_split_of_find? ((leadsTo_iff (keysApart_run ops)).mp hentry)
  give := mem_insert_entries (run ops)
  giveOthers := filter_insert_entries (run ops)
  toMap := perm_toMap (keysApart_run ops)

/-- A key taken in another spelling is the first one of its word, and it comes back last. -/
example : (run [.give "isKey" "1", .give "IsKey" "0", .give "name" "a", .take "ISKEY",
    .give "isKey" "2"]).entries = [("IsKey", "0"), ("name", "a"), ("isKey", "2")] := by
  decide +kernel

end Tabular.Definition.PropertyBag
