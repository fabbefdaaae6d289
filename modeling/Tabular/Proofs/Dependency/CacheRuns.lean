import Mathlib.Data.Finset.Card
import Mathlib.Data.List.Nodup
import Tabular.Proofs.Dependency.Cache

/-!
# What a cache answers after any run

A cache is a plain map from lowercase keys and depths to trees. What has been done with it
is told by its history, and what it answers can be read off there: the tree that was stored
last under a key and a depth since the cache was last emptied. A cache is emptied by
clearing it, by invalidating it, and by adopting a fingerprint that is not the one it has;
asking never takes a tree away, and makes one only where none is stored.

A history lists the latest operation first, so what came before an operation is the rest of
the list behind it.
-/

namespace Tabular.Dependency.Cache

open Ordered Text

/-- What can be done with a cache. -/
inductive Operation where
  | adopt (fingerprint : String)
  | insert (key : Key) (depth : Nat) (tree : Tree)
  | get (key : Key) (depth : Nat)
  | getOrInsert (key : Key) (depth : Nat) (make : Unit → Option Tree)
  | clear
  | invalidate

/-- The cache after an operation. -/
def after (c : Cache) : Operation → Cache
  | .adopt fingerprint => (c.adopt fingerprint).2
  | .insert key depth tree => c.insert key depth tree
  | .get key depth => (c.get key depth).2
  | .getOrInsert key depth make => (c.getOrInsert key depth make).2
  | .clear => c.clear
  | .invalidate => c.invalidate

/-- A new cache after the operations of a history. -/
def run : List Operation → Cache
  | [] => {}
  | op :: earlier => (run earlier).after op

/-! ## What a history tells -/

/-- The fingerprint that was adopted last, unless the cache was invalidated since. -/
def adopted : List Operation → Option String
  | [] => none
  | .adopt fingerprint :: _ => some fingerprint
  | .invalidate :: _ => none
  | _ :: earlier => adopted earlier

/-- Whether an operation empties a cache that has adopted a fingerprint. -/
def Operation.empties (fingerprint : Option String) : Operation → Bool
  | .clear | .invalidate => true
  | .adopt other => fingerprint != some other
  | .insert .. | .get .. | .getOrInsert .. => false

/-- The operations since the cache was last emptied. -/
def sinceEmptied : List Operation → List Operation
  | [] => []
  | op :: earlier => if op.empties (adopted earlier) then [] else op :: sinceEmptied earlier

/-- The trees that operations store, the latest first. A tree is made and stored only where
there is none. -/
def stored : List Operation → List ((String × Nat) × Tree)
  | [] => []
  | .insert key depth tree :: earlier => ((fold key, depth), tree) :: stored earlier
  | .getOrInsert key depth make :: earlier =>
      match (stored earlier).lookup (fold key, depth), make () with
      | none, some tree => ((fold key, depth), tree) :: stored earlier
      | _, _ => stored earlier
  | _ :: earlier => stored earlier

/-- The trees that were stored since the cache was last emptied, the latest first. -/
def remembered (history : List Operation) : List ((String × Nat) × Tree) :=
  stored (sinceEmptied history)

/-- The tree that was stored last under a key in any case and a depth. -/
def lastStored (history : List Operation) (key : Key) (depth : Nat) : Option Tree :=
  (remembered history).lookup (fold key, depth)

/-- The key and the depth that an operation asks for. -/
def Operation.question? : Operation → Option (Key × Nat)
  | .get key depth | .getOrInsert key depth _ => some (key, depth)
  | _ => none

/-- How many questions there were. -/
def asked (history : List Operation) : Nat := history.countP (·.question?.isSome)

/-- How many questions met with a tree that was stored. -/
def answered : List Operation → Nat
  | [] => 0
  | op :: earlier =>
      answered earlier + if op.question?.any fun q => (lastStored earlier q.1 q.2).isSome
        then 1 else 0

/-- A cache that can be told from a plain map with a history by nothing. -/
structure Refines (c : Cache) (history : List Operation) : Prop where
  get : ∀ key depth, (c.get key depth).1 = lastStored history key depth
  /-- Whatever would be made, since it is not. -/
  given : ∀ key depth tree, lastStored history key depth = some tree →
    ∀ make, c.getOrInsert key depth make = (some tree, { c with hits := c.hits + 1 })
  made : ∀ key depth, lastStored history key depth = none →
    ∀ make, c.getOrInsert key depth make =
      match make () with
      | some tree => (some tree, { c with misses := c.misses + 1 }.insert key depth tree)
      | none => (none, { c with misses := c.misses + 1 })
  fingerprint : c.fingerprint = adopted history
  adoptSame : ∀ fingerprint, c.fingerprint = some fingerprint →
    c.adopt fingerprint = (false, c)
  adoptOther : ∀ fingerprint, c.fingerprint ≠ some fingerprint →
    c.adopt fingerprint = (true, { c with trees := ∅, fingerprint := some fingerprint })
  size : c.size = ((remembered history).map (·.1)).toFinset.card
  hits : c.hits = answered history
  asked : c.hits + c.misses = asked history

/-! ## The places of a cache -/

/-- The keys and depths under which a cache keeps trees. -/
def places (c : Cache) : List (String × Nat) :=
  c.trees.toList.flatMap fun e => e.2.keys.map fun depth => (e.1, depth)

theorem length_places (c : Cache) : c.places.length = c.size := by
  have hsum : ∀ (es : List (String × SortedMap Nat Tree)) (n : Nat),
      es.foldl (fun n e => n + e.2.size) n =
        n + (es.flatMap fun e => e.2.keys.map fun depth => (e.1, depth)).length := by
    intro es
    induction es with
    | nil => simp
    | cons e rest ih =>
        intro n
        rw [List.foldl_cons, ih, List.flatMap_cons, List.length_append, List.length_map,
          SortedMap.keys, List.length_map, SortedMap.size]
        omega
  rw [size, hsum, places]
  omega

theorem nodup_places (c : Cache) : c.places.Nodup := by
  have hkeys : c.trees.toList.Pairwise fun a b => a.1 ≠ b.1 :=
    List.pairwise_map.mp (SortedSet.nodup_of_strictlySorted c.trees.keys_sorted)
  refine List.nodup_flatMap.mpr ⟨fun e _ => ?_, hkeys.imp fun {a b} hne p ha hb => ?_⟩
  · have hdepths : e.2.keys.Nodup := SortedSet.nodup_of_strictlySorted e.2.keys_sorted
    exact hdepths.map fun _ _ h => (Prod.mk.inj h).2
  · obtain ⟨d, -, rfl⟩ := List.mem_map.mp ha
    obtain ⟨d', -, h⟩ := List.mem_map.mp hb
    exact hne (Prod.mk.inj h).1.symm

theorem mem_places_iff {c : Cache} {p : String × Nat} :
    p ∈ c.places ↔ (c.kept? p.1 p.2).isSome = true := by
  obtain ⟨folded, depth⟩ := p
  rw [places, List.mem_flatMap, kept?, Option.isSome_bind, Option.any_eq_true]
  constructor
  · rintro ⟨⟨k, m⟩, he, hp⟩
    obtain ⟨d, hd, h⟩ := List.mem_map.mp hp
    obtain ⟨rfl, rfl⟩ := Prod.mk.inj h
    obtain ⟨tree, htree⟩ := SortedMap.mem_keys_iff.mp hd
    exact ⟨m, SortedMap.mem_toList_iff.mp he, by simp [htree]⟩
  · rintro ⟨m, hm, hd⟩
    obtain ⟨tree, htree⟩ := Option.isSome_iff_exists.mp hd
    exact ⟨(folded, m), SortedMap.mem_toList_iff.mpr hm,
      List.mem_map.mpr ⟨depth, SortedMap.mem_keys_iff.mpr ⟨tree, htree⟩, rfl⟩⟩

/-- A cache has as many trees as the places that a list of the same look-ups names. -/
theorem size_eq_card {c : Cache} {trees : List ((String × Nat) × Tree)}
    (h : ∀ folded depth, c.kept? folded depth = trees.lookup (folded, depth)) :
    c.size = (trees.map (·.1)).toFinset.card := by
  rw [← length_places, ← List.toFinset_card_of_nodup c.nodup_places]
  refine congrArg Finset.card (Finset.ext fun p => ?_)
  rw [List.mem_toFinset, List.mem_toFinset, mem_places_iff, h]
  simp [List.lookup_isSome_iff]

/-! ## One operation -/

theorem get_cases (c : Cache) (key : Key) (depth : Nat) :
    (∃ tree, c.find? key depth = some tree
        ∧ c.get key depth = (some tree, { c with hits := c.hits + 1 }))
      ∨ (c.find? key depth = none
        ∧ c.get key depth = (none, { c with misses := c.misses + 1 })) := by
  cases hfind : c.find? key depth with
  | some tree => exact Or.inl ⟨tree, rfl, by simp only [get, hfind]⟩
  | none => exact Or.inr ⟨rfl, by simp only [get, hfind]⟩

theorem get_fst (c : Cache) (key : Key) (depth : Nat) :
    (c.get key depth).1 = c.find? key depth := by
  rcases get_cases c key depth with ⟨tree, hfind, hget⟩ | ⟨hfind, hget⟩
  · rw [hget, hfind]
  · rw [hget, hfind]

/-- A question leaves the trees and the fingerprint as they are. -/
theorem get_snd (c : Cache) (key : Key) (depth : Nat) :
    (c.get key depth).2.trees = c.trees ∧ (c.get key depth).2.fingerprint = c.fingerprint := by
  rcases get_cases c key depth with ⟨tree, -, hget⟩ | ⟨-, hget⟩
  · rw [hget]
    exact ⟨rfl, rfl⟩
  · rw [hget]
    exact ⟨rfl, rfl⟩

theorem fingerprint_after (c : Cache) (op : Operation) :
    (c.after op).fingerprint =
      match op with
      | .adopt fingerprint => some fingerprint
      | .invalidate => none
      | _ => c.fingerprint := by
  cases op with
  | adopt fingerprint =>
      rw [after, adopt]
      split
      · next hsame => exact hsame
      · rfl
  | get key depth => exact (c.get_snd key depth).2
  | getOrInsert key depth make => exact fingerprint_getOrInsert make
  | insert key depth tree | clear | invalidate => rfl

theorem kept?_after_of_empties {c : Cache} {op : Operation} (h : op.empties c.fingerprint = true)
    (folded : String) (depth : Nat) : (c.after op).kept? folded depth = none := by
  cases op with
  | adopt fingerprint =>
      have hother : c.fingerprint ≠ some fingerprint := bne_iff_ne.mp h
      rw [after, adopt, if_neg hother]
      rfl
  | clear | invalidate => rfl
  | insert key depth tree | get key depth | getOrInsert key depth make =>
      exact absurd h Bool.false_ne_true

theorem lookup_cons_ite (place p : String × Nat) (tree : Tree)
    (trees : List ((String × Nat) × Tree)) :
    ((place, tree) :: trees).lookup p = if p = place then some tree else trees.lookup p := by
  rw [List.lookup_cons]
  by_cases h : p = place
  · simp [h]
  · simp [h, beq_eq_false_iff_ne.mpr h]

/-- An operation that does not empty a cache stores in it what it stores in a plain map. -/
theorem kept?_after {c : Cache} {earlier : List Operation}
    (hkept : ∀ folded depth, c.kept? folded depth = (stored earlier).lookup (folded, depth))
    {op : Operation} (h : op.empties c.fingerprint = false) (folded : String) (depth : Nat) :
    (c.after op).kept? folded depth = (stored (op :: earlier)).lookup (folded, depth) := by
  cases op with
  | adopt fingerprint =>
      have hsame : c.fingerprint = some fingerprint := by simpa [Operation.empties] using h
      rw [after, adopt, if_pos hsame]
      exact hkept folded depth
  | insert key d tree =>
      rw [after, kept?_insert, hkept, stored, lookup_cons_ite]
      simp only [Prod.mk.injEq]
  | get key d =>
      rw [after, kept?, (c.get_snd key d).1]
      exact hkept folded depth
  | getOrInsert key d make =>
      rw [after, kept?_getOrInsert, find?_eq_kept?, hkept, hkept, stored]
      cases hold : (stored earlier).lookup (fold key, d) with
      | some old =>
          -- what is stored already is given, and so it stays the latest
          by_cases hplace : folded = fold key ∧ depth = d
          · obtain ⟨rfl, rfl⟩ := hplace
            simp [hold]
          · simp [hplace]
      | none =>
          cases hmake : make () with
          | some tree => simp [lookup_cons_ite]
          | none =>
              by_cases hplace : folded = fold key ∧ depth = d
              · obtain ⟨rfl, rfl⟩ := hplace
                simp [hold]
              · simp [hplace]
  | clear | invalidate => exact absurd h.symm Bool.false_ne_true

theorem hits_after (c : Cache) (op : Operation) :
    (c.after op).hits =
      c.hits + if op.question?.any fun q => (c.find? q.1 q.2).isSome then 1 else 0 := by
  cases op with
  | get key depth =>
      rcases get_cases c key depth with ⟨tree, hfind, hget⟩ | ⟨hfind, hget⟩
      · simp [after, Operation.question?, hget, hfind]
      · simp [after, Operation.question?, hget, hfind]
  | getOrInsert key depth make =>
      rcases getOrInsert_cases c key depth make with
        ⟨tree, hfind, hget⟩ | ⟨hfind, -, hget⟩ | ⟨tree, hfind, -, hget⟩
      · simp [after, Operation.question?, hget, hfind]
      · simp [after, Operation.question?, hget, hfind]
      · simp [after, Operation.question?, hget, hfind, insert]
  | adopt fingerprint =>
      rw [after, adopt]
      split
      · rfl
      · rfl
  | insert key depth tree | clear | invalidate => rfl

theorem questions_after (c : Cache) (op : Operation) :
    (c.after op).hits + (c.after op).misses =
      c.hits + c.misses + if op.question?.isSome then 1 else 0 := by
  cases op with
  | get key depth =>
      rcases get_cases c key depth with ⟨tree, -, hget⟩ | ⟨-, hget⟩
      · simp only [after, Operation.question?, hget, Option.isSome_some, if_true]
        omega
      · simp only [after, Operation.question?, hget, Option.isSome_some, if_true]
        omega
  | getOrInsert key depth make =>
      rcases getOrInsert_cases c key depth make with
        ⟨tree, -, hget⟩ | ⟨-, -, hget⟩ | ⟨tree, -, -, hget⟩
      · simp only [after, Operation.question?, hget, Option.isSome_some, if_true]
        omega
      · simp only [after, Operation.question?, hget, Option.isSome_some, if_true]
        omega
      · simp only [after, Operation.question?, hget, insert, Option.isSome_some, if_true]
        omega
  | adopt fingerprint =>
      rw [after, adopt]
      split
      · rfl
      · rfl
  | insert key depth tree | clear | invalidate => rfl

/-! ## A run -/

theorem fingerprint_run (history : List Operation) :
    (run history).fingerprint = adopted history := by
  induction history with
  | nil => rfl
  | cons op earlier ih =>
      rw [run, fingerprint_after, ih]
      cases op with
      | adopt _ | insert _ _ _ | get _ _ | getOrInsert _ _ _ | clear | invalidate => rfl

theorem kept?_run (history : List Operation) (folded : String) (depth : Nat) :
    (run history).kept? folded depth = (remembered history).lookup (folded, depth) := by
  induction history generalizing folded depth with
  | nil => rfl
  | cons op earlier ih =>
      -- the cache and the history agree on the fingerprint, so they are emptied together
      rw [run, remembered, sinceEmptied, ← fingerprint_run]
      split
      · next hempties =>
          rw [kept?_after_of_empties hempties]
          rfl
      · next hkeeps => exact kept?_after ih (Bool.not_eq_true _ ▸ hkeeps) folded depth

theorem find?_run (history : List Operation) (key : Key) (depth : Nat) :
    (run history).find? key depth = lastStored history key depth :=
  kept?_run history (fold key) depth

theorem hits_run (history : List Operation) : (run history).hits = answered history := by
  induction history with
  | nil => rfl
  | cons op earlier ih =>
      rw [run, hits_after, ih, answered]
      simp only [find?_run]

theorem questions_run (history : List Operation) :
    (run history).hits + (run history).misses = asked history := by
  induction history with
  | nil => rfl
  | cons op earlier ih => rw [run, questions_after, ih, asked, asked, List.countP_cons]

/-- After any run a cache is the plain map that its history tells of. -/
theorem refines_run (history : List Operation) : (run history).Refines history where
  get key depth := by rw [get_fst, find?_run]
  given key depth tree h make := by
    rw [← find?_run] at h
    simp only [getOrInsert, get, h]
  made key depth h make := by
    rw [← find?_run] at h
    simp only [getOrInsert, get, h]
    cases make () with
    | some tree => rfl
    | none => rfl
  fingerprint := fingerprint_run history
  adoptSame fingerprint h := if_pos h
  adoptOther fingerprint h := if_neg h
  size := size_eq_card (kept?_run history)
  hits := hits_run history
  asked := questions_run history

/-- A tree in another spelling of the key takes the place of the one before it, at its depth. -/
example (t u : Tree) :
    let history : List Operation :=
      [.adopt "f", .insert "SALES[total]" 1 u, .insert "Sales[Total]" 2 t,
        .insert "Sales[Total]" 1 t, .adopt "f", .insert "Sales[Total]" 3 t]
    lastStored history "sales[TOTAL]" 1 = some u ∧ lastStored history "Sales[Total]" 2 = some t
      ∧ lastStored history "Sales[Total]" 3 = none :=
  ⟨rfl, rfl, rfl⟩

end Tabular.Dependency.Cache
