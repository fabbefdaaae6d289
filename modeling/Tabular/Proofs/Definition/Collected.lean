import Mathlib.Data.List.Forall2
import Mathlib.Data.List.Nodup
import Tabular.Proofs.Definition.Shift

/-!
# Lines that are read, and lines that are collected

The reader deals with a line in one of three ways. A line of blanks says nothing, a line
that belongs to a value is collected for it, and any other line is read by itself. The last
kind is the one that counts for the tree: each line that is read by itself makes one entry,
with its own number and depth, and there are no other entries. The entry may be made much
later, when its value is complete, but never behind the entry of a later line.

So the step lemma is a balance. The line that still awaits its entry in front of a step, and
the line of the step if it is read, are those that the step makes entries of and the one that
awaits its own behind it.
-/

namespace Tabular.Definition

open Text

/-- Whether a line is kept for the value that is being read. A line of blanks below a
formula is: the formula may go on behind it. -/
def Reading.collects (r : Reading) (l : Line) : Bool :=
  match r.mode with
  | .lines => false
  | .body head start _ _ => l.isBlank || continuesBody head start l
  | .fenced _ _ => true

/-- Whether a line is read by itself. -/
def Reading.reads (r : Reading) (l : Line) : Bool := !l.isBlank && !r.collects l

/-- The lines that meet a test when the reader comes to them, with their numbers. -/
def linesWhere (test : Reading → Line → Bool) (number : Nat) (r : Reading) :
    List Line → List (Line × Nat)
  | [] => []
  | l :: rest =>
      let below := linesWhere test (number + 1) (r.next number l).1 rest
      if test r l then (l, number) :: below else below

/-- The lines of a definition that are read by themselves. -/
def linesRead (lines : List Line) : List (Line × Nat) := linesWhere Reading.reads 1 {} lines

/-- The lines of a definition that are collected for a value. -/
def linesCollected (lines : List Line) : List (Line × Nat) :=
  linesWhere Reading.collects 1 {} lines

/-- The lines with their numbers, each with where the reader stands when it comes to it. -/
def stops (number : Nat) (r : Reading) : List Line → List (Reading × Line × Nat)
  | [] => []
  | l :: rest => (r, l, number) :: stops (number + 1) (r.next number l).1 rest

section Stops

variable {test other : Reading → Line → Bool} {number : Nat} {r : Reading} {lines : List Line}
  {x : Line × Nat}

theorem map_snd_stops (number : Nat) (r : Reading) (lines : List Line) :
    (stops number r lines).map Prod.snd = lines.zipIdx number := by
  induction lines generalizing number r with
  | nil => rfl
  | cons l rest ih => rw [stops, List.map_cons, ih, List.zipIdx_cons]

theorem linesWhere_eq (test : Reading → Line → Bool) (number : Nat) (r : Reading)
    (lines : List Line) : linesWhere test number r lines =
      ((stops number r lines).filter fun s => test s.1 s.2.1).map Prod.snd := by
  induction lines generalizing number r with
  | nil => rfl
  | cons l rest ih =>
      rw [linesWhere, stops, List.filter_cons, ih]
      split
      · rfl
      · rfl

theorem mem_linesWhere_iff : x ∈ linesWhere test number r lines ↔
    ∃ r', (r', x) ∈ stops number r lines ∧ test r' x.1 = true := by
  rw [linesWhere_eq, List.mem_map]
  constructor
  · rintro ⟨s, hs, rfl⟩
    exact ⟨s.1, List.mem_filter.mp hs⟩
  · rintro ⟨r', hs⟩
    exact ⟨(r', x), List.mem_filter.mpr hs, rfl⟩

theorem linesWhere_sublist (test : Reading → Line → Bool) (number : Nat) (r : Reading)
    (lines : List Line) : (linesWhere test number r lines).Sublist (lines.zipIdx number) := by
  rw [linesWhere_eq, ← map_snd_stops number r lines]
  exact List.filter_sublist.map Prod.snd

theorem zipIdx_pairwise_lt (lines : List Line) (number : Nat) :
    (lines.zipIdx number).Pairwise fun x y => x.2 < y.2 := by
  rw [← List.pairwise_map (f := Prod.snd) (R := (· < ·)), List.zipIdx_map_snd]
  exact List.pairwise_lt_range'

theorem linesWhere_pairwise_lt (test : Reading → Line → Bool) (number : Nat) (r : Reading)
    (lines : List Line) :
    (linesWhere test number r lines).Pairwise fun x y => x.2 < y.2 :=
  (zipIdx_pairwise_lt lines number).sublist (linesWhere_sublist test number r lines)

/-- The reader comes to a line once. -/
theorem eq_of_mem_stops {s t : Reading × Line × Nat} (hs : s ∈ stops number r lines)
    (ht : t ∈ stops number r lines) (hnumber : s.2.2 = t.2.2) : s = t := by
  have hnodup : ((stops number r lines).map fun s => s.2.2).Nodup := by
    have hnumbers : (stops number r lines).map (fun s => s.2.2) =
        (lines.zipIdx number).map Prod.snd := by
      rw [← map_snd_stops number r lines, List.map_map]
      rfl
    rw [hnumbers, List.zipIdx_map_snd]
    exact List.nodup_range'
  exact List.inj_on_of_nodup_map hnodup hs ht hnumber

/-- Tests that no line meets together are met by different lines. -/
theorem not_mem_linesWhere (h : ∀ r l, test r l = true → other r l = false)
    (hx : x ∈ linesWhere test number r lines) :
    x.2 ∉ (linesWhere other number r lines).map (·.2) := by
  intro hmem
  obtain ⟨y, hy, hnumber⟩ := List.mem_map.mp hmem
  obtain ⟨s, hs, htest⟩ := mem_linesWhere_iff.mp hx
  obtain ⟨t, ht, hother⟩ := mem_linesWhere_iff.mp hy
  obtain ⟨rfl, rfl⟩ := Prod.mk.inj (eq_of_mem_stops ht hs hnumber)
  rw [h t y.1 htest] at hother
  cases hother

/-- A line that is neither blank nor collected is read by itself. -/
theorem mem_linesWhere_reads (hx : x ∈ lines.zipIdx number) (hblank : x.1.isBlank = false)
    (hcollected : x.2 ∉ (linesWhere Reading.collects number r lines).map (·.2)) :
    x ∈ linesWhere Reading.reads number r lines := by
  rw [← map_snd_stops number r lines] at hx
  obtain ⟨s, hs, rfl⟩ := List.mem_map.mp hx
  have hnot : s.1.collects s.2.1 = false := by
    rw [← Bool.not_eq_true]
    intro hcollects
    exact hcollected (List.mem_map_of_mem (mem_linesWhere_iff.mpr ⟨s.1, hs, hcollects⟩))
  refine mem_linesWhere_iff.mpr ⟨s.1, hs, ?_⟩
  rw [Reading.reads, hblank, hnot]
  rfl

end Stops

/-! ## One entry for each line that is read -/

/-- Whether a line declares something under a name. -/
def Line.declares (l : Line) : Bool :=
  match Shape.of l.content with
  | .declaration _ rest => !(unquote (splitAtEquals false rest).1).isEmpty
  | _ => false

/-- Whether an entry is a declaration. -/
def Entry.declares (e : Entry) : Bool :=
  match e.item with
  | .declaration .. => true
  | _ => false

/-- What of a line or an entry counts for the tree. -/
structure Mark where
  line : Nat
  depth : Nat
  declares : Bool
  deriving DecidableEq, Repr

def Entry.mark (e : Entry) : Mark := ⟨e.line, e.depth, e.declares⟩

def Line.mark (l : Line) (number : Nat) : Mark := ⟨number, l.depth, l.declares⟩

/-- What the words of a line say, whatever value stands behind them. -/
inductive Shape.Says (content : List Char) : Shape → Item → Prop
  | description {text : String} : Says content (.description text) .nothing
  | declaration {kind : Kind} {rest name : List Char} {description value : Option String} :
      unquote (splitAtEquals false rest).1 = name → name ≠ [] →
      Says content (.declaration kind rest)
        (.declaration kind (String.ofList name) description value)
  | nameless {kind : Kind} {rest : List Char} : unquote (splitAtEquals false rest).1 = [] →
      Says content (.declaration kind rest) (.nameless kind)
  | mention : Says content .mention .nothing
  | keyword {kind : Kind} : Says content (.keyword kind) (.nameless kind)
  | given {key : String} {value : List Char} :
      Says content (.property key .colon value) (.property key (String.ofList value))
  /-- The value may go on below. -/
  | begun {key whole : String} {value : List Char} :
      Says content (.property key .equals value) (.property key whole)
  | valueless {key : String} : Says content (.property key .equals []) .nothing
  | flag {key : String} : Says content (.flag key) (.property key "true")
  | unknown : Says content .unknown (.unrecognized (String.ofList content))

/-- An entry that says what a line with a number says. -/
structure Entry.SaidOn (e : Entry) (x : Line × Nat) : Prop where
  line : e.line = x.2
  depth : e.depth = x.1.depth
  item : (Shape.of x.1.content).Says x.1.content e.item

/-- The lines that have been read and have no entry yet: the head of the value that is being
read, whatever the value will be. -/
inductive Mode.Awaits : Mode → List (Line × Nat) → Prop
  | lines : Awaits .lines []
  | body {head : Head} {start : List Char} {soFar : List Line} {blanks : Nat}
      {x : Line × Nat} : (∀ body, (head.entry (bodyValue start body)).SaidOn x) →
      Awaits (.body head start soFar blanks) [x]
  | fenced {head : Head} {soFar : List Line} {x : Line × Nat} :
      (∀ value, (head.entry (some value)).SaidOn x) → Awaits (.fenced head soFar) [x]

/-- Entries that have been made of some lines, where the last line may still await its own. -/
def MadeOf (xs : List (Line × Nat)) (m : Mode) (es : List Entry) : Prop :=
  ∃ made waiting, xs = made ++ waiting ∧ List.Forall₂ Entry.SaidOn es made ∧ m.Awaits waiting

theorem Mode.Awaits.finish {m : Mode} {waiting : List (Line × Nat)} (h : m.Awaits waiting) :
    List.Forall₂ Entry.SaidOn m.finish waiting := by
  cases h with
  | lines => exact .nil
  | body hsaid => exact .cons (hsaid _) .nil
  | fenced hsaid => exact .cons (hsaid _) .nil

theorem MadeOf.single {e : Entry} {x : Line × Nat} (h : e.SaidOn x) : MadeOf [x] .lines [e] :=
  ⟨[x], [], rfl, .cons h .nil, .lines⟩

theorem MadeOf.waiting {m : Mode} {xs : List (Line × Nat)} (h : m.Awaits xs) : MadeOf xs m [] :=
  ⟨[], xs, rfl, .nil, h⟩

theorem MadeOf.behind {xs ys : List (Line × Nat)} {m : Mode} {es fs : List Entry}
    (hxs : List.Forall₂ Entry.SaidOn es xs) (hys : MadeOf ys m fs) :
    MadeOf (xs ++ ys) m (es ++ fs) := by
  obtain ⟨made, waiting, rfl, hmade, hwaiting⟩ := hys
  exact ⟨xs ++ made, waiting, (List.append_assoc ..).symm, List.rel_append hxs hmade, hwaiting⟩

theorem eq_nil_of_bodyValue_eq_none {start : List Char} {body : List Line}
    (h : bodyValue start body = none) : start = [] := by
  cases start with
  | nil => rfl
  | cons c start => cases body <;> cases h

theorem madeOf_startValue {head : Head} {x : Line × Nat} (hasBody : Bool) {text : List Char}
    (h : ∀ value, (value = none → text = []) → (head.entry value).SaidOn x) :
    MadeOf [x] (startValue head hasBody text).1 (startValue head hasBody text).2 := by
  have hsome : ∀ value, (head.entry (some value)).SaidOn x := fun value =>
    h _ fun hnone => absurd hnone (Option.some_ne_none value)
  rw [startValue]
  split
  · split
    · exact .single (hsome _)
    · exact .waiting (.fenced hsome)
  · split
    · exact .waiting (.body fun body => h _ eq_nil_of_bodyValue_eq_none)
    · split
      · next hempty => exact .single (h _ fun _ => List.isEmpty_iff.mp hempty)
      · exact .single (hsome _)

/-- A line that is read makes its entry, now or later. -/
theorem madeOf_readLine (number : Nat) (description : List String) (l : Line) :
    MadeOf [(l, number)] (readLine number description l).1.mode
      (readLine number description l).2 := by
  have said : ∀ item, (Shape.of l.content).Says l.content item →
      Entry.SaidOn ⟨number, l.depth, item⟩ (l, number) := fun item h => ⟨rfl, rfl, h⟩
  rw [readLine]
  generalize Shape.of l.content = shape at said
  cases shape with
  | description text => exact .single (said _ .description)
  | mention => exact .single (said _ .mention)
  | keyword kind => exact .single (said _ .keyword)
  | flag key => exact .single (said _ .flag)
  | unknown => exact .single (said _ .unknown)
  | property key separator value =>
      cases separator with
      | colon => exact .single (said _ .given)
      | equals =>
          refine madeOf_startValue true fun whole hwhole => ?_
          cases whole with
          | some whole => exact said _ .begun
          | none =>
              obtain rfl := hwhole rfl
              exact said _ .valueless
  | declaration kind rest =>
      simp only
      cases hname : unquote (splitAtEquals false rest).1 with
      | nil => exact .single (said _ (.nameless hname))
      | cons c name =>
          have hsaid : ∀ about value, Shape.Says l.content (.declaration kind rest)
              (.declaration kind (String.ofList (c :: name)) about value) :=
            fun about value => .declaration hname (List.cons_ne_nil c name)
          cases (splitAtEquals false rest).2 with
          | none => exact .single (said _ (hsaid _ none))
          | some value => exact madeOf_startValue kind.hasBody fun _ _ => said _ (hsaid _ _)

theorem Reading.next_of_reads {r : Reading} {l : Line} (h : r.reads l = true) (number : Nat) :
    r.next number l = ((readLine number r.description l).1,
      r.mode.finish ++ (readLine number r.description l).2) := by
  rw [reads, Bool.and_eq_true, Bool.not_eq_true', Bool.not_eq_true'] at h
  obtain ⟨hblank, hcollects⟩ := h
  obtain ⟨mode, description⟩ := r
  cases mode with
  | lines =>
      rw [next_lines, hblank]
      rfl
  | fenced head soFar => cases hcollects
  | body head start soFar blanks =>
      rw [collects, Bool.or_eq_false_iff] at hcollects
      rw [next_body, hblank, hcollects.2]
      rfl

theorem Reading.madeOf_next {r : Reading} {waiting : List (Line × Nat)}
    (h : r.mode.Awaits waiting) (number : Nat) (l : Line) :
    MadeOf (waiting ++ if r.reads l then [(l, number)] else []) (r.next number l).1.mode
      (r.next number l).2 := by
  by_cases hreads : r.reads l = true
  · rw [if_pos hreads, next_of_reads hreads]
    exact .behind h.finish (madeOf_readLine number r.description l)
  · rw [if_neg hreads, List.append_nil]
    rw [reads, Bool.and_eq_true, Bool.not_eq_true', Bool.not_eq_true', not_and,
      Bool.not_eq_false] at hreads
    obtain ⟨mode, description⟩ := r
    cases h with
    | lines =>
        have hblank : l.isBlank = true := by
          rw [← Bool.not_eq_false]
          exact fun hblank => Bool.false_ne_true (hreads hblank)
        rw [next_lines, if_pos hblank]
        exact .waiting .lines
    | @body head start soFar blanks x hsaid =>
        rw [next_body]
        split
        · exact .waiting (.body hsaid)
        · next hblank =>
            rw [Bool.not_eq_true] at hblank
            have hcontinues : continuesBody head start l = true := by
              simpa only [collects, hblank, Bool.false_or] using hreads hblank
            rw [if_pos hcontinues]
            exact .waiting (.body hsaid)
    | fenced hsaid =>
        rw [next_fenced]
        split
        · exact .single (hsaid _)
        · exact .waiting (.fenced hsaid)

/-- The entries are those of the lines that are read by themselves, one each. -/
theorem saidOn_entriesFrom {r : Reading} {waiting : List (Line × Nat)}
    (h : r.mode.Awaits waiting) (number : Nat) (lines : List Line) :
    List.Forall₂ Entry.SaidOn (entriesFrom number r lines)
      (waiting ++ linesWhere Reading.reads number r lines) := by
  induction lines generalizing number r waiting with
  | nil =>
      rw [entriesFrom, linesWhere, List.append_nil]
      exact h.finish
  | cons l rest ih =>
      obtain ⟨made, waiting', hxs, hmade, hwaiting⟩ := Reading.madeOf_next h number l
      have hlines : waiting ++ linesWhere Reading.reads number r (l :: rest) =
          made ++ (waiting' ++ linesWhere Reading.reads (number + 1) (r.next number l).1 rest) := by
        rw [← List.append_assoc, ← hxs, linesWhere, List.append_assoc]
        split <;> rfl
      rw [entriesFrom_cons, hlines]
      exact List.rel_append hmade (ih hwaiting (number + 1))

theorem saidOn_entries (text : String) :
    List.Forall₂ Entry.SaidOn (entries text) (linesRead (linesOf text)) :=
  saidOn_entriesFrom (r := {}) .lines 1 (linesOf text)

theorem exists_right_of_mem {α β : Type} {R : α → β → Prop} {as : List α} {bs : List β}
    (h : List.Forall₂ R as bs) {a : α} (ha : a ∈ as) : ∃ b ∈ bs, R a b := by
  induction h with
  | nil => cases ha
  | cons hab _ ih =>
      rcases List.mem_cons.mp ha with rfl | ha
      · exact ⟨_, List.mem_cons_self, hab⟩
      · obtain ⟨b, hb, hR⟩ := ih ha
        exact ⟨b, List.mem_cons_of_mem _ hb, hR⟩

/-- What a line says tells whether it declares something. -/
theorem Entry.SaidOn.mark_eq {e : Entry} {x : Line × Nat} (h : e.SaidOn x) :
    e.mark = x.1.mark x.2 := by
  obtain ⟨line, depth, item⟩ := e
  obtain ⟨hline, hdepth, hitem⟩ := h
  have hdeclares : Entry.declares ⟨line, depth, item⟩ = x.1.declares := by
    rw [Line.declares]
    generalize Shape.of x.1.content = shape at hitem
    cases hitem with
    | declaration hname hne =>
        simp only [hname, Entry.declares, List.isEmpty_eq_false_iff.mpr hne, Bool.not_false]
    | nameless hname => simp only [hname, Entry.declares, List.isEmpty_nil, Bool.not_true]
    | _ => rfl
  rw [Entry.mark, Line.mark, hdeclares, hline, hdepth]

theorem map_mark_entriesFrom (number : Nat) (lines : List Line) :
    (entriesFrom number {} lines).map Entry.mark =
      (linesWhere Reading.reads number {} lines).map fun x => x.1.mark x.2 := by
  have hsaid : List.Forall₂ Entry.SaidOn (entriesFrom number {} lines)
      (linesWhere Reading.reads number {} lines) :=
    saidOn_entriesFrom (r := {}) .lines number lines
  rw [← List.forall₂_eq_eq_eq, List.forall₂_map_left_iff, List.forall₂_map_right_iff]
  exact hsaid.imp fun _ _ h => h.mark_eq

theorem map_mark_entries (text : String) :
    (entries text).map Entry.mark = (linesRead (linesOf text)).map fun x => x.1.mark x.2 :=
  map_mark_entriesFrom 1 (linesOf text)

/-- The entries of lines stand on these lines. -/
theorem line_of_mem_entriesFrom {number : Nat} {lines : List Line} {e : Entry}
    (he : e ∈ entriesFrom number {} lines) :
    number ≤ e.line ∧ e.line < number + lines.length := by
  have hmark : e.mark ∈ (entriesFrom number {} lines).map Entry.mark := List.mem_map_of_mem he
  rw [map_mark_entriesFrom] at hmark
  obtain ⟨⟨l, n⟩, hmem, heq⟩ := List.mem_map.mp hmark
  obtain ⟨hline, -⟩ := Mark.mk.inj heq
  have hsub := (linesWhere_sublist Reading.reads number {} lines).subset hmem
  have hle := List.le_snd_of_mem_zipIdx hsub
  have hlt := List.snd_lt_add_of_mem_zipIdx hsub
  subst hline
  exact ⟨hle, by omega⟩

end Tabular.Definition
