import Tabular.Proofs.Definition.Append
import Tabular.Proofs.Definition.Collected

/-!
# Reading from fence to fence

Between two fences every line is taken as it stands, so what the reader does there can be
said in one step: the value is made of the lines up to the closing fence, with what stands
in front of it, and behind it the reader goes on with lines by themselves. Code may also
stand on the line of the opening fence. It comes first then, as a line that has no depth.
-/

namespace Tabular.Definition

open Text

/-- The lines of a value up to its closing fence. -/
def fencedLines : List Line → List Line
  | [] => []
  | l :: rest =>
      match beforeEnd? fence l.text with
      | some before => if (trimEnd before).isEmpty then [] else [⟨l.depth, trimEnd before⟩]
      | none => l :: fencedLines rest

/-- The lines behind the closing fence of a value. -/
def behindFence : List Line → List Line
  | [] => []
  | l :: rest => if (beforeEnd? fence l.text).isSome then rest else behindFence rest

theorem length_behindFence_le (lines : List Line) :
    (behindFence lines).length ≤ lines.length := by
  induction lines with
  | nil => exact Nat.le_refl _
  | cons l rest ih =>
      rw [behindFence, List.length_cons]
      split
      · omega
      · omega

/-- The number of lines up to and with the closing fence. -/
def fencedLength (lines : List Line) : Nat := lines.length - (behindFence lines).length

section FencedLength

variable (l : Line) (rest : List Line)

theorem fencedLength_closing (h : (beforeEnd? fence l.text).isSome = true) :
    fencedLength (l :: rest) = 1 := by
  rw [fencedLength, behindFence, if_pos h, List.length_cons]
  omega

theorem fencedLength_inside (h : ¬ (beforeEnd? fence l.text).isSome = true) :
    fencedLength (l :: rest) = fencedLength rest + 1 := by
  have := length_behindFence_le rest
  rw [fencedLength, behindFence, if_neg h, List.length_cons, fencedLength]
  omega

end FencedLength

/-- Reading on in a fence: the value is complete at the closing fence or at the end. -/
theorem entriesFrom_fenced (number : Nat) (head : Head) (soFar : List Line)
    (description : List String) (lines : List Line) :
    entriesFrom number ⟨.fenced head soFar, description⟩ lines =
      head.entry (some (fencedValue (soFar ++ fencedLines lines)))
        :: entriesFrom (number + fencedLength lines) ⟨.lines, description⟩ (behindFence lines) := by
  induction lines generalizing number soFar with
  | nil =>
      rw [fencedLines, List.append_nil]
      rfl
  | cons l rest ih =>
      rw [entriesFrom_cons, Reading.next_fenced]
      cases hclose : beforeEnd? fence l.text with
      | none =>
          have hnot : ¬ (beforeEnd? fence l.text).isSome = true := by simp [hclose]
          rw [fencedLength_inside l rest hnot]
          simp only [fencedLines, behindFence, hclose, Option.isSome_none, Bool.false_eq_true,
            if_false, List.nil_append]
          rw [ih, List.append_assoc, List.singleton_append,
            show number + 1 + fencedLength rest = number + (fencedLength rest + 1) by omega]
      | some before =>
          have hsome : (beforeEnd? fence l.text).isSome = true := by simp [hclose]
          rw [fencedLength_closing l rest hsome]
          simp only [fencedLines, behindFence, hclose, Option.isSome_some, if_true,
            List.singleton_append]
          by_cases hlast : (trimEnd before).isEmpty = true
          · simp only [hlast, if_true, List.append_nil]
          · simp only [hlast, Bool.false_eq_true, if_false]

theorem fencedLines_append {lines : List Line} (h : ∀ l ∈ lines, beforeEnd? fence l.text = none)
    (rest : List Line) : fencedLines (lines ++ rest) = lines ++ fencedLines rest
      ∧ behindFence (lines ++ rest) = behindFence rest := by
  induction lines with
  | nil => exact ⟨rfl, rfl⟩
  | cons l lines ih =>
      obtain ⟨hfirst, hrest⟩ := List.forall_mem_cons.mp h
      obtain ⟨hlines, hbehind⟩ := ih hrest
      rw [List.cons_append, fencedLines, behindFence, hfirst]
      exact ⟨congrArg (l :: ·) hlines, hbehind⟩

/-- Lines between fences, the closing one of which stands by itself. -/
theorem entriesFrom_betweenFences (number : Nat) (head : Head) {lines : List Line}
    (h : ∀ l ∈ lines, beforeEnd? fence l.text = none) {closing : Line} {before : List Char}
    (hclosing : beforeEnd? fence closing.text = some before) (hnothing : trimEnd before = [])
    (rest : List Line) :
    entriesFrom number ⟨.fenced head [], []⟩ (lines ++ closing :: rest) =
      head.entry (some (fencedValue lines))
        :: entriesFrom (number + lines.length + 1) {} rest := by
  obtain ⟨hlines, hbehind⟩ := fencedLines_append h (closing :: rest)
  have hclosed : fencedLines (closing :: rest) = [] := by
    rw [fencedLines, hclosing]
    simp [hnothing]
  have hrest : behindFence (closing :: rest) = rest := by
    rw [behindFence, hclosing]
    rfl
  have hlength : fencedLength (lines ++ closing :: rest) = lines.length + 1 := by
    rw [fencedLength, hbehind, hrest, List.length_append, List.length_cons]
    omega
  rw [entriesFrom_fenced, hlines, hclosed, hbehind, hrest, hlength, List.append_nil,
    List.nil_append, Nat.add_assoc]

/-! ## Code on the line of the opening fence -/

/-- What stands behind the equals sign of a line that gives a value so. -/
def Line.value? (l : Line) : Option (List Char) :=
  match Shape.of l.content with
  | .declaration _ rest =>
      if (unquote (splitAtEquals false rest).1).isEmpty then none
      else (splitAtEquals false rest).2.map trim
  | .property _ .equals value => some value
  | _ => none

/-- The lines that a value starts with if it opens a fence and does not close it: none, or
the code behind the fence. -/
def fenceStart? (value : List Char) : Option (List Line) :=
  match afterStart? fence value with
  | some rest =>
      if (beforeFirst? fence rest).isSome then none
      else some (if (trim rest).isEmpty then [] else [⟨0, trim rest⟩])
  | none => none

/-- The lines that a fence starts with if one is open. -/
def Mode.fenced? : Mode → Option (List Line)
  | .fenced _ soFar => some soFar
  | _ => none

theorem startValue_fenced? (head : Head) (hasBody : Bool) (value : List Char) :
    (startValue head hasBody value).1.fenced? = fenceStart? value := by
  rw [startValue, fenceStart?]
  cases afterStart? fence value with
  | some rest =>
      simp only
      cases beforeFirst? fence rest with
      | some value => rfl
      | none => rfl
  | none =>
      simp only
      split
      · rfl
      · split
        · rfl
        · rfl

/-- A line that is read opens a fence exactly if its value does. -/
theorem readLine_fenced? (number : Nat) (description : List String) (l : Line) :
    (readLine number description l).1.mode.fenced? = l.value?.bind fenceStart? := by
  rw [readLine, Line.value?]
  cases Shape.of l.content with
  | description text => rfl
  | mention => rfl
  | keyword kind => rfl
  | flag key => rfl
  | unknown => rfl
  | property key separator value =>
      cases separator with
      | colon => rfl
      | equals => exact startValue_fenced? ⟨number, l.depth, .property key⟩ true value
  | declaration kind rest =>
      simp only
      cases hname : unquote (splitAtEquals false rest).1 with
      | nil => rfl
      | cons c name =>
          cases (splitAtEquals false rest).2 with
          | none => rfl
          | some value => exact startValue_fenced? ⟨number, l.depth, _⟩ kind.hasBody _

theorem Mode.isFenced_iff {m : Mode} : m.isFenced = true ↔ m.fenced?.isSome = true := by
  cases m with
  | lines => exact Iff.rfl
  | body head start soFar blanks => exact Iff.rfl
  | fenced head soFar => exact Iff.rfl

/-- Outside of fences, one is opened by a line that is read and by no other. -/
theorem Reading.next_fenced? {r : Reading} (hr : r.mode.isFenced = false) (number : Nat)
    (l : Line) : (r.next number l).1.mode.fenced? =
      if r.reads l then l.value?.bind fenceStart? else none := by
  obtain ⟨mode, description⟩ := r
  cases mode with
  | fenced head soFar => cases hr
  | lines =>
      rw [Reading.next_lines]
      cases hblank : l.isBlank with
      | true => simp [Reading.reads, hblank, Mode.fenced?]
      | false => simp [Reading.reads, Reading.collects, hblank, readLine_fenced?]
  | body head start soFar blanks =>
      rw [Reading.next_body]
      cases hblank : l.isBlank with
      | true => simp [Reading.reads, hblank, Mode.fenced?]
      | false =>
          cases hcontinues : continuesBody head start l with
          | true => simp [Reading.reads, Reading.collects, hcontinues, Mode.fenced?]
          | false =>
              simp [Reading.reads, Reading.collects, hblank, hcontinues, readLine_fenced?]

/-- A fence starts with no line, or with the code behind it. -/
theorem fenceStart?_cases {value : List Char} {start : List Line}
    (h : fenceStart? value = some start) :
    start = [] ∨ ∃ code, code ≠ [] ∧ start = [⟨0, code⟩] := by
  rw [fenceStart?] at h
  split at h
  · split at h
    · cases h
    · rw [← Option.some.inj h]
      split
      · exact Or.inl rfl
      · next hcode => exact Or.inr ⟨_, fun heq => hcode (by rw [heq]; rfl), rfl⟩
  · cases h

end Tabular.Definition
