import Mathlib.Data.List.Forall2
import Tabular.Proofs.Formula.Blank
import Tabular.Proofs.Formula.Roles

/-!
# Reading a blanked formula again

Blanking puts blanks in the place of the comments of a formula, and of the insides of its
strings where these are hidden too. The blanked formula can be read once more, and this
module compares the two readings, character by character.

The places differ in two ways only. Where the first reading is in a comment the second is
in code, since it sees blanks there. And where the first reading is at the second of two
closing marks that stand for one, and both are hidden, the second reading is simply
inside the string. Everywhere else the place is the same: a blank opens nothing and ends
nothing, and a character that is no blank is followed by the same character as before or
by a blank, so that no two marks come to touch. What is left of a comment is code then,
and blanking again finds nothing more to blank.
-/

namespace Tabular.Formula

/-! ## What is shown of a character -/

theorem isBlank_blanked (c : Char) : Text.isBlank (blanked c) = true := by
  rcases blanked_eq c with h | h
  · rw [h]
    rfl
  · rw [h]
    rfl

@[simp] theorem blanked_blanked (c : Char) : blanked (blanked c) = blanked c := by
  rcases blanked_eq c with h | h
  · rw [h]
    rfl
  · rw [h]
    rfl

variable {hidden : Role → Bool}

theorem shown_of_hidden {role : Role} (h : hidden role = true) (c : Char) :
    shown hidden (role, c) = blanked c := if_pos h

theorem shown_of_not_hidden {role : Role} (h : hidden role = false) (c : Char) :
    shown hidden (role, c) = c := if_neg (by rw [h]; exact Bool.false_ne_true)

/-! ## Two readings in step -/

/-- What a role becomes when the comments are blanked. -/
def Role.settled : Role → Role
  | .comment => .code
  | role => role

theorem settled_inside (close : Char) :
    (Place.inside close).settled = Place.inside close := by
  rw [Place.inside]
  split
  · rfl
  · rfl

/-- Where the second reading stands when the first one stands at a place. -/
def Place.reread (hidden : Role → Bool) : Place → Place
  | .opening | .block | .closing | .line => .code
  | .doubled close => if hidden (inside close) then .within close else .doubled close
  | place => place

/-- Comments are hidden, and code is not. -/
structure HidesComments (hidden : Role → Bool) : Prop where
  comment : hidden .comment = true
  code : hidden .code = false

theorem HidesComments.or_ne_code (h : HidesComments hidden) (role : Role) :
    (hidden role || role != .code) = (role != .code) := by
  cases role with
  | code => rw [h.code]; rfl
  | text | comment => exact Bool.or_true _

theorem Place.reread_of_inComment {place : Place} (h : place.inComment = true) :
    place.reread hidden = .code := by
  cases place with
  | opening | block | closing | line => rfl
  | code | within close | doubled close => cases h

theorem step_within_blanked {close : Char} (h : (Place.within close).EndsAtMark) (c : Char)
    (following : Option Char) :
    Place.step (.within close) (blanked c) following = (Place.inside close, .within close) :=
  Place.step_within_of_ne (blanked_ne h.ne_blank.1 h.ne_blank.2) following

/-- What the second reading sees behind a character. -/
def shownNext (hidden : Role → Bool) (place : Place) (rest : List Char) : Option Char :=
  ((roles place none rest).map (shown hidden)).head?

theorem shownNext_ne {place : Place} {rest : List Char} {mark : Char} (hmark : mark ≠ ' ')
    (h : rest.head? ≠ some mark) : shownNext hidden place rest ≠ some mark :=
  fun hnext => h (head?_of_head?_shown hmark hnext)

/-- A character that opens nothing still opens nothing when a blank stands behind it. -/
theorem step_code_shownNext {c : Char} {rest : List Char}
    (h : Place.step .code c rest.head? = (.code, .code)) (place : Place) :
    Place.step .code c (shownNext hidden place rest) = (.code, .code) := by
  obtain ⟨hplain, hstar, hline⟩ := step_code_eq_iff.mp h
  have hspace : c = '/' ∨ c = '-' → c ≠ ' ' := by
    rintro (rfl | rfl)
    · decide
    · decide
  refine step_code_eq_iff.mpr ⟨hplain, ?_, ?_⟩
  · exact fun hopen => hstar ⟨hopen.1, head?_of_head?_shown (by decide) hopen.2⟩
  · exact fun hopen => hline ⟨hopen.1, head?_of_head?_shown (hspace hopen.1) hopen.2⟩

theorem step_reread_code (h : HidesComments hidden) (c : Char) (rest : List Char) :
    Place.step .code (shown hidden ((Place.step .code c rest.head?).1, c))
        (shownNext hidden (Place.step .code c rest.head?).2 rest) =
      ((Place.step .code c rest.head?).1.settled,
        (Place.step .code c rest.head?).2.reread hidden) := by
  rcases step_code_cases c rest.head? with rfl | rfl | rfl | ⟨-, hstep | ⟨place, hplace, hstep⟩⟩
  · exact congrArg (Place.step .code · _) (shown_of_not_hidden h.code _)
  · exact congrArg (Place.step .code · _) (shown_of_not_hidden h.code _)
  · exact congrArg (Place.step .code · _) (shown_of_not_hidden h.code _)
  · rw [hstep, shown_of_not_hidden h.code, step_code_shownNext hstep]
    rfl
  · rw [hstep, shown_of_hidden h.comment, step_code_of_isBlank (isBlank_blanked c),
      Place.reread_of_inComment hplace]
    rfl

theorem step_reread_within (h : HidesComments hidden) {close : Char}
    (hclose : (Place.within close).EndsAtMark) (c : Char) (rest : List Char) :
    Place.step (.within close) (shown hidden ((Place.step (.within close) c rest.head?).1, c))
        (shownNext hidden (Place.step (.within close) c rest.head?).2 rest) =
      ((Place.step (.within close) c rest.head?).1.settled,
        (Place.step (.within close) c rest.head?).2.reread hidden) := by
  by_cases hc : c = close
  · subst hc
    by_cases hnext : rest.head? = some c
    · rw [hnext, Place.step_within_doubled, settled_inside, Place.reread]
      cases hinside : hidden (Place.inside c) with
      | true =>
          rw [shown_of_hidden hinside, step_within_blanked hclose]
          rfl
      | false =>
          -- the second mark is shown too, since it has the role of the first
          have hshown : shownNext hidden (.doubled c) rest = some c := by
            obtain ⟨rest, rfl⟩ := List.head?_eq_some_iff.mp hnext
            exact congrArg some (shown_of_not_hidden hinside c)
          rw [shown_of_not_hidden hinside, hshown, Place.step_within_doubled]
          rfl
    · rw [Place.step_within_close hnext, shown_of_not_hidden h.code,
        Place.step_within_close (shownNext_ne hclose.ne_blank.1 hnext)]
      rfl
  · rw [Place.step_within_of_ne hc, settled_inside]
    cases hinside : hidden (Place.inside close) with
    | true => rw [shown_of_hidden hinside, step_within_blanked hclose]; rfl
    | false => rw [shown_of_not_hidden hinside, Place.step_within_of_ne hc]; rfl

theorem step_reread_doubled {close : Char} (hclose : (Place.within close).EndsAtMark)
    (c : Char) (following : Option Char) :
    ((Place.doubled close).reread hidden).step (shown hidden (Place.inside close, c)) following =
      ((Place.inside close).settled, .within close) := by
  rw [settled_inside, Place.reread]
  cases hinside : hidden (Place.inside close) with
  | true => rw [shown_of_hidden hinside, if_pos rfl, step_within_blanked hclose]
  | false => rfl

theorem step_reread_comment (h : HidesComments hidden) {place : Place}
    (hplace : place.inComment = true) (c : Char) (following seen : Option Char) :
    (place.reread hidden).step (shown hidden ((place.step c following).1, c)) seen =
      ((place.step c following).1.settled, (place.step c following).2.reread hidden) := by
  obtain ⟨hrole, hnext⟩ := Place.step_inComment hplace c following
  have hreread : (place.step c following).2.reread hidden = .code := by
    rcases hnext with hnext | hnext
    · exact Place.reread_of_inComment hnext
    · rw [hnext]
      rfl
  rw [hrole, hreread, Place.reread_of_inComment hplace, shown_of_hidden h.comment,
    step_code_of_isBlank (isBlank_blanked c)]
  rfl

/-- One step of the second reading behind one of the first. -/
theorem step_reread (h : HidesComments hidden) {place : Place} (hplace : place.EndsAtMark)
    (c : Char) (rest : List Char) :
    (place.reread hidden).step (shown hidden ((place.step c rest.head?).1, c))
        (shownNext hidden (place.step c rest.head?).2 rest) =
      ((place.step c rest.head?).1.settled, (place.step c rest.head?).2.reread hidden) := by
  cases place with
  | code => exact step_reread_code h c rest
  | within close => exact step_reread_within h hplace c rest
  | doubled close => exact step_reread_doubled hplace c _
  | opening | block | closing | line => exact step_reread_comment h rfl c _ _

/-- The second reading gives every character its role in the first, comments aside. -/
theorem roles_shown (h : HidesComments hidden) {place : Place} (hplace : place.EndsAtMark)
    (cs : List Char) :
    roles (place.reread hidden) none ((roles place none cs).map (shown hidden)) =
      (roles place none cs).map fun x => (x.1.settled, shown hidden x) := by
  induction cs generalizing place with
  | nil => rfl
  | cons c rest ih =>
      have hnext := ih (Place.step_endsAtMark hplace c rest.head?)
      have hstep := step_reread h hplace c rest
      rw [shownNext] at hstep
      simp only [roles, List.map_cons, Option.or_none, hstep, hnext]

/-! ## Blanking again -/

theorem shown_shown (h : HidesComments hidden) (again : Role → Bool) (x : Role × Char) :
    shown again (x.1.settled, shown hidden x) =
      shown (fun role => hidden role || again role) x := by
  obtain ⟨role, c⟩ := x
  cases hrole : hidden role with
  | false =>
      have hsettled : role.settled = role := by
        cases role with
        | code | text => rfl
        | comment => rw [h.comment] at hrole; cases hrole
      rw [shown_of_not_hidden hrole, hsettled, shown, shown, hrole, Bool.false_or]
  | true =>
      have hboth : shown (fun role => hidden role || again role) (role, c) = blanked c :=
        if_pos (show (hidden role || again role) = true by rw [hrole, Bool.true_or])
      rw [hboth, shown_of_hidden hrole, shown]
      split
      · exact blanked_blanked c
      · rfl

/-- Blanking a formula twice blanks what is hidden either time. -/
theorem blankRoles_blankRoles (h : HidesComments hidden) (again : Role → Bool)
    (formula : List Char) :
    blankRoles again (blankRoles hidden formula) =
      blankRoles (fun role => hidden role || again role) formula := by
  calc blankRoles again (blankRoles hidden formula)
    _ = (roles (Place.code.reread hidden) none
          ((roles .code none formula).map (shown hidden))).map (shown again) := rfl
    _ = ((roles .code none formula).map fun x => (x.1.settled, shown hidden x)).map
          (shown again) := by rw [roles_shown h (show Place.EndsAtMark .code from trivial)]
    _ = (roles .code none formula).map (shown fun role => hidden role || again role) := by
        rw [List.map_map]
        exact List.map_congr_left fun x _ => shown_shown h again x
    _ = blankRoles (fun role => hidden role || again role) formula := rfl

/-- A formula without its comments has the same code. -/
theorem codeOnly_blankRoles (h : HidesComments hidden) (formula : List Char) :
    codeOnly (blankRoles hidden formula) = codeOnly formula := by
  rw [codeOnly, codeOnly, blankRoles_blankRoles h, funext h.or_ne_code]

/-! ## The two blanked formulas -/

/-- A formula with the characters of some roles blanked. -/
def blankText (hidden : Role → Bool) (formula : String) : String :=
  String.ofList (blankRoles hidden formula.toList)

theorem withoutComments_eq (formula : String) :
    withoutComments formula = blankText (· == .comment) formula := rfl

/-- A formula with all blanked but its code. -/
def prepared (formula : String) : String := String.ofList (codeOnly formula.toList)

theorem prepared_eq (formula : String) :
    prepared formula = blankText (· != .code) formula := rfl

/-- A text in the place of a formula: as long, and with the same characters up to blanks
in the place of characters that are no line feeds. -/
structure KeepsShape (formula text : String) : Prop where
  length : text.length = formula.length
  characters : List.Forall₂ (fun c d => d = c ∨ d = ' ' ∧ c ≠ '\n') formula.toList text.toList

theorem keepsShape_blankText (hidden : Role → Bool) (formula : String) :
    KeepsShape formula (blankText hidden formula) where
  length := by rw [blankText, String.length_ofList, length_blankRoles, String.length_toList]
  characters := by
    have hroles : List.Forall₂ (fun c d => d = c ∨ d = ' ' ∧ c ≠ '\n')
        ((roles .code none formula.toList).map (·.2)) (blankRoles hidden formula.toList) := by
      rw [blankRoles_eq, List.forall₂_map_left_iff, List.forall₂_map_right_iff]
      exact List.forall₂_same.mpr fun x _ => shown_eq hidden x
    rw [blankText, String.toList_ofList]
    rwa [map_snd_roles] at hroles

theorem blankText_blankText {again both : Role → Bool} (h : HidesComments hidden)
    (hboth : ∀ role, (hidden role || again role) = both role) (formula : String) :
    blankText again (blankText hidden formula) = blankText both formula := by
  rw [blankText, blankText, String.toList_ofList, blankRoles_blankRoles h, funext hboth,
    blankText]

theorem resolve_blankText (h : HidesComments hidden) (index : Index) (formula : String) :
    resolve index (blankText hidden formula) = resolve index formula := by
  rw [resolve, resolve, mentions, mentions, blankText, String.toList_ofList,
    codeOnly_blankRoles h]

/-- Both blanked formulas keep the shape of a formula, have nothing left to blank, and
refer to the same objects. -/
theorem blankText_stable (formula : String) :
    KeepsShape formula (withoutComments formula)
    ∧ KeepsShape formula (prepared formula)
    ∧ withoutComments (withoutComments formula) = withoutComments formula
    ∧ prepared (prepared formula) = prepared formula
    ∧ prepared (withoutComments formula) = prepared formula
    ∧ withoutComments (prepared formula) = prepared formula
    ∧ ∀ index, resolve index (withoutComments formula) = resolve index formula
      ∧ resolve index (prepared formula) = resolve index formula := by
  have hcomment : HidesComments (· == .comment) := ⟨rfl, rfl⟩
  have hcode : HidesComments (· != .code) := ⟨rfl, rfl⟩
  have hcommute : ∀ role : Role, (role != .code || role == .comment) = (role != .code) := by
    intro role
    cases role with
    | code | text | comment => rfl
  simp only [withoutComments_eq, prepared_eq]
  refine ⟨keepsShape_blankText _ formula, keepsShape_blankText _ formula, ?_, ?_, ?_, ?_,
    fun index => ⟨resolve_blankText hcomment index formula,
      resolve_blankText hcode index formula⟩⟩
  · exact blankText_blankText hcomment (fun _ => Bool.or_self _) formula
  · exact blankText_blankText hcode (fun _ => Bool.or_self _) formula
  · exact blankText_blankText hcomment hcomment.or_ne_code formula
  · exact blankText_blankText hcode hcommute formula

/-- The marks on both sides of a comment do not come to touch. -/
example : withoutComments "-/* */- [A]" = "-     - [A]" := by decide +kernel

end Tabular.Formula
