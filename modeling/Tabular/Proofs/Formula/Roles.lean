import Tabular.Formula.Comment
import Tabular.Text.Doubled

/-!
# The stretches of a formula

A formula whose reading ends in code is a row of stretches: single characters of code,
names and strings that are closed, and comments. This module takes one stretch off the
front of such a formula, and says what roles its characters have. A name or a string is
its text with the closing marks doubled, between marks; a comment goes on up to where the
reading comes back to code.

What follows a formula can matter to its last character only, and then only when that
character is the same or a slash in front of a star. So two formulas that are put
together keep the roles they have alone, unless their touching characters are of this
kind.

Where characters of some roles are blanked, what is shown of a text has a blank or a line
feed in their place, and so begins with no mark that the text does not begin with.
-/

namespace Tabular.Formula

open Text

namespace Place

/-- Whether the reading stands inside a comment. -/
def inComment : Place → Bool
  | opening | block | closing | line => true
  | _ => false

/-! ## Names and strings -/

theorem step_within_of_ne {close c : Char} (h : c ≠ close) (following : Option Char) :
    step (within close) c following = (inside close, within close) := by
  simp only [step, if_neg h]

theorem step_within_doubled (close : Char) :
    step (within close) close (some close) = (inside close, doubled close) := by
  simp only [step, if_true]

theorem step_within_close {close : Char} {following : Option Char}
    (h : following ≠ some close) :
    step (within close) close following = (.code, code) := by
  simp only [step, if_true, if_neg h]

/-- Behind an opening mark, a reading that ends in code has met the closing mark. -/
theorem exists_double_of_after {close : Char} {following : Option Char} {cs : List Char}
    (h : after (within close) following cs = code) :
    ∃ name rest, cs = double close name ++ close :: rest
      ∧ rest.head?.or following ≠ some close ∧ after code following rest = code := by
  -- on the length of the text, since two closing marks in a row are taken off at once
  induction hlength : cs.length using Nat.strongRecOn generalizing cs with
  | ind n ih =>
  cases cs with
  | nil => cases h
  | cons c cs =>
      rw [after] at h
      by_cases hc : c = close
      · subst hc
        by_cases hnext : cs.head?.or following = some c
        · rw [hnext, step_within_doubled] at h
          cases cs with
          | nil => cases h
          | cons d cs =>
              have hd : d = c := by simpa using hnext
              subst hd
              obtain ⟨name, rest, rfl, hrest⟩ := ih cs.length (by simp at hlength; omega) h rfl
              exact ⟨d :: name, rest, by simp [double_cons], hrest⟩
        · rw [step_within_close hnext] at h
          exact ⟨[], cs, rfl, hnext, h⟩
      · rw [step_within_of_ne hc] at h
        obtain ⟨name, rest, rfl, hrest⟩ := ih cs.length (by simp at hlength; omega) h rfl
        exact ⟨c :: name, rest, by simp [double_cons, hc], hrest⟩

/-! ## Comments -/

theorem step_inComment {place : Place} (h : place.inComment = true) (c : Char)
    (following : Option Char) :
    (place.step c following).1 = .comment
      ∧ ((place.step c following).2.inComment = true
        ∨ (place.step c following).2 = code) := by
  cases place with
  | opening => exact ⟨rfl, Or.inl rfl⟩
  | closing => exact ⟨rfl, Or.inr rfl⟩
  | block =>
      rw [step]
      split
      · exact ⟨rfl, Or.inl rfl⟩
      · exact ⟨rfl, Or.inl rfl⟩
  | line =>
      rw [step]
      split
      · exact ⟨rfl, Or.inr rfl⟩
      · exact ⟨rfl, Or.inl rfl⟩
  | code => cases h
  | within close => cases h
  | doubled close => cases h

/-! ## The character behind a text -/

/-- Whether a name or a string that is open will end at a mark that ends one. -/
def EndsAtMark : Place → Prop
  | within close | doubled close => close = '"' ∨ close = '\'' ∨ close = ']'
  | _ => True

/-- A mark that ends a name or a string is no blank. -/
theorem EndsAtMark.ne_blank {close : Char} (h : (within close).EndsAtMark) :
    close ≠ ' ' ∧ close ≠ '\n' := by
  rcases h with rfl | rfl | rfl
  · decide
  · decide
  · decide

theorem step_endsAtMark {place : Place} (h : place.EndsAtMark) (c : Char)
    (following : Option Char) : (place.step c following).2.EndsAtMark := by
  cases place with
  | code =>
      rw [step]
      split
      · exact Or.inl rfl
      split
      · exact Or.inr (Or.inl rfl)
      split
      · exact Or.inr (Or.inr rfl)
      split
      · trivial
      split
      · trivial
      · trivial
  | within close =>
      rw [step]
      split
      · split
        · exact h
        · trivial
      · exact h
  | doubled close => exact h
  | opening => trivial
  | block =>
      rw [step]
      split
      · trivial
      · trivial
  | closing => trivial
  | line =>
      rw [step]
      split
      · trivial
      · trivial

theorem after_endsAtMark {place : Place} (h : place.EndsAtMark) (following : Option Char)
    (cs : List Char) : (place.after following cs).EndsAtMark := by
  induction cs generalizing place with
  | nil => exact h
  | cons c cs ih => exact ih (step_endsAtMark h c (cs.head?.or following))

/-- A character that leads back to code does not ask what follows it, unless what follows
is the same character again or a star. A blank that follows is never asked for. -/
theorem step_eq_of_ne {place : Place} (hplace : place.EndsAtMark) {c x : Char}
    (h : (place.step c none).2 = code) (hc : c ≠ x ∨ x = ' ') (hstar : x ≠ '*') :
    place.step c (some x) = place.step c none := by
  cases place with
  | code =>
      have hx : ¬ (c = '/' ∧ some x = some '*') := fun hopen => hstar (Option.some.inj hopen.2)
      have hnone : ¬ (c = '/' ∧ (none : Option Char) = some '*') := fun hopen => by cases hopen.2
      have hsame : ¬ ((c = '/' ∨ c = '-') ∧ some x = some c) := by
        rintro ⟨hmark, hxc⟩
        have hxc : x = c := Option.some.inj hxc
        rcases hc with hc | rfl
        · exact hc hxc.symm
        · subst hxc
          rcases hmark with hmark | hmark
          · exact absurd hmark (by decide)
          · exact absurd hmark (by decide)
      have hsame' : ¬ ((c = '/' ∨ c = '-') ∧ (none : Option Char) = some c) :=
        fun hopen => by cases hopen.2
      rw [step, step, if_neg hx, if_neg hnone, if_neg hsame, if_neg hsame']
  | within close =>
      by_cases hclose : c = close
      · subst hclose
        have hx : (some x : Option Char) ≠ some c := by
          intro hxc
          have hxc : x = c := Option.some.inj hxc
          rcases hc with hc | rfl
          · exact hc hxc.symm
          · subst hxc
            exact hplace.ne_blank.1 rfl
        rw [step_within_close hx, step_within_close (Option.some_ne_none c).symm]
      · rw [step_within_of_ne hclose, step_within_of_ne hclose]
  | doubled close => cases h
  | opening => cases h
  | block =>
      rw [step, if_neg fun hend => Option.some_ne_none _ hend.2.symm] at h
      cases h
  | closing => rfl
  | line => rfl

end Place

/-! ## Code -/

/-- Whether a character of code is no mark. -/
def IsPlainCode (c : Char) : Prop := c ≠ '\'' ∧ c ≠ '[' ∧ c ≠ '"'

/-- What a character of code opens. -/
theorem step_code_cases (c : Char) (following : Option Char) :
    c = '\'' ∨ c = '[' ∨ c = '"' ∨ IsPlainCode c
      ∧ (Place.step .code c following = (.code, .code)
        ∨ ∃ place : Place, place.inComment = true
          ∧ Place.step .code c following = (.comment, place)) := by
  by_cases hquote : c = '\''
  · exact Or.inl hquote
  by_cases hbracket : c = '['
  · exact Or.inr (Or.inl hbracket)
  by_cases hstring : c = '"'
  · exact Or.inr (Or.inr (Or.inl hstring))
  refine Or.inr (Or.inr (Or.inr ⟨⟨hquote, hbracket, hstring⟩, ?_⟩))
  rw [Place.step, if_neg hstring, if_neg hquote, if_neg hbracket]
  split
  · exact Or.inr ⟨.opening, rfl, rfl⟩
  · split
    · exact Or.inr ⟨.line, rfl, rfl⟩
    · exact Or.inl rfl

/-- A character of code opens nothing when it is no mark and begins no comment. -/
theorem step_code_eq_iff {c : Char} {following : Option Char} :
    Place.step .code c following = (.code, .code) ↔
      IsPlainCode c ∧ ¬ (c = '/' ∧ following = some '*')
        ∧ ¬ ((c = '/' ∨ c = '-') ∧ following = some c) := by
  rw [Place.step, IsPlainCode]
  by_cases hstring : c = '"'
  · simp [hstring]
  by_cases hquote : c = '\''
  · simp [hquote]
  by_cases hbracket : c = '['
  · simp [hbracket]
  rw [if_neg hstring, if_neg hquote, if_neg hbracket]
  by_cases hstar : c = '/' ∧ following = some '*'
  · simp [hstar]
  rw [if_neg hstar]
  by_cases hline : (c = '/' ∨ c = '-') ∧ following = some c
  · simp [hline]
  · simp [hstring, hquote, hbracket, hstar, hline]

/-! ## Roles -/

variable {following : Option Char} {close : Char} {rest : List Char}

/-- A name or a string is closed by the first mark that is not doubled. -/
theorem roles_within (h : rest.head?.or following ≠ some close) (name : List Char) :
    roles (.within close) following (double close name ++ close :: rest) =
      (double close name).map (Place.inside close, ·)
        ++ (.code, close) :: roles .code following rest := by
  induction name with
  | nil =>
      simp only [double_nil, List.nil_append, List.map_nil, roles, Place.step_within_close h]
  | cons c name ih =>
      by_cases hc : c = close
      · subst hc
        have hstep : Place.step (.doubled c) c
            ((double c name ++ c :: rest).head?.or following) =
          (Place.inside c, .within c) := rfl
        simp only [double_cons, if_true, List.cons_append, List.nil_append, roles,
          List.head?_cons, Option.some_or, Place.step_within_doubled, hstep, ih,
          List.map_cons]
      · simp only [double_cons, if_neg hc, List.cons_append, List.nil_append, roles,
          Place.step_within_of_ne hc, ih, List.map_cons]

/-- A comment that is read to its end is followed by code. -/
theorem exists_roles_of_inComment {place : Place} (hplace : place.inComment = true)
    {cs : List Char} (h : place.after following cs = .code) :
    ∃ text rest, cs = text ++ rest ∧ Place.after .code following rest = .code
      ∧ roles place following cs = text.map (.comment, ·) ++ roles .code following rest := by
  induction cs generalizing place with
  | nil =>
      rw [Place.after] at h
      rw [h] at hplace
      cases hplace
  | cons c cs ih =>
      rw [Place.after] at h
      obtain ⟨hrole, hnext⟩ := Place.step_inComment hplace c (cs.head?.or following)
      rcases hnext with hnext | hnext
      · obtain ⟨text, rest, hcs, hrest, hroles⟩ := ih hnext h
        refine ⟨c :: text, rest, by rw [hcs, List.cons_append], hrest, ?_⟩
        simp only [roles, hrole, hroles, List.map_cons, List.cons_append]
      · rw [hnext] at h
        refine ⟨[c], cs, rfl, h, ?_⟩
        simp only [roles, hrole, hnext, List.map_cons, List.map_nil, List.cons_append,
          List.nil_append]

/-- A character that is not what a text ends with, and no star, may follow the text
without a change to its reading. -/
theorem roles_following {p : List Char} (h : Place.after .code none p = .code) {x : Char}
    (hlast : p.getLast? ≠ some x ∨ x = ' ') (hstar : x ≠ '*') :
    roles .code (some x) p = roles .code none p
      ∧ Place.after .code (some x) p = .code := by
  rcases List.eq_nil_or_concat p with rfl | ⟨front, c, rfl⟩
  · exact ⟨rfl, rfl⟩
  · rw [List.concat_eq_append] at h hlast ⊢
    rw [List.getLast?_concat] at hlast
    have hc : c ≠ x ∨ x = ' ' := hlast.imp_left fun hne heq => hne (congrArg some heq)
    rw [Place.after_append] at h
    have hplace := Place.after_endsAtMark (show Place.EndsAtMark .code from trivial)
      (some c) front
    have hstep := Place.step_eq_of_ne hplace h hc hstar
    rw [roles_append, roles_append, Place.after_append]
    simp only [List.head?_cons, Option.some_or, roles, Place.after, List.head?_nil,
      Option.none_or] at h hstep ⊢
    rw [hstep]
    exact ⟨rfl, h⟩

/-! ## Comments and string literals -/

/-- A comment as it is written: between a slash with a star and a star with a slash, or
from two dashes or slashes up to the end of the line. -/
inductive IsComment : List Char → Prop
  | block {body : List Char} (open_body : ¬ ['*', '/'] <:+: body) :
      IsComment ('/' :: '*' :: (body ++ ['*', '/']))
  | line {mark : Char} (opener : mark = '-' ∨ mark = '/') {body : List Char}
      (one_line : '\n' ∉ body) : IsComment (mark :: mark :: (body ++ ['\n']))

/-- A text as a string literal. -/
def literal (text : List Char) : List Char := '"' :: (double '"' text ++ ['"'])

theorem roles_block {body : List Char} (h : ¬ ['*', '/'] <:+: body) :
    roles .block following (body ++ '*' :: '/' :: rest) =
      (body ++ ['*', '/']).map (.comment, ·) ++ roles .code following rest := by
  induction body with
  | nil => simp [roles, Place.step]
  | cons c body ih =>
      have hbody : ¬ ['*', '/'] <:+: body := fun hin => h (hin.trans (List.infix_cons_iff.mpr
        (Or.inr (List.infix_refl body))))
      have hnext : ¬ (c = '*'
          ∧ (body ++ '*' :: '/' :: rest).head?.or following = some '/') := by
        rintro ⟨rfl, hslash⟩
        cases body with
        | nil => simp at hslash
        | cons d body =>
            have hd : d = '/' := by simpa using hslash
            subst hd
            exact h (List.IsPrefix.isInfix ⟨body, rfl⟩)
      simp only [List.cons_append, roles, Place.step, if_neg hnext, ih hbody, List.map_cons]

theorem roles_line {body : List Char} (h : '\n' ∉ body) :
    roles .line following (body ++ '\n' :: rest) =
      (body ++ ['\n']).map (.comment, ·) ++ roles .code following rest := by
  induction body with
  | nil => simp [roles, Place.step]
  | cons c body ih =>
      have hc : c ≠ '\n' := fun heq => h (List.mem_cons.mpr (Or.inl heq.symm))
      have hbody : '\n' ∉ body := fun hin => h (List.mem_cons_of_mem c hin)
      simp only [List.cons_append, roles, Place.step, if_neg hc, ih hbody, List.map_cons]

/-- All of a comment is comment, and the reading is back in code behind it. -/
theorem roles_comment {c : List Char} (h : IsComment c) :
    roles .code following (c ++ rest) =
      c.map (.comment, ·) ++ roles .code following rest := by
  cases h with
  | block hbody =>
      have hrest := @roles_block following rest _ hbody
      simpa [roles, Place.step] using hrest
  | @line mark hmark body hbody =>
      have hrest := @roles_line following rest _ hbody
      have hline : mark ≠ '\n' := by
        rcases hmark with rfl | rfl
        · decide
        · decide
      rcases hmark with rfl | rfl
      · simpa [roles, Place.step] using hrest
      · simpa [roles, Place.step] using hrest

theorem roles_literal {text : List Char} (h : rest.head?.or following ≠ some '"') :
    roles .code following (literal text ++ rest) =
      (.code, '"') :: ((double '"' text).map (.text, ·)
        ++ (.code, '"') :: roles .code following rest) := by
  have hwithin := roles_within h text
  simpa [literal, roles, Place.step, Place.inside] using hwithin

/-! ## What is shown of a text -/

theorem blanked_eq (c : Char) : blanked c = ' ' ∨ blanked c = '\n' := by
  rw [blanked]
  split
  · next h => exact Or.inr h
  · exact Or.inl rfl

theorem blanked_ne {c mark : Char} (hspace : mark ≠ ' ') (hfeed : mark ≠ '\n') :
    blanked c ≠ mark := by
  intro h
  rcases blanked_eq c with hc | hc
  · exact hspace (h.symm.trans hc)
  · exact hfeed (h.symm.trans hc)

/-- What stands for a character with a role when some roles are hidden. -/
def shown (hidden : Role → Bool) (x : Role × Char) : Char :=
  if hidden x.1 then blanked x.2 else x.2

theorem blankRoles_eq (hidden : Role → Bool) (formula : List Char) :
    blankRoles hidden formula = (roles .code none formula).map (shown hidden) := rfl

theorem shown_eq (hidden : Role → Bool) (x : Role × Char) :
    shown hidden x = x.2 ∨ shown hidden x = ' ' ∧ x.2 ≠ '\n' := by
  rw [shown, blanked]
  split
  · split
    · exact Or.inl rfl
    · next hfeed => exact Or.inr ⟨rfl, hfeed⟩
  · exact Or.inl rfl

/-- What is shown of a text begins with no mark that the text does not begin with. -/
theorem head?_of_head?_shown {hidden : Role → Bool} {place : Place} {cs : List Char}
    {mark : Char} (hmark : mark ≠ ' ')
    (h : ((roles place following cs).map (shown hidden)).head? = some mark) :
    cs.head? = some mark := by
  cases cs with
  | nil => cases h
  | cons c rest =>
      have hshown : shown hidden ((place.step c (rest.head?.or following)).1, c) = mark :=
        Option.some.inj h
      rcases shown_eq hidden ((place.step c (rest.head?.or following)).1, c) with hc | hc
      · exact congrArg some (hc.symm.trans hshown)
      · exact absurd (hshown.symm.trans hc.1) hmark

end Tabular.Formula
