import Tabular.Formula.References
import Tabular.Proofs.Formula.Roles

/-!
# Reading the mentions of a formula piece by piece

The mentions are read from the code of a formula, in which strings and comments are
blanks already. This second reading goes by the same marks as the first one, so where the
first has come back to code, the second has no name open either: what it mentions up to
there, and the code in front of the next bracket, depend on that piece alone. Only a mark
that would go on the last name of the piece, and a bracket that would turn a table into
the owner of a name, must not follow.

Of the code in front of a bracket little is asked: whether it ends with the mark of a
parameter, the word that touches its end, and the letters it ends with. Stretches of code
that agree on these are answered alike, and so are all that go on with the same text.
-/

namespace Tabular.Formula

open Text

/-! ## The code of a formula -/

/-- Characters with roles, with blanks in the place of all that is not code. -/
def codeOf (cs : List (Role × Char)) : List Char :=
  cs.map fun (role, c) => if role != .code then blanked c else c

theorem codeOnly_eq (cs : List Char) : codeOnly cs = codeOf (roles .code none cs) := rfl

@[simp] theorem codeOf_nil : codeOf [] = [] := rfl

@[simp] theorem codeOf_cons_code (c : Char) (cs : List (Role × Char)) :
    codeOf ((.code, c) :: cs) = c :: codeOf cs := rfl

@[simp] theorem codeOf_append (a b : List (Role × Char)) :
    codeOf (a ++ b) = codeOf a ++ codeOf b := by
  rw [codeOf, List.map_append]
  rfl

@[simp] theorem codeOf_map_code (cs : List Char) : codeOf (cs.map (.code, ·)) = cs := by
  rw [codeOf, List.map_map]
  exact List.map_id cs

@[simp] theorem codeOf_map_text (cs : List Char) :
    codeOf (cs.map (.text, ·)) = cs.map blanked := by
  rw [codeOf, List.map_map]
  rfl

@[simp] theorem codeOf_map_comment (cs : List Char) :
    codeOf (cs.map (.comment, ·)) = cs.map blanked := by
  rw [codeOf, List.map_map]
  rfl

/-- No mark begins the code of a text that does not begin the text itself. -/
theorem head?_codeOf_ne (place : Place) (following : Option Char) {cs X : List Char}
    {mark : Char} (hmark : mark ≠ ' ') (h : cs.head?.or X.head? ≠ some mark) :
    (codeOf (roles place following cs) ++ X).head? ≠ some mark := by
  cases cs with
  | nil => exact h
  | cons c rest =>
      intro hhead
      have hshown : ((roles place following (c :: rest)).map (shown (· != .code))).head? =
          some mark := hhead
      exact h (head?_of_head?_shown hmark hshown)

/-! ## One step of the reading -/

variable {lead rest rest' name : List Char}

theorem mentionsAfter_nil (lead : List Char) : mentionsAfter lead [] = [] := by
  rw [mentionsAfter]

theorem mentionsAfter_cons {c : Char} (h : IsPlainCode c) :
    mentionsAfter lead (c :: rest) = mentionsAfter (c :: lead) rest := by
  rw [mentionsAfter, if_neg h.1, if_neg h.2.1, if_neg h.2.2]

theorem mentionsAfter_append_plain {cs : List Char} (h : ∀ c ∈ cs, IsPlainCode c) :
    mentionsAfter lead (cs ++ rest) = mentionsAfter (cs.reverse ++ lead) rest := by
  induction cs generalizing lead with
  | nil => rfl
  | cons c cs ih =>
      obtain ⟨hc, hcs⟩ := List.forall_mem_cons.mp h
      rw [List.cons_append, mentionsAfter_cons hc, ih hcs, List.reverse_cons,
        List.append_assoc]
      rfl

theorem mentionsAfter_bracketed (h : readUntil? ']' rest = some (name, rest')) :
    mentionsAfter lead ('[' :: rest) =
      .bracketed lead (String.ofList name) :: mentionsAfter [] rest' := by
  rw [mentionsAfter, if_neg (by decide), if_pos rfl]
  split
  · next hnone => rw [h] at hnone; cases hnone
  · next hsome => rw [h] at hsome; cases hsome; rfl

theorem mentionsAfter_table {table : List Char} (h : readUntil? '\'' rest = some (table, rest'))
    (hnext : rest'.head? ≠ some '[') :
    mentionsAfter lead ('\'' :: rest) =
      .table (String.ofList table) :: mentionsAfter [] rest' := by
  rw [mentionsAfter, if_pos rfl]
  split
  · next hnone => rw [h] at hnone; cases hnone
  · next hsome => rw [h] at hsome; cases hsome; exact absurd rfl hnext
  · next hsome => rw [h] at hsome; cases hsome; rfl

theorem mentionsAfter_qualified {table rest'' : List Char}
    (h : readUntil? '\'' rest = some (table, '[' :: rest'))
    (h' : readUntil? ']' rest' = some (name, rest'')) :
    mentionsAfter lead ('\'' :: rest) =
      .qualified (String.ofList table) (String.ofList name)
        :: mentionsAfter [] rest'' := by
  rw [mentionsAfter, if_pos rfl]
  split
  · next hnone => rw [h] at hnone; cases hnone
  · next hsome =>
      rw [h] at hsome
      cases hsome
      split
      · next hnone => rw [h'] at hnone; cases hnone
      · next hsome => rw [h'] at hsome; cases hsome; rfl
  · next hother hsome => rw [h] at hsome; cases hsome; exact absurd rfl (hother rest')

theorem afterString_append {body : List Char} (h : '"' ∉ body) (rest : List Char) :
    afterString (body ++ '"' :: rest) = rest := by
  have hbody : ∀ c ∈ body, (c != '"') = true := by
    intro c hc
    rw [bne_iff_ne]
    rintro rfl
    exact h hc
  rw [afterString, List.dropWhile_append_of_pos hbody]
  rfl

theorem mentionsAfter_string {body : List Char} (h : '"' ∉ body) :
    mentionsAfter lead ('"' :: (body ++ '"' :: rest)) = mentionsAfter [] rest := by
  rw [mentionsAfter, if_neg (by decide), if_neg (by decide), if_pos rfl,
    afterString_append h]

/-! ## One stretch of a formula -/

variable {following : Option Char} {close : Char}

/-- A closed name is code from mark to mark. -/
theorem codeOf_within (hclose : close ≠ '"') (h : rest.head?.or following ≠ some close)
    (name : List Char) :
    codeOf (roles (.within close) following (double close name ++ close :: rest)) =
      double close name ++ close :: codeOf (roles .code following rest) := by
  rw [roles_within h, codeOf_append, codeOf_cons_code, Place.inside, if_neg hclose,
    codeOf_map_code]

theorem codeOf_quoted (h : rest.head?.or following ≠ some '\'') (table : List Char) :
    codeOf (roles .code following ('\'' :: (double '\'' table ++ '\'' :: rest))) =
      '\'' :: (double '\'' table ++ '\'' :: codeOf (roles .code following rest)) :=
  congrArg ('\'' :: ·) (codeOf_within (by decide) h table)

theorem codeOf_bracketed (h : rest.head?.or following ≠ some ']') (name : List Char) :
    codeOf (roles .code following ('[' :: (double ']' name ++ ']' :: rest))) =
      '[' :: (double ']' name ++ ']' :: codeOf (roles .code following rest)) :=
  congrArg ('[' :: ·) (codeOf_within (by decide) h name)

/-- A string literal is code only in its two marks. -/
theorem codeOf_literal (h : rest.head?.or following ≠ some '"') (text : List Char) :
    codeOf (roles .code following (literal text ++ rest)) =
      '"' :: ((double '"' text).map blanked
        ++ '"' :: codeOf (roles .code following rest)) := by
  rw [roles_literal h, codeOf_cons_code, codeOf_append, codeOf_map_text, codeOf_cons_code]

theorem quote_not_mem_map_blanked (cs : List Char) : '"' ∉ cs.map blanked := by
  intro h
  obtain ⟨c, -, hc⟩ := List.mem_map.mp h
  exact blanked_ne (by decide) (by decide) hc

theorem isPlainCode_of_mem_map_blanked {cs : List Char} {c : Char}
    (h : c ∈ cs.map blanked) : IsPlainCode c := by
  obtain ⟨d, -, rfl⟩ := List.mem_map.mp h
  exact ⟨blanked_ne (by decide) (by decide), blanked_ne (by decide) (by decide),
    blanked_ne (by decide) (by decide)⟩

/-! ## The code in front of a bracket -/

/-- Two stretches of code, given from their ends, that decide alike about a bracket right
behind them, and go on doing so when the same text is put behind both. -/
structure SameLead (a b : List Char) : Prop where
  parameter : marksParameter a = marksParameter b
  word : a.takeWhile (fun c => isAlphanumeric c || c == '_') =
    b.takeWhile fun c => isAlphanumeric c || c == '_'
  letters : a.takeWhile isLetter = b.takeWhile isLetter
  lastLetters : (a.dropWhile isBlank).takeWhile isLetter =
    (b.dropWhile isBlank).takeWhile isLetter

namespace SameLead

variable {a b : List Char}

theorem refl (a : List Char) : SameLead a a := ⟨rfl, rfl, rfl, rfl⟩

theorem cons (h : SameLead a b) (c : Char) : SameLead (c :: a) (c :: b) where
  parameter := rfl
  word := by
    rw [List.takeWhile_cons, List.takeWhile_cons, h.word]
  letters := by
    rw [List.takeWhile_cons, List.takeWhile_cons, h.letters]
  lastLetters := by
    rw [List.dropWhile_cons, List.dropWhile_cons]
    split
    · exact h.lastLetters
    · rw [List.takeWhile_cons, List.takeWhile_cons, h.letters]

/-- Some blanks are as good as one. -/
theorem blanks {text : List Char} (htext : text ≠ []) (lead : List Char) :
    SameLead ((text.map blanked).reverse ++ lead) (' ' :: lead) := by
  have hblank : ∀ c ∈ (text.map blanked).reverse, c = ' ' ∨ c = '\n' := by
    intro c hc
    obtain ⟨d, -, rfl⟩ := List.mem_map.mp (List.mem_reverse.mp hc)
    exact blanked_eq d
  have hne : (text.map blanked).reverse ≠ [] := by simpa using htext
  generalize (text.map blanked).reverse = blanks at hblank hne
  obtain ⟨c, blanks, rfl⟩ := List.exists_cons_of_ne_nil hne
  have hdrop : ∀ d ∈ c :: blanks, isBlank d = true := by
    intro d hd
    rcases hblank d hd with rfl | rfl
    · rfl
    · rfl
  refine ⟨?_, ?_, ?_, ?_⟩
  · rcases hblank c List.mem_cons_self with rfl | rfl
    · rfl
    · rfl
  · rcases hblank c List.mem_cons_self with rfl | rfl
    · rfl
    · rfl
  · rcases hblank c List.mem_cons_self with rfl | rfl
    · rfl
    · rfl
  · rw [List.dropWhile_append_of_pos hdrop]
    rfl

theorem ofMention_eq (h : SameLead a b) (index : Index) (name : String) :
    References.ofMention index (.bracketed a name) =
      References.ofMention index (.bracketed b name) := by
  have hword : touchingWord a = touchingWord b := by
    rw [touchingWord, touchingWord, h.word]
  have hdeclares : declaresName a = declaresName b := by
    rw [declaresName, declaresName, Formula.lastLetters, Formula.lastLetters, h.lastLetters]
  rw [References.ofMention, References.ofMention, h.parameter, hword, hdeclares]

/-- Behind code that decides alike, the same text is answered alike. -/
theorem map_ofMention (h : SameLead a b) (index : Index) (X : List Char) :
    (mentionsAfter a X).map (References.ofMention index) =
      (mentionsAfter b X).map (References.ofMention index) := by
  induction X generalizing a b with
  | nil => rw [mentionsAfter_nil, mentionsAfter_nil]
  | cons c X ih =>
      rcases step_code_cases c none with rfl | rfl | rfl | ⟨hplain, -⟩
      · -- a quoted name does not look back
        rw [mentionsAfter, mentionsAfter, if_pos rfl, if_pos rfl]
      · rw [mentionsAfter, mentionsAfter, if_neg (by decide), if_pos rfl, if_neg (by decide),
          if_pos rfl]
        split
        · rfl
        · rw [List.map_cons, List.map_cons, h.ofMention_eq index]
      · rw [mentionsAfter, mentionsAfter, if_neg (by decide), if_neg (by decide), if_pos rfl,
          if_neg (by decide), if_neg (by decide), if_pos rfl]
      · rw [mentionsAfter_cons hplain, mentionsAfter_cons hplain]
        exact ih (h.cons c)

theorem trans {c : List Char} (h : SameLead a b) (h' : SameLead b c) : SameLead a c :=
  ⟨h.parameter.trans h'.parameter, h.word.trans h'.word, h.letters.trans h'.letters,
    h.lastLetters.trans h'.lastLetters⟩

theorem append (h : SameLead a b) (front : List Char) : SameLead (front ++ a) (front ++ b) := by
  induction front with
  | nil => exact h
  | cons c front ih => exact ih.cons c

/-- A mark that ends a name or a string is as good as the beginning. -/
theorem mark {close : Char} (h : close = '\'' ∨ close = '"' ∨ close = ']') (front : List Char) :
    SameLead [] (close :: front) := by
  rcases h with rfl | rfl | rfl
  · exact ⟨rfl, rfl, rfl, rfl⟩
  · exact ⟨rfl, rfl, rfl, rfl⟩
  · exact ⟨rfl, rfl, rfl, rfl⟩

/-- What stands in front of such a mark does not count. -/
theorem behindMark {close : Char} (h : SameLead a (b ++ []))
    (hclose : close = '\'' ∨ close = '"' ∨ close = ']') (front : List Char) :
    SameLead a (b ++ close :: front) := h.trans ((mark hclose front).append b)

end SameLead

/-! ## A piece that ends in code -/

/-- A text that does not go on what another one ends with: it neither goes on a name nor
gives a table a name. -/
structure StandsBehind (p X : List Char) : Prop where
  quote : X.head? ≠ some '\''
  closing : X.head? ≠ some ']'
  bracket : p.getLast? = some '\'' → X.head? ≠ some '['

/-- What does not go on a text does not go on its last stretches. -/
theorem StandsBehind.of_suffix {p X : List Char} (h : StandsBehind p X) (hrest : rest <:+ p) :
    StandsBehind rest X where
  quote := h.quote
  closing := h.closing
  bracket hlast := by
    obtain ⟨front, rfl⟩ := hrest
    exact h.bracket (by rw [List.getLast?_append, hlast, Option.some_or])

/-- Where the text goes on with a mark, that mark is in the text or behind it. -/
theorem head?_or_ne {X : List Char} {mark : Char} (h : rest.head?.or following ≠ some mark)
    (hX : X.head? ≠ some mark) : rest.head?.or X.head? ≠ some mark := by
  cases rest with
  | nil => exact hX
  | cons d rest => exact h

/-- A piece of a formula reads by itself when what it mentions is the same whatever follows,
and a bracket behind it is decided by the code of the piece. -/
def ReadsBefore (following : Option Char) (p : List Char) : Prop :=
  ∀ lead, ∃ ms lead',
    SameLead lead' ((codeOf (roles .code following p)).reverse ++ lead)
    ∧ ∀ X, StandsBehind p X →
      mentionsAfter lead (codeOf (roles .code following p) ++ X) =
        ms ++ mentionsAfter lead' X

namespace ReadsBefore

theorem nil : ReadsBefore following [] :=
  fun lead => ⟨[], lead, .refl lead, fun _ _ => rfl⟩

theorem plain {c : Char} (h : ReadsBefore following rest) (hplain : IsPlainCode c)
    (hstep : Place.step .code c (rest.head?.or following) = (.code, .code)) :
    ReadsBefore following (c :: rest) := by
  intro lead
  obtain ⟨ms, lead', hlead, hms⟩ := h (c :: lead)
  refine ⟨ms, lead', ?_, fun X hX => ?_⟩
  · rwa [roles, hstep, codeOf_cons_code, List.reverse_cons, List.append_assoc]
  · rw [roles, hstep, codeOf_cons_code, List.cons_append, mentionsAfter_cons hplain,
      hms X (hX.of_suffix (List.suffix_cons c rest))]

theorem comment (text : List Char) (h : ReadsBefore following rest)
    (hroles : roles .code following (text ++ rest) =
      text.map (.comment, ·) ++ roles .code following rest) :
    ReadsBefore following (text ++ rest) := by
  intro lead
  obtain ⟨ms, lead', hlead, hms⟩ := h ((text.map blanked).reverse ++ lead)
  refine ⟨ms, lead', ?_, fun X hX => ?_⟩
  · rwa [hroles, codeOf_append, codeOf_map_comment, List.reverse_append, List.append_assoc]
  · rw [hroles, codeOf_append, codeOf_map_comment, List.append_assoc,
      mentionsAfter_append_plain fun _ => isPlainCode_of_mem_map_blanked]
    exact hms X (hX.of_suffix (List.suffix_append text rest))

theorem literal (text : List Char) (h : ReadsBefore following rest)
    (hnext : rest.head?.or following ≠ some '"') :
    ReadsBefore following (Formula.literal text ++ rest) := by
  intro lead
  obtain ⟨ms, lead', hlead, hms⟩ := h []
  refine ⟨ms, lead', ?_, fun X hX => ?_⟩
  · simpa [codeOf_literal hnext] using hlead.behindMark (Or.inr (Or.inl rfl)) _
  · rw [codeOf_literal hnext]
    simp only [List.cons_append, List.append_assoc]
    rw [mentionsAfter_string (quote_not_mem_map_blanked _),
      hms X (hX.of_suffix (List.suffix_append _ rest))]

theorem bracketed {name : List Char} (h : ReadsBefore following rest)
    (hnext : rest.head?.or following ≠ some ']') :
    ReadsBefore following ('[' :: (double ']' name ++ ']' :: rest)) := by
  intro lead
  obtain ⟨ms, lead', hlead, hms⟩ := h []
  refine ⟨.bracketed lead (String.ofList name) :: ms, lead', ?_, fun X hX => ?_⟩
  · simpa [codeOf_bracketed hnext] using hlead.behindMark (Or.inr (Or.inr rfl)) _
  · have hclosed := head?_codeOf_ne .code following (by decide)
      (head?_or_ne hnext hX.closing)
    have hX' : StandsBehind rest X := hX.of_suffix ⟨'[' :: (double ']' name ++ [']']), by simp⟩
    rw [codeOf_bracketed hnext]
    simp only [List.cons_append, List.append_assoc]
    rw [mentionsAfter_bracketed (readUntil?_double hclosed name), hms X hX']

theorem table {table : List Char} (h : ReadsBefore following rest)
    (hnext : rest.head?.or following ≠ some '\'') (halone : rest.head? ≠ some '[') :
    ReadsBefore following ('\'' :: (double '\'' table ++ '\'' :: rest)) := by
  intro lead
  obtain ⟨ms, lead', hlead, hms⟩ := h []
  refine ⟨.table (String.ofList table) :: ms, lead', ?_, fun X hX => ?_⟩
  · simpa [codeOf_quoted hnext] using hlead.behindMark (Or.inl rfl) _
  · have hclosed := head?_codeOf_ne .code following (by decide)
      (head?_or_ne hnext hX.quote)
    have hX' : StandsBehind rest X :=
      hX.of_suffix ⟨'\'' :: (double '\'' table ++ ['\'']), by simp⟩
    have hbracket : rest.head?.or X.head? ≠ some '[' := by
      cases rest with
      | nil => exact hX.bracket (List.getLast?_concat (l := '\'' :: double '\'' table))
      | cons d rest => exact halone
    have hopen := head?_codeOf_ne .code following (by decide) hbracket
    rw [codeOf_quoted hnext]
    simp only [List.cons_append, List.append_assoc]
    rw [mentionsAfter_table (readUntil?_double hclosed table) hopen, hms X hX']

theorem qualified {table name : List Char} (h : ReadsBefore following rest)
    (hnext : rest.head?.or following ≠ some ']') :
    ReadsBefore following ('\'' :: (double '\'' table
      ++ '\'' :: '[' :: (double ']' name ++ ']' :: rest))) := by
  intro lead
  obtain ⟨ms, lead', hlead, hms⟩ := h []
  refine ⟨.qualified (String.ofList table) (String.ofList name) :: ms, lead', ?_,
    fun X hX => ?_⟩
  · rw [codeOf_quoted (by simp), codeOf_bracketed hnext]
    simpa using hlead.behindMark (Or.inr (Or.inr rfl)) _
  · have hclosed := head?_codeOf_ne .code following (by decide)
      (head?_or_ne hnext hX.closing)
    have hX' : StandsBehind rest X := hX.of_suffix
      ⟨'\'' :: (double '\'' table ++ '\'' :: '[' :: (double ']' name ++ [']'])), by simp⟩
    rw [codeOf_quoted (by simp), codeOf_bracketed hnext]
    simp only [List.cons_append, List.append_assoc]
    rw [mentionsAfter_qualified (readUntil?_double (by simp) table)
      (readUntil?_double hclosed name), hms X hX']

end ReadsBefore

/-- A piece whose reading ends in code reads by itself. -/
theorem readsBefore_of_after {p : List Char} (h : Place.after .code following p = .code) :
    ReadsBefore following p := by
  -- on the length of the piece, since a whole stretch is taken off at once
  induction hlength : p.length using Nat.strongRecOn generalizing p with
  | ind n ih =>
  have hrec : ∀ rest : List Char, rest.length < p.length →
      Place.after .code following rest = .code → ReadsBefore following rest :=
    fun rest hless hrest => ih rest.length (by omega) hrest rfl
  -- what is left behind a mark, some text and its closing mark
  have hshorter : ∀ (c d : Char) (text rest : List Char),
      rest.length < (c :: (text ++ d :: rest)).length := by
    intro c d text rest
    simp only [List.length_cons, List.length_append]
    omega
  cases p with
  | nil => exact .nil
  | cons c p =>
      rcases step_code_cases c (p.head?.or following) with rfl | rfl | rfl | ⟨hplain, hstep⟩
      · obtain ⟨table, rest, rfl, hnext, hrest⟩ := Place.exists_double_of_after h
        by_cases hbracket : rest.head? = some '['
        · obtain ⟨rest, rfl⟩ := List.head?_eq_some_iff.mp hbracket
          obtain ⟨name, rest, rfl, hnext', hrest⟩ := Place.exists_double_of_after hrest
          exact .qualified (hrec rest
            (Nat.lt_trans (hshorter _ _ _ _) (hshorter _ _ _ _)) hrest) hnext'
        · exact .table (hrec rest (hshorter _ _ _ _) hrest) hnext hbracket
      · obtain ⟨name, rest, rfl, hnext, hrest⟩ := Place.exists_double_of_after h
        exact .bracketed (hrec rest (hshorter _ _ _ _) hrest) hnext
      · obtain ⟨text, rest, rfl, hnext, hrest⟩ := Place.exists_double_of_after h
        have hliteral := ReadsBefore.literal text (hrec rest (hshorter _ _ _ _) hrest) hnext
        rwa [Formula.literal, List.cons_append, List.append_assoc] at hliteral
      · rw [Place.after] at h
        rcases hstep with hstep | ⟨place, hplace, hstep⟩
        · rw [hstep] at h
          exact .plain (hrec p (Nat.lt_succ_self _) h) hplain hstep
        · rw [hstep] at h
          obtain ⟨text, rest, rfl, hrest, hroles⟩ := exists_roles_of_inComment hplace h
          have hcomment : roles .code following (c :: (text ++ rest)) =
              (c :: text).map (.comment, ·) ++ roles .code following rest := by
            rw [roles, hstep]
            exact congrArg ((Role.comment, c) :: ·) hroles
          have hbehind : rest.length < (c :: (text ++ rest)).length := by
            rw [List.length_cons, List.length_append]
            omega
          exact .comment (c :: text) (hrec rest hbehind hrest) hcomment

/-- A text that neither goes on a name in front of it nor gives a table a name. -/
structure StandsApart (X : List Char) : Prop where
  quote : X.head? ≠ some '\''
  bracket : X.head? ≠ some '['
  closing : X.head? ≠ some ']'

theorem StandsApart.standsBehind {X : List Char} (h : StandsApart X) (p : List Char) :
    StandsBehind p X := ⟨h.quote, h.closing, fun _ => h.bracket⟩

/-- A piece of a formula reads alone when what it mentions, and the code it leaves in
front of what follows, is the same whatever follows. -/
def ReadsAlone (following : Option Char) (p : List Char) : Prop :=
  ∀ lead, ∃ ms lead', ∀ X, StandsApart X →
    mentionsAfter lead (codeOf (roles .code following p) ++ X) =
      ms ++ mentionsAfter lead' X

theorem readsAlone_of_after {p : List Char} (h : Place.after .code following p = .code) :
    ReadsAlone following p := by
  intro lead
  obtain ⟨ms, lead', -, hms⟩ := readsBefore_of_after h lead
  exact ⟨ms, lead', fun X hX => hms X (hX.standsBehind p)⟩

end Tabular.Formula
