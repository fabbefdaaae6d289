import Tabular.Proofs.Definition.Collected

/-!
# The tree of entries from the front

The tree is built from the last entry to the first. Seen from the front it is as simple: an
entry that declares takes the run of deeper entries right below it, which make a tree of
their own, and what is behind the run is read as if the run were not there. Taking a list
of entries apart in this way is an induction principle for everything that is said of the
tree.
-/

namespace Tabular.Definition

/-- The declarations that entries make. -/
def forest (es : List Entry) : List Node := Piece.nodes ((pieces es).map (·.2))

/-- The entries right below a depth that are deeper. -/
def runBelow (depth : Nat) (es : List Entry) : List Entry := es.takeWhile (depth < ·.depth)

/-- The entries behind those. -/
def behindRun (depth : Nat) (es : List Entry) : List Entry := es.dropWhile (depth < ·.depth)

theorem runBelow_append_behindRun (depth : Nat) (es : List Entry) :
    runBelow depth es ++ behindRun depth es = es := List.takeWhile_append_dropWhile

section Cut

variable {α : Type} {p q : α → Bool}

/-- Cutting at a weak test and then at a strong one is cutting at the strong one. -/
theorem takeWhile_takeWhile_of_imp (h : ∀ x, q x = true → p x = true) (xs : List α) :
    (xs.takeWhile p).takeWhile q = xs.takeWhile q := by
  induction xs with
  | nil => rfl
  | cons x rest ih =>
      by_cases hp : p x = true
      · simp only [List.takeWhile_cons, hp, if_true, ih]
      · have hq : ¬ q x = true := fun hq => hp (h x hq)
        simp only [List.takeWhile_cons, hp, hq, Bool.false_eq_true, if_false, List.takeWhile_nil]

theorem dropWhile_takeWhile_of_imp (h : ∀ x, q x = true → p x = true) (xs : List α) :
    (xs.takeWhile p).dropWhile q = (xs.dropWhile q).takeWhile p := by
  induction xs with
  | nil => rfl
  | cons x rest ih =>
      by_cases hq : q x = true
      · simp only [List.takeWhile_cons, List.dropWhile_cons, h x hq, hq, if_true, ih]
      · by_cases hp : p x = true
        · simp only [List.takeWhile_cons, List.dropWhile_cons, hp, hq, if_true, Bool.false_eq_true,
            if_false]
        · simp only [List.takeWhile_cons, List.dropWhile_cons, hp, hq, Bool.false_eq_true,
            if_false, List.dropWhile_nil]

theorem dropWhile_dropWhile_of_imp (h : ∀ x, q x = true → p x = true) (xs : List α) :
    (xs.dropWhile q).dropWhile p = xs.dropWhile p := by
  induction xs with
  | nil => rfl
  | cons x rest ih =>
      by_cases hq : q x = true
      · simp only [List.dropWhile_cons, h x hq, hq, if_true, ih]
      · simp only [List.dropWhile_cons, hq, Bool.false_eq_true, if_false]

end Cut

/-- An entry that declares nothing takes nothing in, and is no declaration itself. -/
theorem exists_addEntry_of_not_declares {e : Entry} (h : e.declares = false) :
    ∃ piece, Piece.nodes [piece] = [] ∧ ∀ below, addEntry e below = (e.depth, piece) :: below := by
  obtain ⟨line, depth, item⟩ := e
  cases item with
  | declaration kind name description value => cases h
  | property key value => exact ⟨.property key value, rfl, fun _ => rfl⟩
  | nameless kind => exact ⟨.nothing, rfl, fun _ => rfl⟩
  | unrecognized content => exact ⟨.nothing, rfl, fun _ => rfl⟩
  | nothing => exact ⟨.nothing, rfl, fun _ => rfl⟩

/-- An entry that declares takes in the run of deeper pieces. -/
theorem exists_addEntry_of_declares {e : Entry} (h : e.declares = true) :
    ∃ kind name, ∃ bag : List (Nat × Piece) → PropertyBag, ∀ below, addEntry e below =
      (e.depth, .node (.mk kind name e.line (bag (below.takeWhile (e.depth < ·.1)))
        (Piece.nodes ((below.takeWhile (e.depth < ·.1)).map (·.2)))))
      :: below.dropWhile (e.depth < ·.1) := by
  obtain ⟨line, depth, item⟩ := e
  cases item with
  | declaration kind name description value =>
      exact ⟨kind, name, fun inside => PropertyBag.ofList
        (ownProperties kind description value ++ Piece.properties (inside.map (·.2))),
        fun _ => rfl⟩
  | property key value => cases h
  | nameless kind => cases h
  | unrecognized content => cases h
  | nothing => cases h

/-- The pieces of a run of deeper entries are the run of deeper pieces. -/
theorem pieces_cut (depth : Nat) (es : List Entry) :
    (pieces es).takeWhile (depth < ·.1) = pieces (runBelow depth es)
      ∧ (pieces es).dropWhile (depth < ·.1) = pieces (behindRun depth es) := by
  induction es with
  | nil => exact ⟨rfl, rfl⟩
  | cons e rest ih =>
      obtain ⟨ihtake, ihdrop⟩ := ih
      have hpieces : ∀ es, pieces (e :: es) = addEntry e (pieces es) := fun _ => rfl
      rw [runBelow, behindRun, List.takeWhile_cons, List.dropWhile_cons]
      by_cases hdeep : depth < e.depth
      · simp only [hdeep, decide_true, if_true, hpieces]
        show _ = addEntry e (pieces (runBelow depth rest)) ∧ _ = pieces (behindRun depth rest)
        rw [← ihtake, ← ihdrop]
        cases hdeclares : e.declares with
        | false =>
            obtain ⟨piece, -, hadd⟩ := exists_addEntry_of_not_declares hdeclares
            simp only [hadd, List.takeWhile_cons, List.dropWhile_cons, hdeep, decide_true,
              if_true, and_self]
        | true =>
            -- what is deeper than the entry is deeper than the cut
            have himp : ∀ x : Nat × Piece, decide (e.depth < x.1) = true →
                decide (depth < x.1) = true := by
              intro x hx
              have := of_decide_eq_true hx
              exact decide_eq_true (by omega)
            obtain ⟨kind, name, bag, hadd⟩ := exists_addEntry_of_declares hdeclares
            simp only [hadd, List.takeWhile_cons, List.dropWhile_cons, hdeep, decide_true,
              if_true, takeWhile_takeWhile_of_imp himp, dropWhile_takeWhile_of_imp himp,
              dropWhile_dropWhile_of_imp himp, and_self]
      · have hhead : ∃ piece below, addEntry e (pieces rest) = (e.depth, piece) :: below := by
          cases hdeclares : e.declares with
          | false =>
              obtain ⟨piece, -, hadd⟩ := exists_addEntry_of_not_declares hdeclares
              exact ⟨_, _, hadd _⟩
          | true =>
              obtain ⟨kind, name, bag, hadd⟩ := exists_addEntry_of_declares hdeclares
              exact ⟨_, _, hadd _⟩
        obtain ⟨piece, below, hadd⟩ := hhead
        simp only [hdeep, decide_false, Bool.false_eq_true, if_false, hpieces, hadd,
          List.takeWhile_cons, List.dropWhile_cons]
        exact ⟨rfl, trivial⟩

theorem forest_skip {e : Entry} (h : e.declares = false) (es : List Entry) :
    forest (e :: es) = forest es := by
  obtain ⟨piece, hnone, hadd⟩ := exists_addEntry_of_not_declares h
  have hpieces : pieces (e :: es) = (e.depth, piece) :: pieces es := hadd (pieces es)
  rw [forest, hpieces, List.map_cons, ← List.singleton_append, Piece.nodes,
    List.filterMap_append]
  exact congrArg (· ++ forest es) hnone

/-- A declaration holds the declarations of the run below it. -/
theorem exists_forest_of_declares {e : Entry} (h : e.declares = true) (es : List Entry) :
    ∃ kind name bag, forest (e :: es) =
      .mk kind name e.line bag (forest (runBelow e.depth es)) :: forest (behindRun e.depth es) := by
  obtain ⟨kind, name, bag, hadd⟩ := exists_addEntry_of_declares h
  obtain ⟨htake, hdrop⟩ := pieces_cut e.depth es
  have hpieces : pieces (e :: es) = addEntry e (pieces es) := rfl
  rw [hadd, htake, hdrop] at hpieces
  exact ⟨kind, name, _, by rw [forest, hpieces]; rfl⟩

theorem forest_cut (depth : Nat) (es : List Entry) :
    forest es = forest (runBelow depth es) ++ forest (behindRun depth es) := by
  obtain ⟨htake, hdrop⟩ := pieces_cut depth es
  have hpieces : pieces es = pieces (runBelow depth es) ++ pieces (behindRun depth es) := by
    rw [← htake, ← hdrop, List.takeWhile_append_dropWhile]
  rw [forest, hpieces, List.map_append, Piece.nodes, List.filterMap_append]
  rfl

theorem preorderAll_append (ns ns' : List Node) :
    Node.preorderAll (ns ++ ns') = Node.preorderAll ns ++ Node.preorderAll ns' := by
  induction ns with
  | nil => rfl
  | cons n rest ih =>
      rw [List.cons_append, Node.preorderAll, Node.preorderAll, ih, List.append_assoc]

/-- What entries in front take in, they keep. -/
theorem mem_preorderAll_forest_append {n : Node} {es' : List Entry}
    (h : n ∈ Node.preorderAll (forest es')) (es : List Entry) :
    n ∈ Node.preorderAll (forest (es ++ es')) := by
  induction es with
  | nil => exact h
  | cons e rest ih =>
      rw [List.cons_append]
      cases hdeclares : e.declares with
      | false =>
          rw [forest_skip hdeclares]
          exact ih
      | true =>
          obtain ⟨kind, name, bag, hforest⟩ := exists_forest_of_declares hdeclares (rest ++ es')
          rw [forest_cut e.depth, preorderAll_append] at ih
          rw [hforest, Node.preorderAll, Node.preorder, List.cons_append]
          exact List.mem_cons_of_mem _ ih

/-- To show something of all lists of entries, take them apart as the tree does. -/
theorem entriesInduction {motive : List Entry → Prop} (nil : motive [])
    (skip : ∀ e es, e.declares = false → motive es → motive (e :: es))
    (declaration : ∀ e es, e.declares = true → motive (runBelow e.depth es) →
      motive (behindRun e.depth es) → motive (e :: es)) (es : List Entry) : motive es := by
  induction hlength : es.length using Nat.strongRecOn generalizing es with
  | _ n ih =>
      subst hlength
      cases es with
      | nil => exact nil
      | cons e rest =>
          have hlength : (runBelow e.depth rest).length + (behindRun e.depth rest).length =
              rest.length := by
            rw [← List.length_append, runBelow_append_behindRun]
          cases hdeclares : e.declares with
          | false => exact skip e rest hdeclares (ih _ (Nat.lt_succ_self _) rest rfl)
          | true =>
              refine declaration e rest hdeclares (ih _ ?_ _ rfl) (ih _ ?_ _ rfl)
              · rw [List.length_cons]
                omega
              · rw [List.length_cons]
                omega

end Tabular.Definition
