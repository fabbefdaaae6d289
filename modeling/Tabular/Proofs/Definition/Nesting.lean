import Mathlib.Data.List.TakeWhile
import Tabular.Proofs.Definition.Forest

/-!
# How declarations nest

A line encloses one further down that is deeper, as long as no line that counts between the
two is as shallow as itself. Several declarations may enclose a line, and the nearest of
them holds it; the document holds what no declaration encloses.

The proof takes the entries apart as the tree does. A declaration encloses all of the run
below it. Nothing of the declaration and its run encloses anything behind the run, because
the first entry there is as shallow as the declaration. So whether one line encloses another
can be asked of the run alone and of what is behind it alone.
-/

namespace Tabular.Definition

/-! ## What encloses a line -/

/-- A line encloses one further down that is deeper, as long as no line that counts between
the two is as shallow as itself. -/
def Encloses (depth : Nat → Nat) (counts : Nat → Prop) (outer inner : Nat) : Prop :=
  outer < inner ∧ depth outer < depth inner
    ∧ ∀ j, counts j → outer < j → j < inner → depth outer < depth j

section Encloses

variable {depth : Nat → Nat} {counts part : Nat → Prop} {outer inner : Nat}

theorem Encloses.of_imp (h : Encloses depth counts outer inner)
    (himp : ∀ j, part j → outer < j → j < inner → counts j) :
    Encloses depth part outer inner :=
  ⟨h.1, h.2.1, fun j hj hlow hhigh => h.2.2 j (himp j hj hlow hhigh) hlow hhigh⟩

end Encloses

/-- Whether some entry stands on a line. -/
def OnLine (es : List Entry) (number : Nat) : Prop := ∃ e ∈ es, e.line = number

/-- The nodes are the declarations of the entries, each inside the nearest one that
encloses it. -/
structure NestedIn (depth : Nat → Nat) (es : List Entry) (ns : List Node) : Prop where
  lines : (Node.preorderAll ns).map Node.line = (es.filter Entry.declares).map Entry.line
  outermost : ∀ c ∈ ns, ∀ q ∈ es, q.declares = true →
    ¬ Encloses depth (OnLine es) q.line c.line
  encloses : ∀ p ∈ Node.preorderAll ns, ∀ c ∈ p.children,
    Encloses depth (OnLine es) p.line c.line
  nearest : ∀ p ∈ Node.preorderAll ns, ∀ c ∈ p.children, ∀ q ∈ es, q.declares = true →
    Encloses depth (OnLine es) q.line c.line → q.line ≤ p.line

namespace Node

theorem mem_preorder_self (n : Node) : n ∈ n.preorder := by
  obtain ⟨kind, name, line, properties, children⟩ := n
  rw [preorder]
  exact List.mem_cons_self

theorem mem_preorderAll_of_mem {n : Node} {ns : List Node} (h : n ∈ ns) :
    n ∈ preorderAll ns := by
  induction ns with
  | nil => cases h
  | cons m rest ih =>
      rw [preorderAll]
      rcases List.mem_cons.mp h with rfl | h
      · exact List.mem_append_left _ (mem_preorder_self n)
      · exact List.mem_append_right _ (ih h)

mutual

theorem mem_preorder_of_mem_children {p c : Node} (hc : c ∈ p.children) :
    (n : Node) → p ∈ n.preorder → c ∈ n.preorder
  | mk kind name line properties children => by
      intro hp
      rw [preorder] at hp ⊢
      rcases List.mem_cons.mp hp with rfl | hp
      · exact List.mem_cons_of_mem _ (mem_preorderAll_of_mem hc)
      · exact List.mem_cons_of_mem _ (mem_preorderAll_of_mem_children hc children hp)

theorem mem_preorderAll_of_mem_children {p c : Node} (hc : c ∈ p.children) :
    (ns : List Node) → p ∈ preorderAll ns → c ∈ preorderAll ns
  | [] => fun hp => absurd hp List.not_mem_nil
  | n :: rest => by
      intro hp
      rw [preorderAll] at hp ⊢
      rcases List.mem_append.mp hp with hp | hp
      · exact List.mem_append_left _ (mem_preorder_of_mem_children hc n hp)
      · exact List.mem_append_right _ (mem_preorderAll_of_mem_children hc rest hp)

end

end Node

namespace NestedIn

variable {depth : Nat → Nat} {es : List Entry} {ns : List Node}

/-- A node stands on the line of an entry that declares. -/
theorem exists_entry (h : NestedIn depth es ns) {n : Node} (hn : n ∈ Node.preorderAll ns) :
    ∃ e ∈ es, e.declares = true ∧ e.line = n.line := by
  have hmem : n.line ∈ (es.filter Entry.declares).map Entry.line := by
    rw [← h.lines]
    exact List.mem_map_of_mem hn
  obtain ⟨e, he, hline⟩ := List.mem_map.mp hmem
  obtain ⟨hes, hdeclares⟩ := List.mem_filter.mp he
  exact ⟨e, hes, hdeclares, hline⟩

theorem nil (depth : Nat → Nat) : NestedIn depth [] [] where
  lines := rfl
  outermost := nofun
  encloses := nofun
  nearest := nofun

/-- An entry in front that declares nothing changes nothing. -/
theorem skip {e : Entry} (hbefore : ∀ x ∈ es, e.line < x.line) (hnot : e.declares = false)
    (h : NestedIn depth es ns) : NestedIn depth (e :: es) ns := by
  have hsub : ∀ j, OnLine es j → OnLine (e :: es) j := by
    intro j hj
    obtain ⟨x, hx, hline⟩ := hj
    exact ⟨x, List.mem_cons_of_mem e hx, hline⟩
  have hdeclared : ∀ q ∈ e :: es, q.declares = true → q ∈ es := by
    intro q hq hdeclares
    rcases List.mem_cons.mp hq with rfl | hq
    · rw [hnot] at hdeclares
      cases hdeclares
    · exact hq
  refine ⟨?_, ?_, ?_, ?_⟩
  · rw [List.filter_cons, hnot]
    exact h.lines
  · intro c hc q hq hdeclares hencloses
    exact h.outermost c hc q (hdeclared q hq hdeclares) hdeclares
      (hencloses.of_imp fun j hj _ _ => hsub j hj)
  · intro p hp c hc
    obtain ⟨x, hx, -, hline⟩ := h.exists_entry hp
    refine (h.encloses p hp c hc).of_imp fun j hj hlow _ => ?_
    obtain ⟨y, hy, rfl⟩ := hj
    rcases List.mem_cons.mp hy with rfl | hy
    · have := hbefore x hx
      omega
    · exact ⟨y, hy, rfl⟩
  · intro p hp c hc q hq hdeclares hencloses
    exact h.nearest p hp c hc q (hdeclared q hq hdeclares) hdeclares
      (hencloses.of_imp fun j hj _ _ => hsub j hj)

end NestedIn

/-! ## One declaration, its run, and what is behind -/

/-- A declaration with the run of deeper entries below it, and what is behind the run. -/
structure Cut (depth : Nat → Nat) (e : Entry) (run behind : List Entry) : Prop where
  depths : ∀ x ∈ e :: (run ++ behind), depth x.line = x.depth
  sorted : (e :: (run ++ behind)).Pairwise fun x y => x.line < y.line
  deeper : ∀ x ∈ run, e.depth < x.depth
  stops : ∀ x ∈ behind.head?, x.depth ≤ e.depth

namespace Cut

variable {depth : Nat → Nat} {e : Entry} {run behind : List Entry} {j k : Nat}

theorem lt_of_mem (h : Cut depth e run behind) {x : Entry} (hx : x ∈ run ++ behind) :
    e.line < x.line := List.rel_of_pairwise_cons h.sorted hx

theorem run_lt_behind (h : Cut depth e run behind) {x y : Entry} (hx : x ∈ run)
    (hy : y ∈ behind) : x.line < y.line :=
  (List.pairwise_append.mp (List.pairwise_cons.mp h.sorted).2).2.2 x hx y hy

theorem onLine_cases (h : Cut depth e run behind) (hj : OnLine (e :: (run ++ behind)) j) :
    j = e.line ∨ OnLine run j ∧ e.line < j
      ∨ OnLine behind j ∧ e.line < j ∧ ∀ x ∈ run, x.line < j := by
  obtain ⟨x, hx, rfl⟩ := hj
  rcases List.mem_cons.mp hx with rfl | hx
  · exact Or.inl rfl
  · have hlt := h.lt_of_mem hx
    rcases List.mem_append.mp hx with hx | hx
    · exact Or.inr (Or.inl ⟨⟨x, hx, rfl⟩, hlt⟩)
    · exact Or.inr (Or.inr ⟨⟨x, hx, rfl⟩, hlt, fun y hy => h.run_lt_behind hy hx⟩)

theorem onLine_of_run (hj : OnLine run j) : OnLine (e :: (run ++ behind)) j := by
  obtain ⟨x, hx, hline⟩ := hj
  exact ⟨x, List.mem_cons_of_mem e (List.mem_append_left _ hx), hline⟩

theorem onLine_of_behind (hj : OnLine behind j) : OnLine (e :: (run ++ behind)) j := by
  obtain ⟨x, hx, hline⟩ := hj
  exact ⟨x, List.mem_cons_of_mem e (List.mem_append_right _ hx), hline⟩

/-- What encloses inside the run encloses in the whole, and the other way round. -/
theorem encloses_run_iff (h : Cut depth e run behind) (hj : OnLine run j) (hk : OnLine run k) :
    Encloses depth (OnLine (e :: (run ++ behind))) j k ↔ Encloses depth (OnLine run) j k := by
  obtain ⟨x, hx, rfl⟩ := hj
  obtain ⟨y, hy, rfl⟩ := hk
  have hbefore := h.lt_of_mem (List.mem_append_left _ hx)
  refine ⟨fun hwhole => hwhole.of_imp fun i hi _ _ => onLine_of_run hi, fun hrun => ?_⟩
  refine hrun.of_imp fun i hi hlow hhigh => ?_
  rcases h.onLine_cases hi with rfl | ⟨hi, -⟩ | ⟨-, -, hi⟩
  · omega
  · exact hi
  · have := hi y hy
    omega

/-- The same for what is behind the run. -/
theorem encloses_behind_iff (h : Cut depth e run behind) (hj : OnLine behind j) :
    Encloses depth (OnLine (e :: (run ++ behind))) j k ↔ Encloses depth (OnLine behind) j k := by
  obtain ⟨x, hx, rfl⟩ := hj
  have hbefore := h.lt_of_mem (List.mem_append_right _ hx)
  refine ⟨fun hwhole => hwhole.of_imp fun i hi _ _ => onLine_of_behind hi, fun hbehind => ?_⟩
  refine hbehind.of_imp fun i hi hlow _ => ?_
  rcases h.onLine_cases hi with rfl | ⟨⟨y, hy, rfl⟩, -⟩ | ⟨hi, -⟩
  · omega
  · have := h.run_lt_behind hy hx
    omega
  · exact hi

/-- A declaration encloses all of its run. -/
theorem encloses_of_mem_run (h : Cut depth e run behind) {y : Entry} (hy : y ∈ run) :
    Encloses depth (OnLine (e :: (run ++ behind))) e.line y.line := by
  have hdeeper : ∀ x ∈ run, depth e.line < depth x.line := by
    intro x hx
    rw [h.depths e List.mem_cons_self,
      h.depths x (List.mem_cons_of_mem e (List.mem_append_left _ hx))]
    exact h.deeper x hx
  refine ⟨h.lt_of_mem (List.mem_append_left _ hy), hdeeper y hy, fun j hj hlow hhigh => ?_⟩
  rcases h.onLine_cases hj with rfl | ⟨⟨x, hx, rfl⟩, -⟩ | ⟨-, -, hj⟩
  · omega
  · exact hdeeper x hx
  · have := hj y hy
    omega

/-- Nothing of a declaration and its run encloses what is behind the run. -/
theorem not_encloses_behind (h : Cut depth e run behind) {q c : Entry} (hq : q ∈ e :: run)
    (hc : c ∈ behind) :
    ¬ Encloses depth (OnLine (e :: (run ++ behind))) q.line c.line := by
  intro hencloses
  cases behind with
  | nil => cases hc
  | cons first rest =>
      have hfirst : first ∈ e :: (run ++ first :: rest) := by simp
      have hmem : q ∈ e :: (run ++ first :: rest) :=
        (List.mem_append_left (first :: rest) hq : q ∈ (e :: run) ++ first :: rest)
      -- the first entry behind the run is no deeper than anything in front of it
      have hshallow : first.depth ≤ q.depth := by
        have hle := h.stops first rfl
        rcases List.mem_cons.mp hq with rfl | hq
        · exact hle
        · have := h.deeper q hq
          omega
      -- it is what is enclosed, or it stands between and counts
      have hdeep : depth q.line < depth first.line := by
        rcases List.mem_cons.mp hc with rfl | hc
        · exact hencloses.2.1
        · have hsorted : ((e :: run) ++ first :: rest).Pairwise fun x y => x.line < y.line :=
            h.sorted
          obtain ⟨-, hrest, hapart⟩ := List.pairwise_append.mp hsorted
          exact hencloses.2.2 first.line ⟨first, hfirst, rfl⟩ (hapart q hq first List.mem_cons_self)
            (List.rel_of_pairwise_cons hrest hc)
      rw [h.depths q hmem, h.depths first hfirst] at hdeep
      omega

section Nested

variable {inside after : List Node} (h : Cut depth e run behind)
  (hinside : NestedIn depth run inside) (hafter : NestedIn depth behind after)

include h hafter in
theorem outermost {n c : Node} (hn : n.line = e.line) (hc : c ∈ n :: after) {q : Entry}
    (hq : q ∈ e :: (run ++ behind)) (hdeclares : q.declares = true) :
    ¬ Encloses depth (OnLine (e :: (run ++ behind))) q.line c.line := by
  intro hencloses
  rcases List.mem_cons.mp hc with rfl | hc
  · have hlt := hencloses.1
    rcases List.mem_cons.mp hq with rfl | hq
    · omega
    · have := h.lt_of_mem hq
      omega
  · obtain ⟨y, hy, -, hline⟩ := hafter.exists_entry (Node.mem_preorderAll_of_mem hc)
    rcases List.mem_append.mp (show q ∈ (e :: run) ++ behind from hq) with hq | hq
    · rw [← hline] at hencloses
      exact h.not_encloses_behind hq hy hencloses
    · exact hafter.outermost c hc q hq hdeclares
        ((h.encloses_behind_iff ⟨q, hq, rfl⟩).mp hencloses)

include h hinside in
/-- In the tree of the run, what encloses a child is no further down than its parent. -/
theorem nearest_run {p c : Node} (hp : p ∈ Node.preorderAll inside) (hc : c ∈ p.children)
    {q : Entry} (hq : q ∈ e :: (run ++ behind)) (hdeclares : q.declares = true)
    (hencloses : Encloses depth (OnLine (e :: (run ++ behind))) q.line c.line) :
    q.line ≤ p.line := by
  obtain ⟨x, hx, -, hpline⟩ := hinside.exists_entry hp
  obtain ⟨y, hy, -, hcline⟩ := hinside.exists_entry
    (Node.mem_preorderAll_of_mem_children hc inside hp)
  rcases List.mem_cons.mp hq with rfl | hq
  · have := h.lt_of_mem (List.mem_append_left _ hx)
    omega
  · rcases List.mem_append.mp hq with hq | hq
    · exact hinside.nearest p hp c hc q hq hdeclares
        ((h.encloses_run_iff ⟨q, hq, rfl⟩ ⟨y, hy, hcline⟩).mp hencloses)
    · have := h.run_lt_behind hy hq
      have := hencloses.1
      omega

include h hinside in
/-- What encloses a child of the declaration is no further down than the declaration. -/
theorem nearest_self {c : Node} (hc : c ∈ inside) {q : Entry} (hq : q ∈ e :: (run ++ behind))
    (hdeclares : q.declares = true)
    (hencloses : Encloses depth (OnLine (e :: (run ++ behind))) q.line c.line) :
    q.line ≤ e.line := by
  obtain ⟨y, hy, -, hcline⟩ := hinside.exists_entry (Node.mem_preorderAll_of_mem hc)
  rcases List.mem_cons.mp hq with rfl | hq
  · exact Nat.le_refl _
  · rcases List.mem_append.mp hq with hq | hq
    · exact absurd ((h.encloses_run_iff ⟨q, hq, rfl⟩ ⟨y, hy, hcline⟩).mp hencloses)
        (hinside.outermost c hc q hq hdeclares)
    · have := h.run_lt_behind hy hq
      have := hencloses.1
      omega

include h hinside hafter in
/-- A declaration with the tree of its run inside, in front of the tree of what is behind. -/
theorem nestedIn (hdeclares : e.declares = true) (kind : Kind) (name : String)
    (bag : PropertyBag) :
    NestedIn depth (e :: (run ++ behind)) (.mk kind name e.line bag inside :: after) := by
  have hpreorder : Node.preorderAll (.mk kind name e.line bag inside :: after) =
      .mk kind name e.line bag inside :: (Node.preorderAll inside ++ Node.preorderAll after) := by
    rw [Node.preorderAll, Node.preorder, List.cons_append]
  refine ⟨?lines, fun c hc q hq => h.outermost hafter rfl hc hq, ?encloses, ?nearest⟩
  case lines =>
    rw [hpreorder, List.map_cons, List.map_append, hinside.lines, hafter.lines,
      List.filter_cons, if_pos hdeclares, List.map_cons, List.filter_append, List.map_append]
    rfl
  case encloses =>
    intro p hp c hc
    rw [hpreorder] at hp
    rcases List.mem_cons.mp hp with rfl | hp
    · obtain ⟨y, hy, -, hline⟩ := hinside.exists_entry (Node.mem_preorderAll_of_mem hc)
      rw [← hline]
      exact h.encloses_of_mem_run hy
    · rcases List.mem_append.mp hp with hp | hp
      · obtain ⟨x, hx, -, hpline⟩ := hinside.exists_entry hp
        obtain ⟨y, hy, -, hcline⟩ := hinside.exists_entry
          (Node.mem_preorderAll_of_mem_children hc inside hp)
        exact (h.encloses_run_iff ⟨x, hx, hpline⟩ ⟨y, hy, hcline⟩).mpr
          (hinside.encloses p hp c hc)
      · obtain ⟨x, hx, -, hpline⟩ := hafter.exists_entry hp
        exact (h.encloses_behind_iff ⟨x, hx, hpline⟩).mpr (hafter.encloses p hp c hc)
  case nearest =>
    intro p hp c hc q hq hq' hencloses
    rw [hpreorder] at hp
    -- the parent is the declaration itself, or stands in its run, or behind that
    rcases List.mem_cons.mp hp with rfl | hp
    · exact h.nearest_self hinside hc hq hq' hencloses
    · rcases List.mem_append.mp hp with hp | hp
      · exact h.nearest_run hinside hp hc hq hq' hencloses
      · obtain ⟨y, hy, -, hcline⟩ := hafter.exists_entry
          (Node.mem_preorderAll_of_mem_children hc after hp)
        rcases List.mem_append.mp (show q ∈ (e :: run) ++ behind from hq) with hq | hq
        · rw [← hcline] at hencloses
          exact absurd hencloses (h.not_encloses_behind hq hy)
        · exact hafter.nearest p hp c hc q hq hq'
            ((h.encloses_behind_iff ⟨q, hq, rfl⟩).mp hencloses)

end Nested

end Cut

/-- The run below a declaration and what is behind it are a cut. -/
theorem cut_runBelow {depth : Nat → Nat} {e : Entry} {es : List Entry}
    (hdepths : ∀ x ∈ e :: es, depth x.line = x.depth)
    (hsorted : (e :: es).Pairwise fun x y => x.line < y.line) :
    Cut depth e (runBelow e.depth es) (behindRun e.depth es) where
  depths := by rwa [runBelow_append_behindRun]
  sorted := by rwa [runBelow_append_behindRun]
  deeper x hx := of_decide_eq_true
    (List.mem_takeWhile_imp (p := fun y : Entry => decide (e.depth < y.depth)) hx)
  stops x hx := by
    have hnot := List.head?_dropWhile_not (fun y : Entry => decide (e.depth < y.depth)) es
    have hx' : (es.dropWhile fun y => decide (e.depth < y.depth)).head? = some x := hx
    rw [hx'] at hnot
    simpa using hnot

/-- The tree of entries on lines further and further down. -/
theorem nestedIn_forest {depth : Nat → Nat} (es : List Entry)
    (hdepths : ∀ x ∈ es, depth x.line = x.depth)
    (hsorted : es.Pairwise fun x y => x.line < y.line) : NestedIn depth es (forest es) := by
  induction es using entriesInduction with
  | nil => exact NestedIn.nil depth
  | skip e es hdeclares ih =>
      obtain ⟨hbefore, hrest⟩ := List.pairwise_cons.mp hsorted
      rw [forest_skip hdeclares]
      exact (ih (fun x hx => hdepths x (List.mem_cons_of_mem e hx)) hrest).skip hbefore hdeclares
  | declaration e es hdeclares ihrun ihbehind =>
      have hcut := cut_runBelow hdepths hsorted
      obtain ⟨-, hrest⟩ := List.pairwise_cons.mp hcut.sorted
      obtain ⟨hrunSorted, hbehindSorted, -⟩ := List.pairwise_append.mp hrest
      have hrun := ihrun (fun x hx =>
        hcut.depths x (List.mem_cons_of_mem e (List.mem_append_left _ hx))) hrunSorted
      have hbehind := ihbehind (fun x hx =>
        hcut.depths x (List.mem_cons_of_mem e (List.mem_append_right _ hx))) hbehindSorted
      obtain ⟨kind, name, bag, hforest⟩ := exists_forest_of_declares hdeclares es
      have hnested := hcut.nestedIn hrun hbehind hdeclares kind name bag
      rw [runBelow_append_behindRun] at hnested
      rwa [hforest]

end Tabular.Definition
