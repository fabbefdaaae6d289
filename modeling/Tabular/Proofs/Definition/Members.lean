import Tabular.Catalog.OfDefinition

/-!
# Which declarations count

A declaration counts when it stands at the top of a document, or inside a model there, at
any depth of models. Collecting them walks into models alone. The walk through all
declarations from top to bottom, each with the kinds of those it stands in, gives the same
list: of these the ones count that stand in models only.
-/

namespace Tabular.Definition

namespace Node

mutual

/-- A declaration and all those inside it, from top to bottom, each with the kinds of the
declarations it stands in. -/
def located (around : List Kind) : Node → List (List Kind × Node)
  | mk kind name line properties children =>
      (around, mk kind name line properties children) :: locatedAll (kind :: around) children

/-- `located` for each declaration of a list. -/
def locatedAll (around : List Kind) : List Node → List (List Kind × Node)
  | [] => []
  | n :: rest => located around n ++ locatedAll around rest

end

mutual

/-- No declaration is left out and none is listed twice. -/
theorem map_snd_located (around : List Kind) :
    (n : Node) → (located around n).map (·.2) = n.preorder
  | mk kind name line properties children => by
      rw [located, preorder, List.map_cons, map_snd_locatedAll]

theorem map_snd_locatedAll (around : List Kind) :
    (ns : List Node) → (locatedAll around ns).map (·.2) = preorderAll ns
  | [] => rfl
  | n :: rest => by
      rw [locatedAll, preorderAll, List.map_append, map_snd_located around n,
        map_snd_locatedAll around rest]

end

mutual

/-- What stands inside a declaration stands in all that the declaration stands in. -/
theorem suffix_of_mem_located {around : List Kind} {p : List Kind × Node} :
    (n : Node) → p ∈ located around n → around <:+ p.1
  | mk kind name line properties children => by
      intro h
      rw [located] at h
      rcases List.mem_cons.mp h with rfl | h
      · exact List.suffix_rfl
      · exact (List.suffix_cons kind around).trans (suffix_of_mem_locatedAll children h)

theorem suffix_of_mem_locatedAll {around : List Kind} {p : List Kind × Node} :
    (ns : List Node) → p ∈ locatedAll around ns → around <:+ p.1
  | [] => fun h => absurd h List.not_mem_nil
  | n :: rest => by
      intro h
      rw [locatedAll] at h
      rcases List.mem_append.mp h with h | h
      · exact suffix_of_mem_located n h
      · exact suffix_of_mem_locatedAll rest h

end

/-- Whether a declaration has a kind and stands in models only. -/
def countsAs (kind : Kind) (p : List Kind × Node) : Bool :=
  p.1.all (· == .model) && p.2.kind == kind

/-- The declarations of a kind that count, in the order of the documents. -/
def counted (kind : Kind) (documents : List Node) : List Node :=
  ((locatedAll [] (documents.flatMap (·.children))).filter (countsAs kind)).map (·.2)

variable {kind : Kind} {around : List Kind}

/-- Inside a declaration that is no model, none counts. -/
theorem filter_locatedAll_of_not_all (h : around.all (· == .model) = false) (ns : List Node) :
    (locatedAll around ns).filter (countsAs kind) = [] := by
  rw [List.filter_eq_nil_iff]
  intro p hp hcounts
  rw [countsAs, Bool.and_eq_true, List.all_eq_true] at hcounts
  have hall : around.all (· == .model) = true := by
    rw [List.all_eq_true]
    exact fun k hk => hcounts.1 k ((suffix_of_mem_locatedAll ns hp).subset hk)
  rw [h] at hall
  exact Bool.false_ne_true hall

mutual

theorem filter_members (hkind : kind ≠ .model) :
    (around : List Kind) → around.all (· == .model) = true → (n : Node) →
      n.members.filter (·.kind == kind) =
        ((located around n).filter (countsAs kind)).map (·.2)
  | around, haround, mk own name line properties children => by
      have hself : countsAs kind (around, mk own name line properties children) =
          (own == kind) := by
        rw [countsAs, haround]
        rfl
      rw [members, located, List.filter_cons, hself]
      by_cases hmodel : own = .model
      · -- a model stands for what is in it, and does not count itself
        have hinside : (own :: around).all (· == .model) = true := by
          rw [List.all_cons, haround, hmodel]
          rfl
        have hown : (own == kind) = false := by
          rw [hmodel]
          exact beq_eq_false_iff_ne.mpr hkind.symm
        rw [if_pos hmodel, hown, if_neg Bool.false_ne_true]
        exact filter_membersAll hkind _ hinside children
      · have hinside : (own :: around).all (· == .model) = false := by
          rw [List.all_cons, beq_eq_false_iff_ne.mpr hmodel, Bool.false_and]
        have hkept : (mk own name line properties children).kind = own := rfl
        rw [if_neg hmodel, List.filter_cons, hkept, filter_locatedAll_of_not_all hinside]
        cases own == kind with
        | true => rfl
        | false => rfl

theorem filter_membersAll (hkind : kind ≠ .model) :
    (around : List Kind) → around.all (· == .model) = true → (ns : List Node) →
      (membersAll ns).filter (·.kind == kind) =
        ((locatedAll around ns).filter (countsAs kind)).map (·.2)
  | _, _, [] => rfl
  | around, haround, n :: rest => by
      rw [membersAll, locatedAll, List.filter_append, List.filter_append, List.map_append,
        filter_members hkind around haround n, filter_membersAll hkind around haround rest]

end

/-- What is collected for a catalog are the declarations that count. -/
theorem filter_membersAll_eq_counted (hkind : kind ≠ .model) (documents : List Node) :
    (membersAll (documents.flatMap (·.children))).filter (·.kind == kind) =
      counted kind documents :=
  filter_membersAll hkind [] rfl _

end Node

end Tabular.Definition
