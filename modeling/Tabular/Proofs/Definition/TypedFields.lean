import Mathlib.Data.List.Perm.Basic
import Tabular.Definition.Typed
import Tabular.Proofs.Definition.PropertyBag

/-!
# The fields of a declaration are its properties

A declaration is read field by field, and each field is taken out of a bag from which others
were taken before. Since no two fields go by the same word, none of them is found in the
place of another: each is what the bag holds under its key as it stands, in whatever order
the fields are taken, and the bag that is left holds all entries but the ones that were
found, in order.

The formula of a measure is looked for among the properties that do not describe the
measure. The fields of a measure describe it, so neither stands in the way of the other.
-/

namespace Tabular.Definition

open Text

namespace PropertyBag

/-- What is taken out of a bag under some keys, one after the other, and what is left. -/
def takeAll (b : PropertyBag) : List String → List (Option String) × PropertyBag
  | [] => ([], b)
  | key :: keys =>
      let (value, b) := b.take key
      let (values, b) := b.takeAll keys
      (value :: values, b)

/-- Some keys are taken out of a bag: what is left are its entries, in order, without those
that it has for the keys, and in any order the keys give what they are given by the whole
bag. -/
structure TakenFrom (b : PropertyBag) (keys : List String) (rest : PropertyBag) : Prop where
  entries : rest.entries = b.entries.diff (keys.filterMap b.find?)
  anyOrder : ∀ others, others.Perm keys → b.takeAll others = (others.map b.get?, rest)

/-- Whether no two keys are the same word. -/
abbrev WordsApart (keys : List String) : Prop :=
  keys.Pairwise fun a b => sameWord a b = false

theorem takeAll_eq {keys : List String} (h : WordsApart keys) (b : PropertyBag) :
    b.takeAll keys = (keys.map b.get?, ⟨b.entries.diff (keys.filterMap b.find?)⟩) := by
  induction keys generalizing b with
  | nil => rfl
  | cons key keys ih =>
      obtain ⟨hkey, hkeys⟩ := List.pairwise_cons.mp h
      have hother : ∀ other ∈ keys, sameWord other key = false := by
        intro other hmem
        rw [sameWord_comm]
        exact hkey other hmem
      -- without the first entry the other keys still find their own
      have hvalues : keys.map (b.erase key).get? = keys.map b.get? :=
        List.map_congr_left fun other hmem => get?_erase (hother other hmem)
      have hfound : keys.filterMap (b.erase key).find? = keys.filterMap b.find? :=
        List.filterMap_congr fun other hmem => find?_erase (hother other hmem)
      have hleft : (b.entries.diff (b.find? key).toList).diff (keys.filterMap b.find?) =
          b.entries.diff ((key :: keys).filterMap b.find?) := by
        rw [← List.diff_append]
        cases hfind : b.find? key with
        | none => rw [List.filterMap_cons_none hfind]; rfl
        | some e => rw [List.filterMap_cons_some hfind]; rfl
      rw [takeAll, take]
      simp only [ih hkeys, hvalues, hfound, entries_erase, hleft, List.map_cons]

theorem takenFrom_takeAll {keys : List String} (h : WordsApart keys) (b : PropertyBag) :
    TakenFrom b keys (b.takeAll keys).2 where
  entries := by rw [takeAll_eq h]
  anyOrder others hperm := by
    have hothers : WordsApart others :=
      hperm.symm.pairwise h fun {a b} hab => by rwa [sameWord_comm]
    rw [takeAll_eq hothers, takeAll_eq h, (hperm.filterMap b.find?).diff_left b.entries]

/-! ## The formula of a measure -/

theorem isDescribing_of_sameWord {a b : String} (h : sameWord a b = true)
    (hb : isDescribing b = true) : isDescribing a = true := by
  obtain ⟨key, hkey, hword⟩ := List.any_eq_true.mp hb
  refine List.any_eq_true.mpr ⟨key, hkey, ?_⟩
  rw [sameWord_iff] at h hword ⊢
  exact hword.trans h.symm

/-- The formula is found as well when properties that describe the measure were taken. -/
theorem formula?_erase {b : PropertyBag} {key : String} (h : isDescribing key = true) :
    (b.erase key).formula? = b.formula? := by
  have hexpression : sameWord "expression" key = false := by
    rw [← Bool.not_eq_true]
    intro hword
    exact absurd (isDescribing_of_sameWord hword h) (by decide)
  have hother : ∀ e : String × String, b.isEntry key e.1 = true →
      (!sameWord e.1 "expression" && !isDescribing e.1 && looksLikeFormula e.2) = false := by
    intro e he
    rw [isDescribing_of_sameWord (sameWord_of_isEntry he) h]
    simp
  rw [formula?, formula?, get?_erase hexpression, erase, find?_eraseFirst hother]

theorem formula?_takeAll {keys : List String} (h : ∀ key ∈ keys, isDescribing key = true)
    (b : PropertyBag) : (b.takeAll keys).2.formula? = b.formula? := by
  induction keys generalizing b with
  | nil => rfl
  | cons key keys ih =>
      rw [takeAll, take]
      exact (ih (fun other hmem => h other (List.mem_cons_of_mem _ hmem)) _).trans
        (formula?_erase (h key List.mem_cons_self))

/-- A formula is found under the key `expression`, or under one that describes nothing. -/
theorem formula?_cases {b : PropertyBag} {key value : String}
    (h : b.formula? = some (key, value)) :
    (key = "expression" ∧ b.get? key = some value)
      ∨ (isDescribing key = false ∧ (key, value) ∈ b.entries) := by
  have hother : (b.entries.find? fun e =>
      !sameWord e.1 "expression" && !isDescribing e.1 && looksLikeFormula e.2) =
        some (key, value) → isDescribing key = false ∧ (key, value) ∈ b.entries := by
    intro hfind
    have hlooks := List.find?_some hfind
    simp only [Bool.and_eq_true, Bool.not_eq_true'] at hlooks
    exact ⟨hlooks.1.2, List.mem_of_find?_eq_some hfind⟩
  rw [formula?] at h
  cases hget : b.get? "expression" with
  | none =>
      rw [hget] at h
      exact .inr (hother h)
  | some text =>
      simp only [hget] at h
      split at h
      · exact .inr (hother h)
      · cases h
        exact .inl ⟨rfl, hget⟩

/-- A formula is the value of the entry of its key. -/
theorem exists_find?_of_formula? {b : PropertyBag} (hkeys : b.KeysApart) {key value : String}
    (h : b.formula? = some (key, value)) : ∃ spelled, b.find? key = some (spelled, value) := by
  rcases formula?_cases h with ⟨-, hget⟩ | ⟨-, hmem⟩
  · obtain ⟨⟨spelled, v⟩, hfind, rfl⟩ := Option.map_eq_some_iff.mp hget
    exact ⟨spelled, hfind⟩
  · exact ⟨key, find?_of_mem hkeys hmem⟩

end PropertyBag

open PropertyBag

namespace Node

/-! ## Fields and keys -/

/-- The keys of the fields of a column. -/
def columnKeys : List String :=
  ["dataType", "expression", "sourceColumn", "isHidden", "isKey", "displayFolder",
   "formatString", "summarizeBy", "sortByColumn", "description"]

/-- The keys of the fields that describe a measure. -/
def measureKeys : List String := ["displayFolder", "formatString", "isHidden", "description"]

/-- The keys of the fields of a partition. -/
def partitionKeys : List String := ["sourceKind", "mode", "source"]

/-- The keys of the fields of a relationship. -/
def relationshipKeys : List String :=
  ["fromColumn", "toColumn", "isActive", "crossFilteringBehavior", "fromCardinality",
   "toCardinality"]

variable (n : Node)

/-- The key that the formula of a measure is found under, if it has one. -/
def formulaKeys : List String := (n.properties.formula?.map (·.1)).toList

/-- A column with the fields that the properties give, and others that are left. -/
def columnWith (rest : PropertyBag) : ColumnDecl where
  name := n.name
  dataType := n.properties.get? "dataType"
  expression := (n.properties.get? "expression").filter (!blank ·)
  sourceColumn := n.properties.get? "sourceColumn"
  isHidden := (n.properties.flag? "isHidden").getD false
  isKey := (n.properties.flag? "isKey").getD false
  displayFolder := n.properties.get? "displayFolder"
  formatString := n.properties.get? "formatString"
  summarizeBy := n.properties.get? "summarizeBy"
  sortByColumn := n.properties.get? "sortByColumn"
  description := n.properties.get? "description"
  properties := rest

/-- A measure with the fields that the properties give, and others that are left. -/
def measureWith (rest : PropertyBag) : MeasureDecl where
  name := n.name
  expression := n.properties.formula?.map (·.2)
  expressionKey := n.properties.formula?.map (·.1)
  displayFolder := n.properties.get? "displayFolder"
  formatString := n.properties.get? "formatString"
  isHidden := (n.properties.flag? "isHidden").getD false
  description := n.properties.get? "description"
  properties := rest

/-- A partition with the fields that the properties give, and others that are left. -/
def partitionWith (rest : PropertyBag) : PartitionDecl where
  name := n.name
  sourceKind := n.properties.get? "sourceKind"
  mode := n.properties.get? "mode"
  source := n.properties.get? "source"
  properties := rest

/-- A relationship with the fields that the properties give, and others that are left. -/
def relationshipWith (rest : PropertyBag) : RelationshipDecl where
  name := n.name
  source := (n.properties.get? "fromColumn").bind ColumnName.decompose?
  target := (n.properties.get? "toColumn").bind ColumnName.decompose?
  isActive := (n.properties.flag? "isActive").getD true
  crossFiltering := n.properties.get? "crossFilteringBehavior"
  fromCardinality := n.properties.get? "fromCardinality"
  toCardinality := n.properties.get? "toCardinality"
  properties := rest

/-- A declaration whose fields are its properties, and which keeps the properties that are
no fields. -/
structure FieldsTaken : Prop where
  column : n.column = n.columnWith n.column.properties
  columnRest : TakenFrom n.properties columnKeys n.column.properties
  partition : n.partition = n.partitionWith n.partition.properties
  partitionRest : TakenFrom n.properties partitionKeys n.partition.properties
  relationship : n.relationship = n.relationshipWith n.relationship.properties
  relationshipRest : TakenFrom n.properties relationshipKeys n.relationship.properties
  measure : n.measure = n.measureWith n.measure.properties
  measureRest : TakenFrom n.properties (n.formulaKeys ++ measureKeys) n.measure.properties
  /-- What is taken as the formula is the entry that the formula was found in. -/
  formulaTaken : n.properties.KeysApart → ∀ key value,
    n.properties.formula? = some (key, value) →
      ∃ spelled, n.properties.find? key = some (spelled, value)
  formulaApart : ∀ key value, n.properties.formula? = some (key, value) →
    ∀ other ∈ measureKeys, sameWord key other = false
  formulaAnytime : ∀ keys, keys ⊆ measureKeys →
    (n.properties.takeAll keys).2.formula? = n.properties.formula?

theorem column_eq : n.column = n.columnWith n.column.properties := by
  simp (disch := decide) only [Node.column, columnWith, take, takeFlag, get?_erase, flag?_erase]

theorem partition_eq : n.partition = n.partitionWith n.partition.properties := by
  simp (disch := decide) only [Node.partition, partitionWith, take, get?_erase]

theorem relationship_eq :
    n.relationship = n.relationshipWith n.relationship.properties := by
  simp (disch := decide) only [Node.relationship, relationshipWith, take, get?_erase, flag?_erase]

theorem isDescribing_of_mem_measureKeys : ∀ key ∈ measureKeys, isDescribing key = true := by
  decide

theorem formulaApart_of_mem {n : Node} {key value : String}
    (h : n.properties.formula? = some (key, value)) :
    ∀ other ∈ measureKeys, sameWord key other = false := by
  intro other hmem
  rcases formula?_cases h with ⟨rfl, -⟩ | ⟨hnot, -⟩
  · revert other
    decide
  · rw [← Bool.not_eq_true]
    intro hword
    rw [isDescribing_of_sameWord hword (isDescribing_of_mem_measureKeys other hmem)] at hnot
    exact Bool.noConfusion hnot

/-- The fields of a measure are taken when its formula has been. -/
theorem properties_measure :
    n.measure.properties = (n.properties.takeAll (n.formulaKeys ++ measureKeys)).2 := by
  rw [Node.measure, formulaKeys]
  cases n.properties.formula? with
  | none => rfl
  | some found => rfl

theorem measure_eq : n.measure = n.measureWith n.measure.properties := by
  cases hformula : n.properties.formula? with
  | none =>
      simp (disch := decide) only [Node.measure, measureWith, hformula, take, takeFlag,
        get?_erase, flag?_erase]
  | some found =>
      obtain ⟨key, value⟩ := found
      have hapart : ∀ other ∈ measureKeys, sameWord other key = false := by
        intro other hmem
        rw [sameWord_comm]
        exact formulaApart_of_mem hformula other hmem
      have hfolder := hapart "displayFolder" (by decide)
      have hformat := hapart "formatString" (by decide)
      have hhidden := hapart "isHidden" (by decide)
      have hdescription := hapart "description" (by decide)
      simp (disch := first | assumption | decide) only [Node.measure, measureWith, hformula, take,
        takeFlag, get?_erase, flag?_erase]

/-- In every declaration the fields are what the properties hold, and what is left are the
other properties. -/
theorem fieldsTaken (n : Node) : n.FieldsTaken where
  column := n.column_eq
  columnRest := takenFrom_takeAll (by decide : WordsApart columnKeys) n.properties
  partition := n.partition_eq
  partitionRest := takenFrom_takeAll (by decide : WordsApart partitionKeys) n.properties
  relationship := n.relationship_eq
  relationshipRest := takenFrom_takeAll (by decide : WordsApart relationshipKeys) n.properties
  measure := n.measure_eq
  measureRest := by
    rw [properties_measure]
    refine takenFrom_takeAll (List.pairwise_append.mpr ⟨?_, by decide, ?_⟩) n.properties
    · rw [formulaKeys]
      cases n.properties.formula? with
      | none => exact List.Pairwise.nil
      | some found => exact List.pairwise_singleton _ _
    · intro key hkey other hmem
      obtain ⟨⟨k, value⟩, hformula, rfl⟩ :=
        Option.map_eq_some_iff.mp (Option.mem_toList.mp hkey)
      exact formulaApart_of_mem hformula other hmem
  formulaTaken hkeys key value := exists_find?_of_formula? hkeys
  formulaApart key value := formulaApart_of_mem
  formulaAnytime keys hkeys :=
    formula?_takeAll (fun key hmem => isDescribing_of_mem_measureKeys key (hkeys hmem)) n.properties

/-- A measure whose keys are spelled in several ways, with a formula under a key of its own. -/
def severalSpellings : Node :=
  .mk .measure "Margin" 1
    (.ofList [("Expression", " "), ("FormatString", "0"), ("body", "SUM(x)"),
      ("formatString", "0.0%"), ("ISHIDDEN", "true")]) []

theorem fieldsTaken_severalSpellings :
    severalSpellings.properties.KeysApart
      ∧ severalSpellings.properties.formula? = some ("body", "SUM(x)")
      ∧ (∃ spelled, severalSpellings.properties.find? "body" = some (spelled, "SUM(x)"))
      ∧ severalSpellings.measure.formatString = some "0.0%"
      ∧ severalSpellings.measure.properties.entries =
        [("Expression", " "), ("FormatString", "0")] := by
  have hkeys : severalSpellings.properties.KeysApart := keysApart_ofList _
  have hformula : severalSpellings.properties.formula? = some ("body", "SUM(x)") := by
    decide +kernel
  have htaken := fieldsTaken severalSpellings
  refine ⟨hkeys, hformula, htaken.formulaTaken hkeys _ _ hformula, ?_, ?_⟩
  · rw [htaken.measure]
    decide +kernel
  · rw [htaken.measureRest.entries]
    decide +kernel

end Node

end Tabular.Definition
