import Tabular.Catalog.Rows
import Tabular.Proofs.Dependency.Places
import Tabular.Proofs.Json.Record

/-!
# Catalogs, rows and trees read back

Every type of the catalog, every row of metadata and every dependency tree is read from what is
written for it as it was. Records come from the records they hold, a field at a time; a tree
comes from its subtrees, each of which is written lower than the tree itself, so that the levels
that a reader allows for are enough.

With the text read back as well, catalogs that are written alike are equal, and so are catalogs
whose fingerprints are taken of the same text.
-/

namespace Tabular

open Json

/-! ## Catalogs -/

theorem Column.isCodec : IsCodec Column.encode Column.decode := by
  refine isCodec_record (by decide) (fun _ => .refl _) (fun c => ?_) (fun c => ?_)
  · simp
  · simp

theorem Measure.isCodec : IsCodec Measure.encode Measure.decode := by
  refine isCodec_record (by decide) (fun _ => .refl _) (fun m => ?_) (fun m => ?_)
  · simp
  · simp

theorem Partition.isCodec : IsCodec Partition.encode Partition.decode := by
  refine isCodec_record (by decide) (fun _ => .refl _) (fun p => ?_) (fun p => ?_)
  · simp
  · simp

theorem HierarchyLevel.isCodec : IsCodec HierarchyLevel.encode HierarchyLevel.decode := by
  refine isCodec_record (by decide) (fun _ => .refl _) (fun l => ?_) (fun l => ?_)
  · simp
  · simp

theorem Hierarchy.isCodec : IsCodec Hierarchy.encode Hierarchy.decode := by
  have hlevels := HierarchyLevel.isCodec.list
  refine isCodec_record (by decide) (fun _ => .refl _) (fun h => ?_) (fun h => ?_)
  · simp [hlevels.decode_encode]
  · simp [hlevels.isPlain]

theorem Table.isCodec : IsCodec Table.encode Table.decode := by
  have hcolumns := Column.isCodec.list
  have hmeasures := Measure.isCodec.list
  have hpartitions := Partition.isCodec.list
  have hhierarchies := Hierarchy.isCodec.list
  refine isCodec_record (by decide) (fun _ => .refl _) (fun t => ?_) (fun t => ?_)
  · simp [hcolumns.decode_encode, hmeasures.decode_encode, hpartitions.decode_encode,
      hhierarchies.decode_encode]
  · simp [hcolumns.isPlain, hmeasures.isPlain, hpartitions.isPlain, hhierarchies.isPlain]

theorem CrossFilter.isCodec : IsCodec CrossFilter.encode CrossFilter.decode :=
  isCodec_word CrossFilter.lookup_text

theorem Relationship.isCodec : IsCodec Relationship.encode Relationship.decode := by
  refine isCodec_record (by decide) (fun _ => .refl _) (fun r => ?_) (fun r => ?_)
  · simp [CrossFilter.isCodec.decode_encode]
  · simp [CrossFilter.isCodec.isPlain]

theorem NamedExpression.isCodec : IsCodec NamedExpression.encode NamedExpression.decode := by
  refine isCodec_record (by decide) (fun _ => .refl _) (fun e => ?_) (fun e => ?_)
  · simp
  · simp

theorem TablePermission.isCodec : IsCodec TablePermission.encode TablePermission.decode := by
  refine isCodec_record (by decide) (fun _ => .refl _) (fun p => ?_) (fun p => ?_)
  · simp
  · simp

theorem Role.isCodec : IsCodec Role.encode Role.decode := by
  have hpermissions := TablePermission.isCodec.list
  refine isCodec_record (by decide) (fun _ => .refl _) (fun r => ?_) (fun r => ?_)
  · simp [hpermissions.decode_encode]
  · simp [hpermissions.isPlain]

theorem Catalog.isCodec : IsCodec Catalog.encode Catalog.decode := by
  have htables := Table.isCodec.list
  have hrelationships := Relationship.isCodec.list
  have hexpressions := NamedExpression.isCodec.list
  have hroles := Role.isCodec.list
  have hcultures := isCodec_string.list
  refine isCodec_record (by decide) (fun _ => .refl _) (fun c => ?_) (fun c => ?_)
  · simp [htables.decode_encode, hrelationships.decode_encode, hexpressions.decode_encode,
      hroles.decode_encode, hcultures.decode_encode, Encode.strings]
  · simp [htables.isPlain, hrelationships.isPlain, hexpressions.isPlain, hroles.isPlain,
      hcultures.isPlain, Encode.strings]

/-! ## Rows -/

theorem TableRow.isCodec : IsCodec TableRow.encode TableRow.decode := by
  refine isCodec_record (by decide) (fun _ => .refl _) (fun r => ?_) (fun r => ?_)
  · simp
  · simp

theorem ColumnRow.isCodec : IsCodec ColumnRow.encode ColumnRow.decode := by
  refine isCodec_record (by decide) (fun _ => .refl _) (fun r => ?_) (fun r => ?_)
  · simp
  · simp

theorem MeasureRow.isCodec : IsCodec MeasureRow.encode MeasureRow.decode := by
  refine isCodec_record (by decide) (fun _ => .refl _) (fun r => ?_) (fun r => ?_)
  · simp
  · simp

theorem RelationshipRow.isCodec : IsCodec RelationshipRow.encode RelationshipRow.decode := by
  refine isCodec_record (by decide) (fun _ => .refl _) (fun r => ?_) (fun r => ?_)
  · simp
  · simp

theorem MetadataRows.isCodec : IsCodec MetadataRows.encode MetadataRows.decode := by
  have htables := TableRow.isCodec.list
  have hcolumns := ColumnRow.isCodec.list
  have hmeasures := MeasureRow.isCodec.list
  have hrelationships := RelationshipRow.isCodec.list
  refine isCodec_record (by decide) (fun _ => .refl _) (fun r => ?_) (fun r => ?_)
  · simp [htables.decode_encode, hcolumns.decode_encode, hmeasures.decode_encode,
      hrelationships.decode_encode]
  · simp [htables.isPlain, hcolumns.isPlain, hmeasures.isPlain, hrelationships.isPlain]

/-- A file of rows holds the rows that were written into it. -/
theorem MetadataRows.ofText?_compact (r : MetadataRows) : ofText? r.encode.compact = some r := by
  rw [ofText?, read?_compact (isCodec.isPlain r)]
  exact isCodec.decode_encode r

/-! ## Trees -/

theorem ObjectKind.lookup_text (k : ObjectKind) : names.lookup k.text = some k := by
  cases k <;> rfl

namespace Json.Value

theorem height_le_heightItems {v : Value} {vs : List Value} (h : v ∈ vs) :
    v.height ≤ heightItems vs := by
  induction vs with
  | nil => cases h
  | cons w vs ih =>
      rw [heightItems]
      obtain rfl | h := List.mem_cons.mp h
      · exact Nat.le_max_left ..
      · exact Nat.le_trans (ih h) (Nat.le_max_right ..)

theorem height_le_heightMembers {m : String × Value} {ms : List (String × Value)} (h : m ∈ ms) :
    m.2.height ≤ heightMembers ms := by
  induction ms with
  | nil => cases h
  | cons n ms ih =>
      rw [heightMembers]
      obtain rfl | h := List.mem_cons.mp h
      · exact Nat.le_max_left ..
      · exact Nat.le_trans (ih h) (Nat.le_max_right ..)

end Json.Value

namespace Dependency.Tree

theorem encodeAll_eq_map (ts : List Tree) : encodeAll ts = ts.map encode := by
  induction ts with
  | nil => rfl
  | cons t ts ih => rw [encodeAll, ih, List.map_cons]

theorem isPlain_encode (t : Tree) : t.encode.IsPlain := by
  induction t with
  | node e ts ih =>
      have hsubtrees : (Value.arr (encodeAll ts)).IsPlain := by
        refine .arr fun v hv => ?_
        rw [encodeAll_eq_map] at hv
        obtain ⟨t, ht, rfl⟩ := List.mem_map.mp hv
        exact ih t ht
      rw [encode]
      refine .obj ?_
      cases e.expression <;> simp [hsubtrees]

/-- As many levels as the value is high are enough to read a tree, the value of a subtree
being lower. -/
theorem decodeWithin_encode (t : Tree) (levels : Nat) (h : t.encode.height ≤ levels) :
    decodeWithin levels t.encode = some t := by
  induction t generalizing levels with
  | node e ts ih =>
      rw [encode, Value.height] at h
      obtain ⟨levels, rfl⟩ : ∃ n, levels = n + 1 :=
        Nat.exists_eq_add_one_of_ne_zero (by omega)
      have hlevels : Value.heightItems (encodeAll ts) < levels := by
        refine Nat.le_trans (Value.height_le_heightMembers (m := ("dependencies", .arr _)) ?_)
          (Nat.le_of_succ_le_succ h)
        simp
      have hsubtrees : Decode.list (decodeWithin levels) (.arr (encodeAll ts)) = some ts := by
        rw [encodeAll_eq_map] at hlevels ⊢
        refine mapM_map_eq_some fun t ht => ih t ht levels ?_
        have hlower : t.encode.height ≤ _ :=
          Value.height_le_heightItems (List.mem_map_of_mem ht)
        exact Nat.le_of_lt (Nat.lt_of_le_of_lt hlower hlevels)
      have hkind := (isCodec_word ObjectKind.lookup_text).decode_encode e.kind
      -- a formula that is missing has no member, and the others are the fields in their order
      rw [decodeWithin, encode]
      obtain ⟨key, table, name, kind, expression, isCircular, isTruncated, isUnresolved⟩ := e
      cases expression with
      | none =>
          rw [Record.read?_obj (by decide)]
          · simp [hsubtrees, hkind]
          · show ["key", "table", "name", "kind", "circular_reference", "truncated", "unresolved",
              "dependencies"].Sublist (fields.map (·.name))
            decide
      | some x =>
          rw [Record.read?_obj (by decide)]
          · simp [hsubtrees, hkind]
          · exact .refl _

theorem isCodec : IsCodec encode decode where
  decode_encode t := decodeWithin_encode t _ (Nat.le_refl _)
  isPlain := isPlain_encode

end Dependency.Tree

/-- Catalogs, sets of rows and dependency trees are read as they were from what is written for
them. So no two catalogs are written alike, as values or as the text whose digest is the
fingerprint. -/
theorem readBack_catalog_rows_tree :
    (∀ c : Catalog, Catalog.decode c.encode = some c)
      ∧ (∀ r : MetadataRows, MetadataRows.decode r.encode = some r)
      ∧ (∀ t : Dependency.Tree, Dependency.Tree.decode t.encode = some t)
      ∧ Function.Injective Catalog.encode
      ∧ (∀ c : Catalog, c.fingerprint = Digest.Sha256.hexDigest c.encode.compact)
      ∧ Function.Injective fun c : Catalog => c.encode.compact :=
  ⟨Catalog.isCodec.decode_encode, MetadataRows.isCodec.decode_encode,
    Dependency.Tree.isCodec.decode_encode, Catalog.isCodec.encode_injective, fun _ => rfl,
    Catalog.isCodec.compact_injective⟩

end Tabular
