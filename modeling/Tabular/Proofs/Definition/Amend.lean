import Tabular.Definition.Document

/-!
# A tree that is amended

What a declaration takes in depends on which entry is deeper than which, and on nothing
else. So entries that stand on other lines and deeper, but in the same order of depths, make
the same tree, in which only the lines are other ones. And a declaration may be given other
properties on the way, as long as its own line says so.
-/

namespace Tabular

/-- A report that is made on another line. -/
def Diagnostic.moved (place : Nat → Nat) (d : Diagnostic) : Diagnostic :=
  { d with location := d.location.map fun l => { l with line := l.line.map place } }

namespace Definition

mutual

/-- A tree on other lines, and with other properties on some of them. -/
def Node.amend (place : Nat → Nat) (bagAt : Nat → PropertyBag → PropertyBag) : Node → Node
  | .mk kind name line properties children =>
      .mk kind name (place line) (bagAt line properties) (Node.amendAll place bagAt children)

/-- `amend` of each declaration of a list. -/
def Node.amendAll (place : Nat → Nat) (bagAt : Nat → PropertyBag → PropertyBag) :
    List Node → List Node
  | [] => []
  | n :: rest => n.amend place bagAt :: Node.amendAll place bagAt rest

end

/-- An entry on another line and in another depth. -/
def Entry.moved (place deepen : Nat → Nat) (e : Entry) : Entry :=
  { e with line := place e.line, depth := deepen e.depth }

/-- A piece that is amended. -/
def Piece.amend (place : Nat → Nat) (bagAt : Nat → PropertyBag → PropertyBag) : Piece → Piece
  | .node n => .node (n.amend place bagAt)
  | p => p

variable (place deepen : Nat → Nat) (bagAt : Nat → PropertyBag → PropertyBag)

/-- Pieces with their depths that are amended. -/
def amendPieces (ps : List (Nat × Piece)) : List (Nat × Piece) :=
  ps.map fun p => (deepen p.1, p.2.amend place bagAt)

theorem Node.amendAll_eq_map (ns : List Node) :
    amendAll place bagAt ns = ns.map (amend place bagAt) := by
  induction ns with
  | nil => rfl
  | cons n rest ih => rw [amendAll, ih, List.map_cons]

mutual

theorem Node.amend_id : (n : Node) → n.amend (fun l => l) (fun _ bag => bag) = n
  | .mk kind name line properties children => by rw [amend, amendAll_id children]

theorem Node.amendAll_id : (ns : List Node) → amendAll (fun l => l) (fun _ bag => bag) ns = ns
  | [] => rfl
  | n :: rest => by rw [amendAll, amend_id n, amendAll_id rest]

end

mutual

theorem Node.preorder_amend : (n : Node) →
    (n.amend place bagAt).preorder = n.preorder.map (amend place bagAt)
  | .mk kind name line properties children => by
      rw [amend, preorder, preorderAll_amend children, preorder, List.map_cons, amend]

theorem Node.preorderAll_amend : (ns : List Node) →
    preorderAll (amendAll place bagAt ns) = (preorderAll ns).map (amend place bagAt)
  | [] => rfl
  | n :: rest => by
      rw [amendAll, preorderAll, preorder_amend n, preorderAll_amend rest, preorderAll,
        List.map_append]

end

theorem Piece.nodes_amend (ps : List Piece) :
    nodes (ps.map (amend place bagAt)) = (nodes ps).map (Node.amend place bagAt) := by
  induction ps with
  | nil => rfl
  | cons p rest ih =>
      cases p with
      | node n => exact congrArg (n.amend place bagAt :: ·) ih
      | property key value => exact ih
      | nothing => exact ih

theorem Piece.properties_amend (ps : List Piece) :
    properties (ps.map (amend place bagAt)) = properties ps := by
  induction ps with
  | nil => rfl
  | cons p rest ih =>
      cases p with
      | node n => exact ih
      | property key value => exact congrArg ((key, value) :: ·) ih
      | nothing => exact ih

theorem map_snd_amendPieces (ps : List (Nat × Piece)) :
    (amendPieces place deepen bagAt ps).map (·.2) =
      (ps.map (·.2)).map (Piece.amend place bagAt) := by
  rw [amendPieces, List.map_map, List.map_map]
  rfl

/-- The properties that a declaration takes in of the pieces below it. -/
def insideOf (depth : Nat) (below : List (Nat × Piece)) : List (String × String) :=
  Piece.properties ((below.takeWhile fun p => depth < p.1).map (·.2))

/-- The bag of a declaration above some pieces. -/
def bagAbove (kind : Kind) (description value : Option String) (depth : Nat)
    (below : List (Nat × Piece)) : PropertyBag :=
  .ofList (ownProperties kind description value ++ insideOf depth below)

variable {place deepen bagAt}

/-- A declaration takes in the same as before. Its value may be another one, if that is what
its bag is amended by. -/
theorem addEntry_amend_declaration (hdeepen : ∀ a b, deepen a < deepen b ↔ a < b)
    {line line' depth depth' : Nat} {kind : Kind} {name : String}
    {description value value' : Option String} {below : List (Nat × Piece)}
    (hline : place line = line') (hdepth : deepen depth = depth')
    (hbag : bagAt line (bagAbove kind description value depth below) =
      bagAbove kind description value' depth below) :
    addEntry ⟨line', depth', .declaration kind name description value'⟩
        (amendPieces place deepen bagAt below) =
      amendPieces place deepen bagAt
        (addEntry ⟨line, depth, .declaration kind name description value⟩ below) := by
  subst hline hdepth
  have hdeeper : ∀ p : Nat × Piece,
      decide (deepen depth < deepen p.1) = decide (depth < p.1) := fun p =>
    decide_eq_decide.mpr (hdeepen depth p.1)
  have hinside : (amendPieces place deepen bagAt below).takeWhile
      (fun p => deepen depth < p.1) =
        amendPieces place deepen bagAt (below.takeWhile fun p => depth < p.1) := by
    rw [amendPieces, List.takeWhile_map]
    simp only [Function.comp_def, hdeeper, amendPieces]
  have hrest : (amendPieces place deepen bagAt below).dropWhile
      (fun p => deepen depth < p.1) =
        amendPieces place deepen bagAt (below.dropWhile fun p => depth < p.1) := by
    rw [amendPieces, List.dropWhile_map]
    simp only [Function.comp_def, hdeeper, amendPieces]
  rw [bagAbove, bagAbove, insideOf] at hbag
  simp only [addEntry, hinside, hrest, map_snd_amendPieces, Piece.properties_amend,
    Piece.nodes_amend]
  rw [amendPieces, amendPieces, List.map_cons, Piece.amend, Node.amend, hbag,
    Node.amendAll_eq_map]

theorem addEntry_moved (hdeepen : ∀ a b, deepen a < deepen b ↔ a < b) {e : Entry}
    (hbag : ∀ bag, bagAt e.line bag = bag) (below : List (Nat × Piece)) :
    addEntry (e.moved place deepen) (amendPieces place deepen bagAt below) =
      amendPieces place deepen bagAt (addEntry e below) := by
  obtain ⟨line, depth, item⟩ := e
  cases item with
  | declaration kind name description value =>
      exact addEntry_amend_declaration hdeepen rfl rfl (hbag _)
  | property key value => rfl
  | nameless kind => rfl
  | unrecognized content => rfl
  | nothing => rfl

/-- Entries whose order of depths stays the same make the same of what is below them. -/
theorem foldr_addEntry_moved (hdeepen : ∀ a b, deepen a < deepen b ↔ a < b) {es : List Entry}
    (hbag : ∀ e ∈ es, ∀ bag, bagAt e.line bag = bag) (below : List (Nat × Piece)) :
    (es.map (Entry.moved place deepen)).foldr addEntry (amendPieces place deepen bagAt below) =
      amendPieces place deepen bagAt (es.foldr addEntry below) := by
  induction es with
  | nil => rfl
  | cons e rest ih =>
      obtain ⟨hfirst, hrest⟩ := List.forall_mem_cons.mp hbag
      rw [List.map_cons, List.foldr_cons, List.foldr_cons, ih hrest,
        addEntry_moved hdeepen hfirst]

theorem pieces_moved (hdeepen : ∀ a b, deepen a < deepen b ↔ a < b) {es : List Entry}
    (hbag : ∀ e ∈ es, ∀ bag, bagAt e.line bag = bag) :
    pieces (es.map (Entry.moved place deepen)) = amendPieces place deepen bagAt (pieces es) :=
  foldr_addEntry_moved hdeepen hbag []

/-- The document stands on no line and is not amended itself. -/
theorem documentOf_amend {es es' : List Entry}
    (h : pieces es' = amendPieces place deepen bagAt (pieces es)) (hplace : place 0 = 0)
    (hbag : ∀ bag, bagAt 0 bag = bag) :
    documentOf es' = (documentOf es).amend place bagAt := by
  rw [documentOf, documentOf, h, map_snd_amendPieces, Piece.properties_amend,
    Piece.nodes_amend, Node.amend, hplace, hbag, Node.amendAll_eq_map]

variable (place deepen)

theorem filterMap_diagnostic?_moved (file : String) (es : List Entry) :
    (es.map (Entry.moved place deepen)).filterMap (·.diagnostic? file) =
      (es.filterMap (·.diagnostic? file)).map (Diagnostic.moved place) := by
  rw [List.filterMap_map, List.map_filterMap]
  refine congrArg (List.filterMap · es) (funext fun e => ?_)
  obtain ⟨line, depth, item⟩ := e
  cases item with
  | declaration kind name description value => rfl
  | property key value => rfl
  | nameless kind => rfl
  | unrecognized content => rfl
  | nothing => rfl

end Definition

end Tabular
