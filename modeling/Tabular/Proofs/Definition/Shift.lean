import Tabular.Catalog.OfDefinition
import Tabular.Proofs.Definition.Amend

/-!
# Line numbers count for nothing but themselves

A definition that stands some lines further down is read as it is read at the top, only
that every line number in the result is higher by as much. Here this is said of each
stage: of one line, of the entries of lines, of the tree they make, and of what is
reported. What the objects of a tree say about themselves has no line numbers in it, and
so the catalog of a definition does not know where it stood.
-/

namespace Tabular

/-- A report that is made some lines further down. -/
def Diagnostic.shift (k : Nat) (d : Diagnostic) : Diagnostic :=
  { d with location := d.location.map fun l => { l with line := l.line.map (· + k) } }

namespace Definition

open Text

/-! ## Lines and entries -/

/-- A head that stands some lines further down. -/
def Head.shift (k : Nat) (h : Head) : Head := { h with line := h.line + k }

/-- An entry that stands some lines further down. -/
def Entry.shift (k : Nat) (e : Entry) : Entry := { e with line := e.line + k }

/-- A mode whose head stands some lines further down. -/
def Mode.shift (k : Nat) : Mode → Mode
  | .lines => .lines
  | .body head start soFar blanks => .body (head.shift k) start soFar blanks
  | .fenced head soFar => .fenced (head.shift k) soFar

/-- A reading that has come some lines further down. -/
def Reading.shift (k : Nat) (r : Reading) : Reading := { r with mode := r.mode.shift k }

variable (k : Nat)

theorem startValue_shift (head : Head) (hasBody : Bool) (text : List Char) :
    startValue (head.shift k) hasBody text =
      ((startValue head hasBody text).1.shift k,
        (startValue head hasBody text).2.map (Entry.shift k)) := by
  rw [startValue, startValue]
  split
  · split
    · rfl
    · rfl
  · split
    · rfl
    · split
      · rfl
      · rfl

theorem readLine_shift (number : Nat) (description : List String) (l : Line) :
    readLine (number + k) description l =
      ((readLine number description l).1.shift k,
        (readLine number description l).2.map (Entry.shift k)) := by
  rw [readLine, readLine]
  cases Shape.of l.content with
  | description text => rfl
  | mention => rfl
  | keyword kind => rfl
  | flag key => rfl
  | unknown => rfl
  | property key separator value =>
      cases separator with
      | colon => rfl
      | equals =>
          have h := startValue_shift k ⟨number, l.depth, .property key⟩ true value
          exact congrArg (fun p : Mode × List Entry => (({ mode := p.1 } : Reading), p.2)) h
  | declaration kind rest =>
      simp only
      split
      · rfl
      · split
        · rfl
        · exact congrArg (fun p : Mode × List Entry => (({ mode := p.1 } : Reading), p.2))
            (startValue_shift k ⟨number, l.depth, .declaration kind _ _⟩ _ _)

theorem Mode.finish_shift (m : Mode) : (m.shift k).finish = m.finish.map (Entry.shift k) := by
  cases m with
  | lines => rfl
  | body head start soFar blanks => rfl
  | fenced head soFar => rfl

section Next

variable (number : Nat) (description : List String) (l : Line)

theorem Reading.next_lines : (⟨.lines, description⟩ : Reading).next number l =
    if l.isBlank then (⟨.lines, description⟩, []) else readLine number description l := rfl

theorem Reading.next_body (head : Head) (start : List Char) (soFar : List Line)
    (blanks : Nat) : (⟨.body head start soFar blanks, description⟩ : Reading).next number l =
      if l.isBlank then (⟨.body head start soFar (blanks + 1), description⟩, [])
      else if continuesBody head start l then
        (⟨.body head start (soFar ++ List.replicate blanks Line.blank ++ [l]) 0, description⟩, [])
      else
        ((readLine number description l).1,
          head.entry (bodyValue start soFar) :: (readLine number description l).2) := rfl

theorem Reading.next_fenced (head : Head) (soFar : List Line) :
    (⟨.fenced head soFar, description⟩ : Reading).next number l =
      match beforeEnd? fence l.text with
      | some before =>
          let last := trimEnd before
          let soFar := if last.isEmpty then soFar else soFar ++ [⟨l.depth, last⟩]
          (⟨.lines, description⟩, [head.entry (some (fencedValue soFar))])
      | none => (⟨.fenced head (soFar ++ [l]), description⟩, []) := rfl

theorem entriesFrom_cons (r : Reading) (rest : List Line) :
    entriesFrom number r (l :: rest) =
      (r.next number l).2 ++ entriesFrom (number + 1) (r.next number l).1 rest := rfl

end Next

theorem Reading.next_shift (number : Nat) (r : Reading) (l : Line) :
    (r.shift k).next (number + k) l =
      ((r.next number l).1.shift k, (r.next number l).2.map (Entry.shift k)) := by
  obtain ⟨mode, description⟩ := r
  cases mode with
  | lines =>
      rw [Reading.shift, Mode.shift, next_lines, next_lines]
      split
      · rfl
      · exact readLine_shift k number description l
  | body head start soFar blanks =>
      rw [Reading.shift, Mode.shift, next_body, next_body]
      split
      · rfl
      · rw [show continuesBody (head.shift k) start l = continuesBody head start l from rfl]
        split
        · rfl
        · rw [readLine_shift]
          rfl
  | fenced head soFar =>
      rw [Reading.shift, Mode.shift, next_fenced, next_fenced]
      split
      · rfl
      · rfl

/-- The entries of lines that stand further down. -/
theorem entriesFrom_shift (number : Nat) (r : Reading) (lines : List Line) :
    entriesFrom (number + k) (r.shift k) lines =
      (entriesFrom number r lines).map (Entry.shift k) := by
  induction lines generalizing number r with
  | nil => exact Mode.finish_shift k r.mode
  | cons l rest ih =>
      have hnumber : number + k + 1 = number + 1 + k := by omega
      rw [entriesFrom_cons, entriesFrom_cons, Reading.next_shift, hnumber, ih,
        List.map_append]

/-! ## Trees -/

mutual

/-- A declaration that stands, with all inside it, some lines further down. -/
def Node.shift (k : Nat) : Node → Node
  | .mk kind name line properties children =>
      .mk kind name (line + k) properties (Node.shiftAll k children)

/-- `shift` of each declaration of a list. -/
def Node.shiftAll (k : Nat) : List Node → List Node
  | [] => []
  | n :: rest => n.shift k :: Node.shiftAll k rest

end

theorem Node.shiftAll_eq_map (ns : List Node) : shiftAll k ns = ns.map (shift k) := by
  induction ns with
  | nil => rfl
  | cons n rest ih => rw [shiftAll, ih, List.map_cons]

/-- A piece that stands some lines further down. -/
def Piece.shift (k : Nat) : Piece → Piece
  | .node n => .node (n.shift k)
  | p => p

mutual

/-- Other lines are all that a shift amends. -/
theorem Node.shift_eq_amend : (n : Node) → n.shift k = n.amend (· + k) fun _ bag => bag
  | .mk kind name line properties children => by
      rw [shift, amend, shiftAll_eq_amendAll children]

theorem Node.shiftAll_eq_amendAll : (ns : List Node) →
    shiftAll k ns = amendAll (· + k) (fun _ bag => bag) ns
  | [] => rfl
  | n :: rest => by rw [shiftAll, amendAll, shift_eq_amend n, shiftAll_eq_amendAll rest]

end

theorem Piece.shift_eq_amend (p : Piece) : p.shift k = p.amend (· + k) fun _ bag => bag := by
  cases p with
  | node n => exact congrArg Piece.node (Node.shift_eq_amend k n)
  | property key value => rfl
  | nothing => rfl

theorem Piece.nodes_shift (ps : List Piece) :
    nodes (ps.map (shift k)) = (nodes ps).map (Node.shift k) := by
  rw [List.map_congr_left fun p _ => shift_eq_amend k p, nodes_amend]
  exact List.map_congr_left fun n _ => (Node.shift_eq_amend k n).symm

/-- Pieces with their depths that stand some lines further down. -/
def shiftPieces (k : Nat) (ps : List (Nat × Piece)) : List (Nat × Piece) :=
  ps.map fun p => (p.1, p.2.shift k)

theorem map_snd_shiftPieces (ps : List (Nat × Piece)) :
    (shiftPieces k ps).map (·.2) = (ps.map (·.2)).map (Piece.shift k) := by
  rw [shiftPieces, List.map_map, List.map_map]
  rfl

theorem pieces_shift (es : List Entry) :
    pieces (es.map (Entry.shift k)) = shiftPieces k (pieces es) := by
  have hmoved : pieces (es.map (Entry.moved (· + k) fun depth => depth)) =
      amendPieces (· + k) (fun depth => depth) (fun _ bag => bag) (pieces es) :=
    pieces_moved (fun _ _ => Iff.rfl) fun _ _ _ => rfl
  rw [show Entry.shift k = Entry.moved (· + k) (fun depth => depth) from rfl, hmoved,
    amendPieces, shiftPieces]
  exact List.map_congr_left fun p _ => congrArg (p.1, ·) (Piece.shift_eq_amend k p.2).symm

/-! ## Reports -/

theorem filterMap_diagnostic?_shift (file : String) (es : List Entry) :
    (es.map (Entry.shift k)).filterMap (·.diagnostic? file) =
      (es.filterMap (·.diagnostic? file)).map (Diagnostic.shift k) :=
  filterMap_diagnostic?_moved (· + k) (fun depth => depth) file es

/-! ## Catalogs -/

namespace Node

@[simp] theorem kind_shift (n : Node) : (n.shift k).kind = n.kind := by
  obtain ⟨kind, name, line, properties, children⟩ := n
  rfl

@[simp] theorem name_shift (n : Node) : (n.shift k).name = n.name := by
  obtain ⟨kind, name, line, properties, children⟩ := n
  rfl

@[simp] theorem properties_shift (n : Node) : (n.shift k).properties = n.properties := by
  obtain ⟨kind, name, line, properties, children⟩ := n
  rfl

theorem children_shift (n : Node) : (n.shift k).children = n.children.map (shift k) := by
  obtain ⟨kind, name, line, properties, children⟩ := n
  exact shiftAll_eq_map k children

theorem filter_kind_shift (kind : Kind) (ns : List Node) :
    (ns.map (shift k)).filter (·.kind == kind) =
      (ns.filter (·.kind == kind)).map (shift k) := by
  rw [List.filter_map]
  refine congrArg (List.map (shift k)) (List.filter_congr fun n _ => ?_)
  rw [Function.comp_apply, kind_shift]

theorem childrenOf_shift (n : Node) (kind : Kind) :
    (n.shift k).childrenOf kind = (n.childrenOf kind).map (shift k) := by
  rw [childrenOf, children_shift, filter_kind_shift, childrenOf]

/-- What does not look at lines can be asked of the children as they were. -/
theorem map_childrenOf_shift {β : Type} {f : Node → β} (hf : ∀ n, f (n.shift k) = f n)
    (n : Node) (kind : Kind) :
    ((n.shift k).childrenOf kind).map f = (n.childrenOf kind).map f := by
  rw [childrenOf_shift, List.map_map]
  exact List.map_congr_left fun c _ => hf c

theorem column_shift (n : Node) : (n.shift k).column = n.column := by
  rw [column, properties_shift, name_shift, column]

theorem measure_shift (n : Node) : (n.shift k).measure = n.measure := by
  rw [measure, properties_shift, name_shift, measure]

theorem partition_shift (n : Node) : (n.shift k).partition = n.partition := by
  rw [partition, properties_shift, name_shift, partition]

theorem hierarchy_shift (n : Node) : (n.shift k).hierarchy = n.hierarchy := by
  rw [hierarchy, hierarchy, name_shift, map_childrenOf_shift]
  intro l
  rw [name_shift, properties_shift]

theorem table_shift (n : Node) : (n.shift k).table = n.table := by
  rw [table, table, name_shift, properties_shift, map_childrenOf_shift k (column_shift k),
    map_childrenOf_shift k (measure_shift k), map_childrenOf_shift k (partition_shift k),
    map_childrenOf_shift k (hierarchy_shift k)]

theorem relationship_shift (n : Node) : (n.shift k).relationship = n.relationship := by
  rw [relationship, properties_shift, name_shift, relationship]

theorem namedExpression_shift (n : Node) :
    (n.shift k).namedExpression = n.namedExpression := by
  rw [namedExpression, properties_shift, name_shift, namedExpression]

theorem role_shift (n : Node) : (n.shift k).role = n.role := by
  rw [role, role, properties_shift, name_shift, map_childrenOf_shift]
  intro p
  rw [name_shift, properties_shift]

mutual

theorem members_shift : (n : Node) → (n.shift k).members = n.members.map (shift k)
  | .mk kind name line properties children => by
      rw [shift, members, members]
      split
      · exact membersAll_shift children
      · rfl

theorem membersAll_shift : (ns : List Node) →
    membersAll (shiftAll k ns) = (membersAll ns).map (shift k)
  | [] => rfl
  | n :: rest => by
      rw [shiftAll, membersAll, membersAll, members_shift n, membersAll_shift rest,
        List.map_append]

end

theorem membersAll_append (a b : List Node) :
    membersAll (a ++ b) = membersAll a ++ membersAll b := by
  induction a with
  | nil => rfl
  | cons n rest ih => rw [List.cons_append, membersAll, membersAll, ih, List.append_assoc]

end Node

theorem addTable_shift (tables : List Table) (n : Node) :
    addTable tables (n.shift k) = addTable tables n := by
  rw [addTable, addTable, Node.name_shift, Node.table_shift]

/-- Where the tables of the later declarations stand does not count. -/
theorem foldl_addTable_shift (tables : List Table) (ns : List Node) :
    (ns.map (Node.shift k)).foldl addTable tables = ns.foldl addTable tables := by
  rw [List.foldl_map]
  exact congrArg (fun f => ns.foldl f tables)
    (funext fun ts => funext fun n => addTable_shift k ts n)

end Definition

open Definition

theorem Catalog.ofMembers_shift (k : Nat) (name : Option String) (a b : List Node) :
    ofMembers name (a ++ b.map (Node.shift k)) = ofMembers name (a ++ b) := by
  simp only [ofMembers, List.filter_append, Node.filter_kind_shift, List.foldl_append,
    foldl_addTable_shift, List.filterMap_append, List.map_append, List.filterMap_map,
    List.map_map, Function.comp_def, Node.relationship_shift, Node.namedExpression_shift,
    Node.role_shift, Node.name_shift]

/-- A document that holds what two documents hold makes the catalog of the two, wherever
the declarations of the second one stand in it. -/
theorem Catalog.ofDocuments_joined (k : Nat) {whole first second : Node}
    (h : whole.children = first.children ++ second.children.map (Node.shift k)) :
    ofDocuments [whole] = ofDocuments [first, second] := by
  have hname : ((whole.children.find? (·.kind == .model)).map Node.name) =
      ((first.children ++ second.children).find? (·.kind == .model)).map Node.name := by
    rw [h, List.find?_append, List.find?_append, List.find?_map, Option.map_or, Option.map_or,
      Option.map_map]
    have hkind : (fun n : Node => n.kind == Kind.model) ∘ Node.shift k =
        fun n => n.kind == .model := funext fun n => by rw [Function.comp_apply, Node.kind_shift]
    have hname : Node.name ∘ Node.shift k = Node.name := funext (Node.name_shift k)
    rw [hkind, hname]
  have hmembers : Node.membersAll whole.children =
      Node.membersAll first.children
        ++ (Node.membersAll second.children).map (Node.shift k) := by
    rw [h, ← Node.shiftAll_eq_map, Node.membersAll_append, Node.membersAll_shift]
  simp only [ofDocuments, List.flatMap_cons, List.flatMap_nil, List.append_nil]
  rw [hname, hmembers, Catalog.ofMembers_shift, Node.membersAll_append]

end Tabular
