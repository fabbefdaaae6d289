/-!
# Kinds of declarations

A definition is made of declarations, each introduced by the keyword of its kind. The
kinds are listed from the whole to its parts, and that is their order. The document
itself is of a kind without a keyword.
-/

namespace Tabular.Definition

/-- The kind of a declaration. -/
inductive Kind where
  | document
  | model
  | table
  | column
  | measure
  | hierarchy
  | level
  | partition
  | relationship
  | expression
  | role
  | tablePermission
  | culture
  | annotation
  deriving DecidableEq, Inhabited, Repr

namespace Kind

/-- The kinds that a keyword introduces, in order. -/
def declared : List Kind :=
  [model, table, column, measure, hierarchy, level, partition, relationship, expression,
   role, tablePermission, culture, annotation]

/-- All kinds, in order. -/
def all : List Kind := document :: declared

/-- The keyword of a kind; the document has none. -/
def keyword : Kind → String
  | document => ""
  | model => "model"
  | table => "table"
  | column => "column"
  | measure => "measure"
  | hierarchy => "hierarchy"
  | level => "level"
  | partition => "partition"
  | relationship => "relationship"
  | expression => "expression"
  | role => "role"
  | tablePermission => "tablePermission"
  | culture => "culture"
  | annotation => "annotation"

/-- The name of a kind. -/
def text : Kind → String
  | document => "document"
  | k => k.keyword

/-- The kind that a word introduces. -/
def ofKeyword? (word : List Char) : Option Kind :=
  declared.find? fun k => k.keyword.toList == word

/-- Whether a declaration may have a formula that goes on over several lines. -/
def hasBody : Kind → Bool
  | measure | column | expression | tablePermission => true
  | _ => false

/-- The property that the value behind a declaration's equals sign is kept under. -/
def valueKey : Kind → String
  | measure | column | expression => "expression"
  | tablePermission => "filterExpression"
  | partition => "sourceKind"
  | _ => "value"

/-- A keyword introduces its kind. -/
theorem ofKeyword?_keyword {k : Kind} (h : k ≠ document) :
    ofKeyword? k.keyword.toList = some k := by
  cases k <;> first | rfl | exact absurd rfl h

/-- A word that introduces a kind is its keyword. -/
theorem keyword_of_ofKeyword? {word : List Char} {k : Kind}
    (h : ofKeyword? word = some k) : k.keyword.toList = word := by
  have := List.find?_some h
  simpa using this

end Kind

end Tabular.Definition
