import Tabular.Report.Field

/-!
# Visuals as they are stored

A stored visual binds fields in the slots of its query and in the items that an older
form of query selects; both may be there. What its filters look at is kept apart. An
expression that stands for nothing is passed over.
-/

namespace Tabular.Report

open Json

/-- The slots of a query in which fields are shown. -/
def slots : List String :=
  ["Category", "Y", "Y2", "X", "Values", "Rows", "Columns", "Legend", "Series",
   "Tooltips", "Size", "Details", "Indicator", "Goal", "TrendLine", "Data", "Fields",
   "MinValue", "MaxValue", "TargetValue"]

/-- The items of the array that a path leads to. -/
def itemsAt (v : Value) (path : List String) : List Value :=
  ((v.path? path).map Value.items).getD []

/-- The source that an item of a query declares, with its entity. -/
def source? (item : Value) : Option (String × String) := do
  return (← text? item "Name", ← text? item "Entity")

/-- The sources that a query declares, of which a later one wins. -/
def sourcesOf (query : Value) : Sources :=
  Ordered.SortedMap.ofList ((itemsAt query ["From"]).filterMap source?)

/-- What the `field` members of some values stand for. -/
def boundFields (holders : List Value) : List FieldRef :=
  holders.filterMap fun v => (v.get? "field").bind (fieldRef? ∅)

/-- What the slots of a query show, slot by slot. -/
def slotFields (body : Value) : List FieldRef :=
  slots.flatMap fun slot =>
    boundFields (itemsAt body ["query", "queryState", slot, "projections"])

/-- The query in the older form, beside the other one or inside of it. -/
def olderQuery? (body : Value) : Option Value :=
  (body.get? "prototypeQuery").or (body.path? ["query", "prototypeQuery"])

/-- What the older query selects. -/
def selectedFields (body : Value) : List FieldRef :=
  match olderQuery? body with
  | none => []
  | some query => (itemsAt query ["Select"]).filterMap (fieldRef? (sourcesOf query))

/-- The fields that the body of a visual shows. -/
def shownFields (body : Value) : VisualFields :=
  .ofList (slotFields body ++ selectedFields body)

/-- The fields that the filters of a visual look at. -/
def filterFields (stored : Value) : VisualFields :=
  .ofList (boundFields (itemsAt stored ["filterConfig", "filters"]))

/-- The visual that a stored one holds, if it is no mere group of others. -/
def visual? (stored : Value) (page fallbackId : String) : Option Visual := do
  let body ← (stored.get? "visual").or (stored.get? "singleVisual")
  return {
    id := (text? stored "name").getD fallbackId
    visualType := (text? body "visualType").getD ""
    page
    fields := shownFields body
    filters := filterFields stored }

end Tabular.Report
