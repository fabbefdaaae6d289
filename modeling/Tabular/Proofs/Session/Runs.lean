import Mathlib.Data.List.Nodup
import Tabular.Proofs.Dependency.Cache
import Tabular.Session.Basic

/-!
# What a session answers after any run

A session is asked and loaded again in any order, and each time it is loaded its model or
its report may fail. Whatever happens, it stands as it would after the last load that
succeeded: a load that fails leaves it as it was, and one that succeeds replaces all of it.
Only the cache remembers more, and what it remembers is said of the same catalog: under a
lowercase key and a depth it keeps the tree of a measure that has the key.

A tree out of the cache may therefore be that of another measure only if the keys of the
two fold alike. Where no two do, the cache cannot be told from no cache.
-/

namespace Tabular

open Dependency Source Text

/-- A measure that is found by its table is a measure of the catalog. -/
theorem Catalog.mem_measures_of_findMeasure? {c : Catalog} {table name : String} {m : Measure}
    (h : c.findMeasure? table name = some m) : m ∈ c.measures := by
  obtain ⟨t, ht, hm⟩ := Option.bind_eq_some_iff.mp h
  exact List.mem_flatMap.mpr ⟨t, List.mem_of_find?_eq_some ht, List.mem_of_find?_eq_some hm⟩

namespace Source

/-- What a load gives, by what the model and the report, if there is one, gave. -/
def Loaded.ofResults (model : Except SourceError LoadedModel)
    (report : Option (Except SourceError LoadedReport)) : Except SourceError Loaded :=
  match model, report with
  | .error e, _ => .error e
  | .ok _, some (.error e) => .error e
  | .ok model, some (.ok report) => .ok { model, report := some report }
  | .ok model, none => .ok { model }

theorem Sources.load_eq_ofResults (files : Storage.FileTree) (s : Sources) :
    s.load files = Loaded.ofResults (s.model.load files) (s.report.map (·.load files)) := by
  rw [Sources.load]
  cases s.model.load files with
  | error e => rfl
  | ok model =>
      cases s.report with
      | none => rfl
      | some source =>
          rw [Option.map_some]
          cases hreport : source.load files with
          | error e => simp [bind, Except.bind, hreport, Loaded.ofResults]
          | ok report => simp [bind, Except.bind, hreport, pure, Except.pure, Loaded.ofResults]

end Source

/-- The answer that gives the tree of a measure, if there is one. -/
def treeAnswer (m : Measure) : Option Tree → Response Tree
  | some tree => .ok tree
  | none => .failure .notFound ("No measure " ++ m.key)

theorem treeAnswer_eq_ok_iff {m : Measure} {found : Option Tree} {tree : Tree} :
    treeAnswer m found = .ok tree ↔ found = some tree := by
  cases found with
  | none => exact iff_of_false (fun h => nomatch congrArg Response.success h) (fun h => nomatch h)
  | some t => exact ⟨fun h => congrArg Response.result h, fun h => congrArg (treeAnswer m) h⟩

/-- The dependency tree of a measure, made anew out of a snapshot. -/
def Snapshot.freshTree (s : Snapshot) (config : Config) (table name : String)
    (depth : Option Nat) : Response Tree :=
  if blank table || blank name then
    .failure .invalidInput "Table and measure names are required"
  else
    match s.catalog.findMeasure? table name with
    | none => .failure .notFound ("No measure " ++ objectKey table name)
    | some m =>
        treeAnswer m (s.graph.measureTree? m.table m.name (depth.getD config.maxDepth))

namespace Session

/-- What can be asked of a session. -/
inductive Question where
  | catalog
  | resolve (formula : String)
  | resolveObject (table name : String)
  | dependencyTree (table name : String) (depth : Option Nat)
  | impact (key : Key)
  | columnUsage (table column : String)
  | unusedObjects
  | diagnostics

/-- What happens to a session. -/
inductive Event where
  | ask (question : Question)
  /-- A load, of which the model and the report gave what is said here. -/
  | load (model : Except SourceError LoadedModel)
      (report : Option (Except SourceError LoadedReport))

/-- What a load gives that succeeds. -/
def Event.loaded? : Event → Option Loaded
  | .ask _ => none
  | .load model report => (Loaded.ofResults model report).toOption

/-- The session after an event. Of the questions, only that for a tree changes it. -/
def after (s : Session) : Event → Session
  | .ask (.dependencyTree table name depth) => (s.dependencyTree table name depth).2
  | .ask _ => s
  | .load model report => (s.receive (Loaded.ofResults model report)).1

/-- The session after a run. -/
def run (s : Session) (events : List Event) : Session := events.foldl after s

/-- The last load of a run that succeeds, or the one before the run. -/
def lastLoaded (first : Loaded) (events : List Event) : Loaded :=
  (events.filterMap Event.loaded?).getLast?.getD first

/-- A session that stands as after a load: all it knows is of that load, and so are the
trees in its cache. -/
structure StandsAt (s : Session) (config : Config) (loaded : Loaded) : Prop where
  settings : s.config = config
  snapshot : s.snapshot = .ofLoaded config loaded
  fingerprint : s.cache.fingerprint = some loaded.model.catalog.fingerprint
  trees : ∀ folded depth tree, s.cache.kept? folded depth = some tree →
    ∃ m ∈ s.snapshot.catalog.measures, fold m.key = folded
      ∧ s.snapshot.graph.measureTree? m.table m.name depth = some tree

/-- A session that serves a load: it stands as after it, a load that fails leaves all as it
is, a tree it gives is the one of a measure of the catalog, and the cache makes no
difference where the keys of measures differ in more than case. -/
structure Serves (s : Session) (config : Config) (loaded : Loaded) : Prop where
  stands : s.StandsAt config loaded
  kept : ∀ model report e, Loaded.ofResults model report = .error e →
    s.receive (Loaded.ofResults model report) = (s, some e) ∧ s.after (.load model report) = s
  current : ∀ table name depth tree, (s.dependencyTree table name depth).1 = .ok tree →
    ∃ m, loaded.model.catalog.findMeasure? table name = some m
      ∧ ∃ other ∈ loaded.model.catalog.measures, fold other.key = fold m.key
        ∧ s.snapshot.graph.measureTree? other.table other.name (depth.getD config.maxDepth) =
          some tree
  fresh : (loaded.model.catalog.measures.map fun m => fold m.key).Nodup →
    ∀ table name depth, (s.dependencyTree table name depth).1 =
      s.snapshot.freshTree config table name depth

variable {s : Session} {config : Config} {loaded : Loaded}

/-- Loading the sources again is a load with what each of them gives. -/
theorem reload_eq_after (s : Session) (files : Storage.FileTree) :
    (s.reload files).1 =
      s.after (.load (s.sources.model.load files) (s.sources.report.map (·.load files))) := by
  rw [reload, Sources.load_eq_ofResults]
  rfl

/-- What a question for a tree does: it is refused, or a measure is found and the cache
asked for its tree. -/
theorem dependencyTree_cases (s : Session) (table name : String) (depth : Option Nat) :
    (s.dependencyTree table name depth = (s.snapshot.freshTree s.config table name depth, s)
        ∧ (s.dependencyTree table name depth).1.success = false)
      ∨ ∃ m, s.snapshot.catalog.findMeasure? table name = some m
          ∧ s.dependencyTree table name depth =
            (treeAnswer m (s.cache.getOrInsert m.key (depth.getD s.config.maxDepth) fun _ =>
                s.snapshot.graph.measureTree? m.table m.name (depth.getD s.config.maxDepth)).1,
              { s with
                cache := (s.cache.getOrInsert m.key (depth.getD s.config.maxDepth) fun _ =>
                  s.snapshot.graph.measureTree? m.table m.name
                    (depth.getD s.config.maxDepth)).2 })
          ∧ s.snapshot.freshTree s.config table name depth =
            treeAnswer m (s.snapshot.graph.measureTree? m.table m.name
              (depth.getD s.config.maxDepth)) := by
  rw [dependencyTree, Snapshot.freshTree]
  cases blank table || blank name with
  | true => exact Or.inl ⟨rfl, rfl⟩
  | false =>
      cases hfind : s.snapshot.catalog.findMeasure? table name with
      | none => exact Or.inl ⟨rfl, rfl⟩
      | some m => exact Or.inr ⟨m, rfl, rfl, rfl⟩

namespace StandsAt

theorem catalog_eq (h : s.StandsAt config loaded) :
    s.snapshot.catalog = loaded.model.catalog := by
  rw [h.snapshot]
  rfl

/-- After a load that succeeds a session stands as after that load. -/
theorem receive_ok (h : s.StandsAt config loaded) (next : Loaded) :
    (s.receive (.ok next)).1.StandsAt config next where
  settings := h.settings
  snapshot := by
    rw [← h.settings]
    rfl
  fingerprint := by
    rw [receive]
    simp only [Cache.adopt_invalidate]
  trees folded depth tree htree := by
    rw [receive] at htree
    simp only [Cache.adopt_invalidate] at htree
    -- the cache was emptied
    cases htree

theorem of_start (config : Config) (sources : Sources) (first : Loaded) :
    (start config sources first).StandsAt config first where
  settings := rfl
  snapshot := rfl
  fingerprint := rfl
  trees folded depth tree htree := by cases htree

/-- A question for a tree adds at most the tree of a measure of the catalog to the cache. -/
theorem dependencyTree (h : s.StandsAt config loaded) (table name : String)
    (depth : Option Nat) : (s.dependencyTree table name depth).2.StandsAt config loaded := by
  rcases dependencyTree_cases s table name depth with ⟨hsame, -⟩ | ⟨m, hfind, hasked, -⟩
  · rw [hsame]
    exact h
  · rw [hasked]
    refine ⟨h.settings, h.snapshot, ?_, fun folded d tree htree => ?_⟩
    · exact (Cache.fingerprint_getOrInsert _).trans h.fingerprint
    · rw [Cache.kept?_getOrInsert] at htree
      by_cases hplace : folded = fold m.key ∧ d = depth.getD s.config.maxDepth
      · rw [if_pos hplace, Option.or_eq_some_iff] at htree
        obtain ⟨rfl, rfl⟩ := hplace
        rcases htree with hkept | ⟨-, hmade⟩
        · exact h.trees _ _ tree hkept
        · exact ⟨m, Catalog.mem_measures_of_findMeasure? hfind, rfl, hmade⟩
      · rw [if_neg hplace] at htree
        exact h.trees folded d tree htree

/-- One event. -/
theorem after (h : s.StandsAt config loaded) (e : Event) :
    (s.after e).StandsAt config (e.loaded?.getD loaded) := by
  cases e with
  | ask question =>
      cases question with
      | dependencyTree table name depth => exact h.dependencyTree table name depth
      | catalog | resolve _ | resolveObject _ _ | impact _ | columnUsage _ _ | unusedObjects
        | diagnostics => exact h
  | load model report =>
      rw [Session.after, Event.loaded?]
      cases Loaded.ofResults model report with
      | error e => exact h
      | ok next => exact h.receive_ok next

/-- A run. -/
theorem run (h : s.StandsAt config loaded) (events : List Event) :
    (s.run events).StandsAt config (lastLoaded loaded events) := by
  induction events generalizing s loaded with
  | nil => exact h
  | cons e rest ih =>
      have hrest := ih (h.after e)
      have hlast : lastLoaded loaded (e :: rest) = lastLoaded (e.loaded?.getD loaded) rest := by
        rw [lastLoaded, lastLoaded, List.filterMap_cons]
        cases e.loaded? with
        | none => rfl
        | some next => rw [List.getLast?_cons, Option.getD_some, Option.getD_some]
      rw [hlast]
      exact hrest

/-- A tree that a measure is given, out of the cache or anew, is that of a measure with its
key in any case. -/
theorem exists_of_getOrInsert (h : s.StandsAt config loaded) {m : Measure}
    (hm : m ∈ s.snapshot.catalog.measures) {depth : Nat} {tree : Tree}
    (htree : (s.cache.getOrInsert m.key depth fun _ =>
      s.snapshot.graph.measureTree? m.table m.name depth).1 = some tree) :
    ∃ other ∈ s.snapshot.catalog.measures, fold other.key = fold m.key
      ∧ s.snapshot.graph.measureTree? other.table other.name depth = some tree := by
  rw [Cache.getOrInsert_fst, Option.or_eq_some_iff] at htree
  rcases htree with hkept | ⟨-, hmade⟩
  · exact h.trees _ _ tree hkept
  · exact ⟨m, hm, rfl, hmade⟩

/-- Where the keys of measures differ in more than case, a measure is given its own tree. -/
theorem getOrInsert_eq (h : s.StandsAt config loaded)
    (hapart : (s.snapshot.catalog.measures.map fun m => fold m.key).Nodup) {m : Measure}
    (hm : m ∈ s.snapshot.catalog.measures) (depth : Nat) :
    (s.cache.getOrInsert m.key depth fun _ =>
        s.snapshot.graph.measureTree? m.table m.name depth).1 =
      s.snapshot.graph.measureTree? m.table m.name depth := by
  rw [Cache.getOrInsert_fst]
  cases hkept : s.cache.find? m.key depth with
  | none => rfl
  | some tree =>
      obtain ⟨other, hother, hkey, htree⟩ := h.trees _ _ tree hkept
      have hsame : other = m := List.inj_on_of_nodup_map hapart hother hm hkey
      rw [← hsame, htree, Option.some_or]

end StandsAt

theorem serves_of_standsAt (h : s.StandsAt config loaded) : s.Serves config loaded where
  stands := h
  kept model report e he := by
    rw [Session.after, he]
    exact ⟨rfl, rfl⟩
  current table name depth tree htree := by
    rcases dependencyTree_cases s table name depth with ⟨-, hrefused⟩ | ⟨m, hfind, hasked, -⟩
    · rw [htree] at hrefused
      cases hrefused
    · rw [hasked] at htree
      have hmem := Catalog.mem_measures_of_findMeasure? hfind
      have hgiven := h.exists_of_getOrInsert hmem (treeAnswer_eq_ok_iff.mp htree)
      rw [h.catalog_eq] at hfind hgiven
      rw [h.settings] at hgiven
      exact ⟨m, hfind, hgiven⟩
  fresh hapart table name depth := by
    rw [← h.catalog_eq] at hapart
    rw [← h.settings]
    rcases dependencyTree_cases s table name depth with ⟨hsame, -⟩ | ⟨m, hfind, hasked, hfresh⟩
    · rw [hsame]
    · rw [hasked, hfresh]
      exact congrArg (treeAnswer m)
        (h.getOrInsert_eq hapart (Catalog.mem_measures_of_findMeasure? hfind) _)

/-- After any run, a session serves the last load that succeeded. -/
theorem serves_run (config : Config) (sources : Sources) (first : Loaded)
    (events : List Event) :
    ((start config sources first).run events).Serves config (lastLoaded first events) :=
  serves_of_standsAt ((StandsAt.of_start config sources first).run events)

end Session

end Tabular
