import Mathlib.Data.List.Nodup
import Mathlib.Logic.Relation
import Tabular.Proofs.Ordered.SortedMap
import Tabular.Source.ModelFolder

/-!
# Loading a folder with several workers

The files of a folder are handed out in path order, never more of them at once than there
are workers. A worker may finish at any time, and when all files are handed out the results
are taken in, in any order. `Loading.Step` is one such event, and a run is a sequence of
them.

Three facts carry the result. What was taken in, is finished, runs or waits is one list of
results up to order, and no event adds to it or takes from it. A result knows the position
of its file, and positions are all different, so there is one way to put the results back
into order. And every event brings some file nearer to being taken in, so a run that goes on
comes to an end, where what was taken in is all there is.
-/

namespace Tabular.Source

open Ordered Storage
open Relation (ReflTransGen)

/-- Paths in path order are those of the definition files below a folder: the files with the
right ending that are in none of the ignored folders. -/
structure InPathOrder (files : FileTree) (folder : FilePath) (paths : List FilePath) : Prop where
  sorted : paths.Pairwise fun p q => compare p q = .lt
  complete : ∀ p, p ∈ paths ↔ (∃ bytes, files.entries.get? (folder ++ p) = some (.file bytes))
    ∧ p.getLast?.any isDefinitionName = true ∧ p.dropLast.any ignoredFolders.contains = false

/-- The definition in a file below a folder, if the file can be read. -/
def rootAt? (files : FileTree) (folder p : FilePath) : Option Definition.Node :=
  match files.readText (folder ++ p) with
  | .ok text => some (Definition.parse text p.label).root
  | .error _ => none

/-- What is noticed in a file below a folder: what its parser notices, or that it was left
out. -/
def notesAt (files : FileTree) (folder p : FilePath) : List Diagnostic :=
  match files.readText (folder ++ p) with
  | .ok text => (Definition.parse text p.label).diagnostics
  | .error cause => [ParsedFile.skipNote p.label cause]

/-- The model that files give one after the other. -/
def modelOf (files : FileTree) (folder : FilePath) (paths : List FilePath) : LoadedModel where
  catalog := .ofDocuments (paths.filterMap (rootAt? files folder))
  diagnostics := paths.flatMap (notesAt files folder)

/-- A load under way. Each file goes from one list to the next: it waits with its position,
a worker has it, its result is there, and the result was taken in. -/
structure Loading where
  waiting : List (Nat × FilePath)
  running : List (Nat × FilePath)
  finished : List ParsedFile
  joined : List ParsedFile

namespace Loading

def start (paths : List FilePath) : Loading where
  waiting := paths.mapIdx fun position p => (position, p)
  running := []
  finished := []
  joined := []

/-- Nothing is left to be taken in. -/
def IsDone (s : Loading) : Prop := s.waiting = [] ∧ s.running = [] ∧ s.finished = []

/-- The result of the file at a position. -/
def result (files : FileTree) (folder : FilePath) (f : Nat × FilePath) : ParsedFile :=
  .read files folder f.1 f.2

/-- One event of a load. -/
inductive Step (files : FileTree) (folder : FilePath) (workers : Nat) : Loading → Loading → Prop
  /-- A free worker gets the next file. -/
  | spawn {f waiting running finished joined} (hfree : running.length < workers) :
      Step files folder workers ⟨f :: waiting, running, finished, joined⟩
        ⟨waiting, running ++ [f], finished, joined⟩
  /-- Some worker is ready. -/
  | finish (front) {waiting f back finished joined} :
      Step files folder workers ⟨waiting, front ++ f :: back, finished, joined⟩
        ⟨waiting, front ++ back, result files folder f :: finished, joined⟩
  /-- Some result is taken in, after all files were handed out. -/
  | join (front) {running r back joined} :
      Step files folder workers ⟨[], running, front ++ r :: back, joined⟩
        ⟨[], running, front ++ back, joined ++ [r]⟩

/-- All results, those to come included. -/
def results (files : FileTree) (folder : FilePath) (s : Loading) : List ParsedFile :=
  s.joined ++ s.finished ++ s.running.map (result files folder)
    ++ s.waiting.map (result files folder)

/-- How many events there still are. -/
def left (s : Loading) : Nat :=
  3 * s.waiting.length + 2 * s.running.length + s.finished.length

variable {files : FileTree} {folder : FilePath} {workers : Nat} {s s' : Loading}

theorem perm_results_of_step (h : Step files folder workers s s') :
    (s'.results files folder).Perm (s.results files folder) := by
  cases h with
  | spawn _ => simp [results]
  | @finish front waiting f back finished joined =>
      simp only [results, List.map_append, List.map_cons, List.append_assoc, List.cons_append]
      refine List.Perm.append_left joined ?_
      rw [← List.append_assoc finished, ← List.append_assoc finished]
      exact List.perm_middle.symm
  | @join front running r back joined =>
      simp only [results, List.map_nil, List.append_nil, List.append_assoc, List.cons_append,
        List.nil_append]
      exact List.Perm.append_left joined List.perm_middle.symm

theorem left_of_step (h : Step files folder workers s s') : s'.left + 1 = s.left := by
  cases h with
  | spawn _ => simp only [left, List.length_cons, List.length_append, List.length_nil]; omega
  | finish _ => simp only [left, List.length_cons, List.length_append]; omega
  | join _ => simp only [left, List.length_cons, List.length_append]; omega

theorem running_le_of_step (h : Step files folder workers s s')
    (hle : s.running.length ≤ workers) : s'.running.length ≤ workers := by
  cases h with
  | spawn hfree =>
      rw [List.length_append]
      exact hfree
  | finish =>
      simp only [List.length_cons, List.length_append] at hle ⊢
      omega
  | join => exact hle

/-- As long as something is left, something can happen: a worker is free or has a file, or
all workers are free and there are results. -/
theorem exists_step (hworkers : 0 < workers) (h : ¬ s.IsDone) :
    ∃ s', Step files folder workers s s' := by
  obtain ⟨waiting, running, finished, joined⟩ := s
  cases running with
  | cons f running => exact ⟨_, .finish []⟩
  | nil =>
      cases waiting with
      | cons f waiting => exact ⟨_, .spawn hworkers⟩
      | nil =>
          cases finished with
          | cons r finished => exact ⟨_, .join []⟩
          | nil => exact absurd ⟨rfl, rfl, rfl⟩ h

theorem wellFounded_step : WellFounded fun s' s => Step files folder workers s s' := by
  refine Subrelation.wf (r := InvImage (· < ·) left) (fun h => ?_)
    (InvImage.wf left Nat.lt_wfRel.wf)
  have := left_of_step h
  show left _ < left _
  omega

/-- What holds of a run: no more files are at work than there are workers, and no result is
lost or there twice. -/
theorem of_run (h : ReflTransGen (Step files folder workers)
    (start (definitionFiles files folder)) s) :
    s.running.length ≤ workers ∧ (s.results files folder).Perm (parsedFiles files folder) := by
  induction h with
  | refl =>
      refine ⟨Nat.zero_le _, ?_⟩
      have hall : (start (definitionFiles files folder)).results files folder =
          parsedFiles files folder := by
        simp [results, start, parsedFiles, List.mapIdx_eq_zipIdx_map, result,
          Function.comp_def]
      rw [hall]
  | tail _ hstep ih =>
      exact ⟨running_le_of_step hstep ih.1, (perm_results_of_step hstep).trans ih.2⟩

end Loading

/-! ## One order of the results -/

variable {files : FileTree} {folder : FilePath}

theorem map_position_parsedFiles (files : FileTree) (folder : FilePath) :
    (parsedFiles files folder).map (·.position) =
      List.range (parsedFiles files folder).length := by
  refine List.ext_getElem (by simp) fun i hi _ => ?_
  simp [parsedFiles, ParsedFile.read]

/-- Whatever order results are taken in, sorting puts them back into path order. -/
theorem mergeSort_of_perm {results : List ParsedFile}
    (h : results.Perm (parsedFiles files folder)) :
    results.mergeSort (fun a b => a.position ≤ b.position) = parsedFiles files folder := by
  have hpositions := map_position_parsedFiles files folder
  have hsorted : (parsedFiles files folder).Pairwise fun a b => a.position ≤ b.position := by
    refine List.pairwise_map.mp ?_
    rw [hpositions]
    exact List.pairwise_le_range
  have hapart : ((parsedFiles files folder).map (·.position)).Nodup := by
    rw [hpositions]
    exact List.nodup_range
  have hperm := (List.mergeSort_perm results fun a b => a.position ≤ b.position).trans h
  refine hperm.eq_of_pairwise ?_ ?_ hsorted
  · intro a b ha hb hab hba
    exact List.inj_on_of_nodup_map hapart (hperm.subset ha) hb (Nat.le_antisymm hab hba)
  · refine (List.pairwise_mergeSort ?_ ?_ results).imp of_decide_eq_true
    · intro a b c hab hbc
      rw [decide_eq_true_eq] at hab hbc ⊢
      exact Nat.le_trans hab hbc
    · intro a b
      simp [Nat.le_total]

theorem root?_read (position : Nat) (p : FilePath) :
    (ParsedFile.read files folder position p).root? = rootAt? files folder p := by
  rw [ParsedFile.root?, ParsedFile.read, rootAt?]
  cases files.readText (folder ++ p) <;> rfl

theorem diagnostics_read (position : Nat) (p : FilePath) :
    (ParsedFile.read files folder position p).diagnostics = notesAt files folder p := by
  rw [ParsedFile.diagnostics, ParsedFile.read, notesAt]
  cases files.readText (folder ++ p) <;> rfl

/-- The results of all files, without their positions, are those of their paths. -/
theorem collect_parsedFiles_eq {β : Type} {files : FileTree} {folder : FilePath}
    {f : ParsedFile → List β} {g : FilePath → List β}
    (h : ∀ position p, f (.read files folder position p) = g p) :
    (parsedFiles files folder).flatMap f = (definitionFiles files folder).flatMap g := by
  rw [parsedFiles, List.mapIdx_eq_zipIdx_map, List.flatMap_map]
  simp only [h]
  rw [← List.flatMap_map, List.zipIdx_map_fst]

theorem collect_of_perm {results : List ParsedFile}
    (h : results.Perm (parsedFiles files folder)) :
    collect results = modelOf files folder (definitionFiles files folder) := by
  rw [collect, mergeSort_of_perm h, modelOf]
  have hroots : (parsedFiles files folder).filterMap (·.root?) =
      (definitionFiles files folder).filterMap (rootAt? files folder) := by
    simp only [List.filterMap_eq_flatMap_toList]
    exact collect_parsedFiles_eq fun position p => congrArg _ (root?_read position p)
  have hnotes : (parsedFiles files folder).flatMap (·.diagnostics) =
      (definitionFiles files folder).flatMap (notesAt files folder) :=
    collect_parsedFiles_eq diagnostics_read
  simp only [hroots, hnotes]

/-! ## Path order -/

theorem isPrefixOf?_eq_some_iff {p rest : FilePath} :
    folder.isPrefixOf? p = some rest ↔ p = folder ++ rest := by
  induction folder generalizing p with
  | nil => simp [List.isPrefixOf?]
  | cons name folder ih =>
      cases p with
      | nil => simp [List.isPrefixOf?]
      | cons name' p =>
          rw [List.isPrefixOf?, Option.ite_none_right_eq_some, beq_iff_eq, ih, List.cons_append,
            List.cons.injEq, eq_comm]

theorem compare_append_left (folder p q : FilePath) :
    compare (folder ++ p) (folder ++ q) = compare p q := by
  induction folder with
  | nil => rfl
  | cons name folder ih =>
      have hname : compare name name = .eq := Std.ReflCmp.compare_self
      rw [List.cons_append, List.cons_append, List.compare_cons_cons, ih, hname]
      rfl

/-- What stands below a folder, with the path from there. -/
def standsBelow? (folder : FilePath) (e : FilePath × Entry) : Option (FilePath × Entry) :=
  match folder.isPrefixOf? e.1 with
  | some (name :: rest) => some (name :: rest, e.2)
  | _ => none

theorem standsBelow?_eq_some_iff {e e' : FilePath × Entry} :
    standsBelow? folder e = some e' ↔ e'.1 ≠ [] ∧ e = (folder ++ e'.1, e'.2) := by
  obtain ⟨p, entry⟩ := e
  obtain ⟨p', entry'⟩ := e'
  simp only [standsBelow?, Prod.mk.injEq]
  split
  · next name rest hprefix =>
      rw [isPrefixOf?_eq_some_iff] at hprefix
      subst hprefix
      rw [Option.some.injEq, Prod.mk.injEq, List.append_cancel_left_eq]
      refine ⟨?_, ?_⟩
      · intro h
        exact ⟨by rw [← h.1]; exact List.cons_ne_nil name rest, h⟩
      · exact fun h => h.2
  · next hnone =>
      refine iff_of_false (fun h => nomatch h) fun h => ?_
      obtain ⟨name, rest, hp⟩ := List.exists_cons_of_ne_nil h.1
      exact hnone name rest (isPrefixOf?_eq_some_iff.mpr (hp ▸ h.2.1))

theorem below_eq (files : FileTree) (folder : FilePath) :
    files.below folder = files.entries.toList.filterMap (standsBelow? folder) := rfl

theorem mem_below {p : FilePath} {e : Entry} :
    (p, e) ∈ files.below folder ↔ p ≠ [] ∧ files.entries.get? (folder ++ p) = some e := by
  rw [below_eq, List.mem_filterMap, ← SortedMap.mem_toList_iff]
  refine ⟨?_, ?_⟩
  · intro h
    obtain ⟨_, hmem, hbelow⟩ := h
    obtain ⟨hne, rfl⟩ := standsBelow?_eq_some_iff.mp hbelow
    exact ⟨hne, hmem⟩
  · intro h
    exact ⟨_, h.2, standsBelow?_eq_some_iff.mpr ⟨h.1, rfl⟩⟩

/-- A folder is walked in path order. -/
theorem below_pairwise (files : FileTree) (folder : FilePath) :
    (files.below folder).Pairwise fun a b => compare a.1 b.1 = .lt := by
  rw [below_eq, List.pairwise_filterMap]
  refine files.entries.sorted.imp fun {a b} hlt a' ha b' hb => ?_
  obtain ⟨-, rfl⟩ := standsBelow?_eq_some_iff.mp ha
  obtain ⟨-, rfl⟩ := standsBelow?_eq_some_iff.mp hb
  rwa [compare_append_left] at hlt

theorem isDefinitionFile_iff {p : FilePath} {e : Entry} :
    isDefinitionFile (p, e) = true ↔ (∃ bytes, e = .file bytes)
      ∧ p.getLast?.any isDefinitionName = true
      ∧ p.dropLast.any ignoredFolders.contains = false := by
  cases e with
  | folder => exact iff_of_false Bool.false_ne_true fun h => nomatch h.1
  | file bytes =>
      have hfile : ∃ b, Entry.file bytes = .file b := ⟨bytes, rfl⟩
      rw [isDefinitionFile, Bool.and_eq_true, Bool.not_eq_true', and_iff_right hfile]

theorem inPathOrder_definitionFiles (files : FileTree) (folder : FilePath) :
    InPathOrder files folder (definitionFiles files folder) where
  sorted := List.pairwise_map.mpr ((below_pairwise files folder).filter _)
  complete p := by
    simp only [definitionFiles, List.mem_map, List.mem_filter, Prod.exists, exists_eq_right,
      exists_and_right, mem_below, isDefinitionFile_iff]
    refine ⟨?_, ?_⟩
    · intro h
      obtain ⟨_, ⟨-, hget⟩, ⟨bytes, rfl⟩, hname, hfolders⟩ := h
      exact ⟨⟨bytes, hget⟩, hname, hfolders⟩
    · intro h
      obtain ⟨⟨bytes, hget⟩, hname, hfolders⟩ := h
      have hne : p ≠ [] := by
        intro hp
        rw [hp] at hname
        exact Bool.false_ne_true hname
      exact ⟨_, ⟨hne, hget⟩, ⟨bytes, rfl⟩, hname, hfolders⟩

/-- The model in a folder is that of its definition files in path order, and every run of a
load gives it, however many workers there are and whatever order they are ready in: no more
files than workers are at work, something can happen as long as anything is left, a run comes
to an end, and what was taken in then gives the model. -/
theorem loadModelFolder_anyOrder (files : FileTree) (location : String) (folder : FilePath)
    (h : files.folderAt? location = some folder) :
    InPathOrder files folder (definitionFiles files folder)
      ∧ loadModelFolder files location =
          .ok (modelOf files folder (definitionFiles files folder))
      ∧ ∀ workers, WellFounded (fun s' s => Loading.Step files folder (max workers 1) s s')
        ∧ ∀ s, ReflTransGen (Loading.Step files folder (max workers 1))
            (.start (definitionFiles files folder)) s →
          s.running.length ≤ max workers 1
            ∧ (¬ s.IsDone → ∃ s', Loading.Step files folder (max workers 1) s s')
            ∧ (s.IsDone → collect s.joined =
                modelOf files folder (definitionFiles files folder)) := by
  refine ⟨inPathOrder_definitionFiles files folder, ?_, ?_⟩
  · rw [loadModelFolder, h]
    exact congrArg Except.ok (collect_of_perm (List.Perm.refl _))
  · intro workers
    refine ⟨Loading.wellFounded_step, fun s hrun => ?_⟩
    obtain ⟨hle, hperm⟩ := Loading.of_run hrun
    refine ⟨hle, Loading.exists_step (Nat.lt_of_lt_of_le Nat.one_pos (Nat.le_max_right ..)), ?_⟩
    intro hdone
    obtain ⟨hwaiting, hrunning, hfinished⟩ := hdone
    refine collect_of_perm ?_
    rwa [Loading.results, hwaiting, hrunning, hfinished, List.map_nil, List.append_nil,
      List.append_nil, List.append_nil] at hperm

/-- A folder of a definition file that can be read and one that cannot. -/
def readableAndNot : FileTree :=
  (FileTree.putFile ⟨∅⟩ ["m", "a.tmdl"] "table Sales".toUTF8).putFile
    ["m", "b.tmdl"] ⟨#[255]⟩

/-- Two workers, of which the second is ready first. -/
theorem loadModelFolder_anyOrder_readableAndNot :
    readableAndNot.folderAt? "m" = some ["m"]
      ∧ loadModelFolder readableAndNot "m" =
          .ok (modelOf readableAndNot ["m"] [["a.tmdl"], ["b.tmdl"]])
      ∧ collect [.read readableAndNot ["m"] 1 ["b.tmdl"],
          .read readableAndNot ["m"] 0 ["a.tmdl"]] =
          modelOf readableAndNot ["m"] [["a.tmdl"], ["b.tmdl"]] := by
  have hsteps : "m".splitOn "/" = ["m"] := by
    rw [String.splitOn, if_neg (by decide), String.splitOnAux, if_neg (by decide),
      if_neg (by decide), String.splitOnAux, if_pos (by decide)]
    decide
  have hfolder : readableAndNot.folderAt? "m" = some ["m"] := by
    rw [FileTree.folderAt?, FileTree.find, hsteps]
    decide +kernel
  have hpaths : definitionFiles readableAndNot ["m"] = [["a.tmdl"], ["b.tmdl"]] := by
    decide +kernel
  obtain ⟨-, hload, hruns⟩ := loadModelFolder_anyOrder _ _ _ hfolder
  rw [hpaths] at hload hruns
  refine ⟨hfolder, hload, ((hruns 2).2 ⟨[], [], [], _⟩ ?_).2.2 ⟨rfl, rfl, rfl⟩⟩
  -- both are handed out, the second is ready and then the first, and they come in like that
  refine .head (.spawn (by decide)) (.head (.spawn (by decide)) ?_)
  refine .head (.finish [(0, ["a.tmdl"])]) (.head (.finish []) ?_)
  refine .head (.join [_]) (.head (.join []) .refl)

end Tabular.Source
