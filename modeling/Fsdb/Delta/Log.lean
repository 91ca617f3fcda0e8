import Fsdb.Utf8

/-!
# The transaction log and its data files

Modelled from the spec: the log, its replay and vacuum are not part of `src/`, which holds
the NFS server that lists the table's files. A commit is an ordered list of actions, and
replaying the commits in order yields the live file set of the latest snapshot: the files
added and not removed since. A commit writes the files it adds. A `RemoveFile` only
tombstones its file, whose bytes stay on disk until vacuum deletes them, and vacuum deletes
a tombstoned file only after checking by replay that it is no longer live. So over every
run of commits and vacuums, every live file is on disk (`live_subset_files`), while the
disk may also hold tombstoned files.
-/

namespace Fsdb.Delta

/-- An action of a commit, with the data the live set depends on: an `AddFile`'s size,
statistics and row count and a `RemoveFile`'s deletion time are left out. -/
inductive Action where
  /-- `AddFile{path, ..}`: registers a new data file in the live set. -/
  | addFile (path : Str)
  /-- `RemoveFile{path, ..}`: the tombstone that drops a file from the live set. -/
  | removeFile (path : Str)
  /-- `UpdateMetadata`: leaves the live set alone. -/
  | updateMetadata
  deriving DecidableEq

/-- Replaying one action on a live set, which holds each path once. -/
def Action.replay (live : List Str) : Action → List Str
  | .addFile p => if p ∈ live then live else live ++ [p]
  | .removeFile p => live.erase p
  | .updateMetadata => live

/-- The data file a commit writes for an action. -/
def Action.written : Action → Option Str
  | .addFile p => some p
  | _ => none

/-- The table: its log of commits, version 0 first, and the data files on disk. -/
structure Store where
  /-- The actions of each commit. -/
  log : List (List Action)
  /-- The data files whose bytes are on disk. -/
  files : List Str

/-- The live file set of the latest snapshot: the log's actions replayed in order. -/
def Store.live (st : Store) : List Str := st.log.flatten.foldl Action.replay []

/-- What can happen to the table. -/
inductive Op where
  /-- A commit of these actions at the next version, which writes the files it adds. -/
  | commit (actions : List Action)
  /-- Vacuum over the tombstoned files whose retention has passed: it deletes each one
  that replay shows is no longer live, and skips the others. -/
  | vacuum (candidates : List Str)

/-- The table after an operation. -/
def Store.apply (st : Store) : Op → Store
  | .commit actions => ⟨st.log ++ [actions], st.files ++ actions.filterMap Action.written⟩
  | .vacuum candidates => ⟨st.log, st.files.filter fun p => !(p ∈ candidates && p ∉ st.live)⟩

/-- The table after a run of operations. -/
def Store.run (st : Store) (ops : List Op) : Store := ops.foldl Store.apply st

/-- A table with no commit and no file. -/
def Store.empty : Store := ⟨[], []⟩

/-- Replaying actions keeps a live file or makes live a file the actions add. -/
theorem mem_replay {live : List Str} {actions : List Action} {p : Str}
    (h : p ∈ actions.foldl Action.replay live) :
    p ∈ live ∨ p ∈ actions.filterMap Action.written := by
  induction actions generalizing live with
  | nil => exact .inl h
  | cons a actions ih =>
    rcases ih h with h | h
    · cases a with
      | addFile q =>
        simp only [Action.replay] at h
        split_ifs at h
        · exact .inl h
        · rcases List.mem_append.mp h with h | h
          · exact .inl h
          · exact .inr (by simp_all [Action.written])
      | removeFile q => exact .inl (List.mem_of_mem_erase h)
      | updateMetadata => exact .inl h
    · exact .inr (by cases a <;> simp_all [Action.written])

/-- One operation keeps every live file on disk: a commit writes the files it adds, and
vacuum deletes no live file. -/
theorem Store.live_subset_apply {st : Store} (h : st.live ⊆ st.files) (op : Op) :
    (st.apply op).live ⊆ (st.apply op).files := by
  cases op with
  | commit actions =>
    intro p hp
    simp only [Store.apply, Store.live, List.flatten_append, List.flatten_singleton,
      List.foldl_append] at hp ⊢
    rcases mem_replay hp with hp | hp
    · exact List.mem_append_left _ (h hp)
    · exact List.mem_append_right _ hp
  | vacuum candidates =>
    intro p hp
    simp only [Store.apply, Store.live] at hp ⊢
    simp [h hp, hp, Store.live]

/-- Over every run of commits and vacuums from an empty table, every live file is on disk. -/
theorem live_subset_files (ops : List Op) :
    (Store.empty.run ops).live ⊆ (Store.empty.run ops).files := by
  suffices ∀ st : Store, st.live ⊆ st.files → (st.run ops).live ⊆ (st.run ops).files from
    this _ (by simp [Store.empty, Store.live])
  induction ops with
  | nil => exact fun _ h => h
  | cons op ops ih => exact fun st h => ih _ (Store.live_subset_apply h op)

end Fsdb.Delta
