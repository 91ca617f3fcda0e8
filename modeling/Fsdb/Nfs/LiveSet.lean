import Fsdb.Nfs.Parquet
import Fsdb.Delta.Log

/-!
# The registered parquet files against the live set

`refresh_parquet_files` registers the regular `.parquet` files that `read_dir` yields from
the base directory, and never reads the log. The base directory holds every data file whose
bytes are on disk: the live ones, and the ones a commit has tombstoned until vacuum deletes
them. So the map holds every live file, and also every tombstoned file not yet vacuumed; it
is the live set exactly when no such file is left.
-/

namespace Fsdb.Nfs

open Fsdb.Delta

/-- The base directory holds the table's data files: its regular parquet files are exactly
the files on disk, each under the bytes of its path. -/
structure HoldsFiles (st : Store) (d : List OsEntry) : Prop where
  /-- Every parquet file of the directory is a data file of the table. -/
  entry_file : ∀ e ∈ d, e.isParquet → ∃ p ∈ st.files, e.name = p.bytes
  /-- Every data file on disk is a parquet file of the directory. -/
  file_entry : ∀ p ∈ st.files, ∃ e ∈ d, e.isParquet ∧ e.name = p.bytes

instance (st : Store) (d : List OsEntry) : Decidable (HoldsFiles st d) :=
  decidable_of_iff ((∀ e ∈ d, e.isParquet → ∃ p ∈ st.files, e.name = p.bytes) ∧
      ∀ p ∈ st.files, ∃ e ∈ d, e.isParquet ∧ e.name = p.bytes)
    ⟨fun ⟨h1, h2⟩ => ⟨h1, h2⟩, fun ⟨h1, h2⟩ => ⟨h1, h2⟩⟩

/-- A name is registered under some id exactly when it is one of the names the loop
inserts. -/
theorem registered_iff (es : List (Option OsEntry)) (p : Str) :
    (∃ i, (refreshParquetFiles (some es)).1.get i = some p) ↔ p ∈ parquetNames es := by
  simp only [refreshParquetFiles_get]
  constructor
  · rintro ⟨i, hi⟩
    split_ifs at hi
    exact List.mem_iff_getElem?.mpr ⟨_, hi⟩
  · intro hp
    obtain ⟨n, hn⟩ := List.mem_iff_getElem?.mp hp
    exact ⟨n + parquetFileIdStart, by simp [hn]⟩

/-- With the base directory holding the table's files and `read_dir` reading every entry,
the refresh registers exactly the files on disk. -/
theorem registered_iff_files {st : Store} {d : List OsEntry} (hd : HoldsFiles st d)
    {order : List OsEntry} (hperm : order.Perm d) (p : Str) :
    (∃ i, (refreshParquetFiles (some (order.map some))).1.get i = some p) ↔ p ∈ st.files := by
  rw [registered_iff]
  simp only [parquetNames, List.filterMap_map, Function.id_comp, List.filterMap_some,
    List.mem_map, List.mem_filter]
  constructor
  · rintro ⟨e, ⟨he, hpq⟩, rfl⟩
    obtain ⟨q, hq, hname⟩ := hd.entry_file e (hperm.subset he) hpq
    rwa [hname, fromUtf8Lossy_bytes]
  · intro hp
    obtain ⟨e, he, hpq, hname⟩ := hd.file_entry p hp
    exact ⟨e, ⟨hperm.symm.subset he, hpq⟩, by rw [hname, fromUtf8Lossy_bytes]⟩

/-- After any run of commits and vacuums, with the base directory holding the table's files
and `read_dir` reading every entry, the refresh registers exactly the files on disk; these
include every live file, and they are the live set exactly when every file on disk is live,
that is when vacuum has deleted every tombstoned file. -/
theorem refresh_registers_files (ops : List Op) {d : List OsEntry}
    (hd : HoldsFiles (Store.empty.run ops) d) {order : List OsEntry} (hperm : order.Perm d) :
    (∀ p, (∃ i, (refreshParquetFiles (some (order.map some))).1.get i = some p) ↔
      p ∈ (Store.empty.run ops).files) ∧
    (∀ p ∈ (Store.empty.run ops).live,
      ∃ i, (refreshParquetFiles (some (order.map some))).1.get i = some p) ∧
    ((∀ p, (∃ i, (refreshParquetFiles (some (order.map some))).1.get i = some p) ↔
        p ∈ (Store.empty.run ops).live) ↔
      ∀ p ∈ (Store.empty.run ops).files, p ∈ (Store.empty.run ops).live) := by
  have hreg := registered_iff_files hd hperm
  have hlive := live_subset_files ops
  refine ⟨hreg, fun p hp => (hreg p).mpr (hlive hp), ?_⟩
  simp only [hreg]
  exact ⟨fun h p hp => (h p).mp hp, fun h p => ⟨h p, fun hp => hlive hp⟩⟩

/-- A compaction that rewrites `a.parquet` into `b.parquet`, and the vacuum that deletes
`a.parquet`. -/
def compactAndVacuum : List Op :=
  [.commit [.addFile (fromUtf8Lossy sampleA.name)],
    .commit [.removeFile (fromUtf8Lossy sampleA.name), .addFile (fromUtf8Lossy sampleB.name)],
    .vacuum [fromUtf8Lossy sampleA.name]]

/-- `refresh_registers_files` after the vacuum, over a directory holding `b.parquet`. -/
theorem refresh_registers_files_sample :
    HoldsFiles (Store.empty.run compactAndVacuum) [sampleB] ∧ [sampleB].Perm [sampleB] ∧
    ((∀ p, (∃ i, (refreshParquetFiles (some ([sampleB].map some))).1.get i = some p) ↔
      p ∈ (Store.empty.run compactAndVacuum).files) ∧
    (∀ p ∈ (Store.empty.run compactAndVacuum).live,
      ∃ i, (refreshParquetFiles (some ([sampleB].map some))).1.get i = some p) ∧
    ((∀ p, (∃ i, (refreshParquetFiles (some ([sampleB].map some))).1.get i = some p) ↔
        p ∈ (Store.empty.run compactAndVacuum).live) ↔
      ∀ p ∈ (Store.empty.run compactAndVacuum).files,
        p ∈ (Store.empty.run compactAndVacuum).live)) :=
  ⟨by decide, .refl _, refresh_registers_files compactAndVacuum (by decide) (.refl _)⟩

/-- Before the vacuum, the compaction's tombstoned `a.parquet` is still on disk, and the
refresh registers it under id 100 although it is not live. -/
theorem refresh_registers_tombstoned_file :
    HoldsFiles (Store.empty.run (compactAndVacuum.take 2)) [sampleA, sampleB] ∧
      Action.removeFile (fromUtf8Lossy sampleA.name) ∈
        (Store.empty.run (compactAndVacuum.take 2)).log.flatten ∧
      fromUtf8Lossy sampleA.name ∉ (Store.empty.run (compactAndVacuum.take 2)).live ∧
      (refreshParquetFiles (some [some sampleA, some sampleB])).1.get 100 =
        some (fromUtf8Lossy sampleA.name) := by
  decide

end Fsdb.Nfs
