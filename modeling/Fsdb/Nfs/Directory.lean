import Mathlib.Data.List.Nodup
import Fsdb.Nfs.Handlers

/-!
# Lookup and directory listing

`lookup` in the data directory answers `data.csv` at once and otherwise refreshes the
parquet map and returns the first id, in the map's iteration order, whose path has the
requested base name. `readdir` of the data directory lists `data.csv` and then the parquet
map in iteration order, each entry whose id is past `start_after` while the page has room,
and always reports the page as the end of the listing.
-/

namespace Fsdb.Nfs

open Fsdb.Path

variable {Tbl : Type}

/-- `FsdbFilesystem::lookup`, given what `read_dir` returns and the map's iteration order. -/
def lookup (fs : Fs Tbl) (dirid : Nat) (filename : List UInt8) (listing : Listing)
    (ord : HashOrder) : Except Nfsstat3 Nat × Fs Tbl :=
  let name := fromUtf8Lossy filename
  if dirid = rootId then (if name = dataName then .ok dataDirId else .error .noent, fs)
  else if dirid = dataDirId then
    if name = dataCsvName then (.ok dataCsvId, fs)
    else
      let fs' := { fs with parquetFiles := (refreshParquetFiles listing).1 }
      match (refreshParquetFiles listing).2 with
      | .error e => (.error e, fs')
      | .ok () =>
        match (fs'.parquetFiles.iter ord).find? (fun entry => basename entry.2 = name) with
        | some (id, _) => (.ok id, fs')
        | none => (.error .noent, fs')
  else (.error .notdir, fs)

/-- The state `lookup` leaves: the parquet map refreshed, whatever the refresh returns, for a
name other than `data.csv` in the data directory, and otherwise the state as it was. -/
theorem lookup_snd (fs : Fs Tbl) (dirid : Nat) (filename : List UInt8) (listing : Listing)
    (ord : HashOrder) :
    (lookup fs dirid filename listing ord).2 =
      if dirid = dataDirId ∧ fromUtf8Lossy filename ≠ dataCsvName then
        { fs with parquetFiles := (refreshParquetFiles listing).1 }
      else fs := by
  unfold lookup
  dsimp only
  split_ifs <;> (try split) <;> (try split) <;> first | rfl | simp_all [rootId, dataDirId]

/-- `refresh_parquet_files` clears the map before `read_dir`: a lookup in the data directory
of a name other than `data.csv` whose `read_dir` fails answers `NFS3ERR_IO` and leaves the
map empty. -/
theorem lookup_failed_listing (fs : Fs Tbl) {filename : List UInt8}
    (hname : fromUtf8Lossy filename ≠ dataCsvName) (ord : HashOrder) :
    lookup fs dataDirId filename none ord = (.error .io, { fs with parquetFiles := .empty }) := by
  simp [lookup, hname, refreshParquetFiles, show dataDirId ≠ rootId by decide]

/-- The second critical section of `lookup` in the data directory: the search of the map
under the lock it takes after `refresh_parquet_files` has returned and released it. -/
def lookupScan (fs : Fs Tbl) (name : Str) (ord : HashOrder) : Except Nfsstat3 Nat :=
  match (fs.parquetFiles.iter ord).find? (fun entry => basename entry.2 = name) with
  | some (id, _) => .ok id
  | none => .error .noent

/-- The search reads the map's entries only. -/
theorem lookupScan_congr {fs fs' : Fs Tbl}
    (h : fs.parquetFiles.entries = fs'.parquetFiles.entries) (name : Str) (ord : HashOrder) : lookupScan fs name ord = lookupScan fs' name ord := by
  rw [lookupScan, lookupScan, ParquetMap.iter, ParquetMap.iter, h]

/-- `lookup` in the data directory of a name other than `data.csv` is the refresh, then, when
it succeeds, the search of the map it left. -/
theorem lookup_eq_scan (fs : Fs Tbl) {name : List UInt8}
    (hname : fromUtf8Lossy name ≠ dataCsvName) (listing : Listing) (ord : HashOrder) :
    lookup fs dataDirId name listing ord =
      match (refreshParquetFiles listing).2 with
      | .error e => (.error e, { fs with parquetFiles := (refreshParquetFiles listing).1 })
      | .ok () => (lookupScan { fs with parquetFiles := (refreshParquetFiles listing).1 }
          (fromUtf8Lossy name) ord, { fs with parquetFiles := (refreshParquetFiles listing).1 }) := by
  simp only [lookup, show dataDirId ≠ rootId by decide, if_false, if_true, if_neg hname,
    lookupScan]
  split
  · rfl
  · split <;> rfl

/-- The entry `readdir` lists for a parquet file. -/
def parquetEntry (dir : List OsEntry) (clock id : Nat) (path : Str) : DirEntry :=
  ⟨id, (basename path).bytes, fileAttr id ((metadataLen dir path).getD 1024) clock⟩

/-- The loop of `readdir` over the parquet map: an entry is listed when its id is past
`start_after` and the page is not yet full. -/
def listParquet (dir : List OsEntry) (clock startAfter maxEntries : Nat) :
    List DirEntry → List (Nat × Str) → List DirEntry
  | entries, [] => entries
  | entries, (id, path) :: rest =>
    listParquet dir clock startAfter maxEntries
      (if startAfter < id ∧ entries.length < maxEntries then entries ++ [parquetEntry dir clock id path]
        else entries) rest

/-- The `data.csv` entry `readdir` lists when `start_after` is below its id. -/
def csvEntries (v : CsvView Tbl) (fs : Fs Tbl) (startAfter : Nat) (io : Faults) : List DirEntry :=
  if startAfter < dataCsvId then
    [⟨dataCsvId, dataCsvName.bytes,
      fileAttr dataCsvId (sizeOrZero (v.generateCsv fs.table) (io .size)) fs.clock⟩]
  else []

/-- `FsdbFilesystem::readdir`, given what `read_dir` returns and the map's iteration order. -/
def readdir (v : CsvView Tbl) (fs : Fs Tbl) (dirid startAfter maxEntries : Nat) (listing : Listing)
    (ord : HashOrder) (io : Faults) : Except Nfsstat3 ReadDirResult × Fs Tbl :=
  if dirid = rootId then
    (.ok ⟨if startAfter < dataDirId then [⟨dataDirId, dataName.bytes, dirAttr dataDirId fs.clock⟩] else [],
      true⟩, fs)
  else if dirid = dataDirId then
    let fs' := { fs with parquetFiles := (refreshParquetFiles listing).1 }
    match (refreshParquetFiles listing).2 with
    | .error e => (.error e, fs')
    | .ok () =>
      (.ok ⟨listParquet fs.dir fs.clock startAfter maxEntries (csvEntries v fs startAfter io)
        (fs'.parquetFiles.iter ord), true⟩, fs')
  else (.error .notdir, fs)

/-- The state `readdir` leaves: the parquet map refreshed, whatever the refresh returns, for the
data directory, and otherwise the state as it was. -/
theorem readdir_snd (v : CsvView Tbl) (fs : Fs Tbl) (dirid startAfter maxEntries : Nat)
    (listing : Listing) (ord : HashOrder) (io : Faults) :
    (readdir v fs dirid startAfter maxEntries listing ord io).2 =
      if dirid = dataDirId then { fs with parquetFiles := (refreshParquetFiles listing).1 }
      else fs := by
  unfold readdir
  dsimp only
  split_ifs <;> (try split) <;> first | rfl | simp_all [rootId, dataDirId]

/-- A readdir of the data directory whose `read_dir` fails answers `NFS3ERR_IO` and leaves the
parquet map empty. -/
theorem readdir_failed_listing (v : CsvView Tbl) (fs : Fs Tbl) (startAfter maxEntries : Nat)
    (ord : HashOrder) (io : Faults) :
    readdir v fs dataDirId startAfter maxEntries none ord io =
      (.error .io, { fs with parquetFiles := .empty }) := by
  simp [readdir, refreshParquetFiles, show dataDirId ≠ rootId by decide]

/-- The iteration order of a map that is the order of insertion. -/
def HashOrder.insertion : HashOrder := ⟨id, List.Perm.refl⟩

/-- `lookup` and `remove` compare the lossy conversion of the requested name with `data.csv`,
and no other byte string converts to `data.csv`, whose bytes hold no byte of U+FFFD. So
`lookup` answers `DATA_CSV_ID` exactly for the bytes `data.csv` in the data directory, and
`remove` of any other name, or in any other directory, answers `NFS3ERR_NOTSUPP` and deletes
nothing. -/
theorem dataCsv_name_exact (v : CsvView Tbl) (fs : Fs Tbl) (dirid : Nat) (filename : List UInt8)
    (listing : Listing) (ord : HashOrder) (io : Faults) :
    ((lookup fs dirid filename listing ord).1 = .ok dataCsvId ↔
      dirid = dataDirId ∧ filename = dataCsvName.bytes) ∧
    (¬(dirid = dataDirId ∧ filename = dataCsvName.bytes) →
      remove v fs dirid filename io = (.error .notsupp, fs)) := by
  have hname : fromUtf8Lossy filename = dataCsvName ↔ filename = dataCsvName.bytes :=
    fromUtf8Lossy_eq_iff (by decide)
  refine ⟨⟨fun h => ?_, ?_⟩, fun h => ?_⟩
  · by_cases hroot : dirid = rootId
    · subst hroot
      simp only [lookup, if_pos rfl] at h
      split_ifs at h <;> simp [dataDirId, dataCsvId] at h
    by_cases hdir : dirid = dataDirId
    · subst hdir
      refine ⟨rfl, hname.mp ?_⟩
      by_contra hcsv
      simp only [lookup, if_neg hroot, if_true, if_neg hcsv] at h
      split at h
      · cases h
      · split at h
        · rename_i id path hfind
          have hid := le_of_mem_refreshParquetFiles
            ((ord.perm _).subset (List.mem_of_find?_eq_some hfind))
          cases Except.ok.inj h
          exact absurd hid (by simp [dataCsvId, parquetFileIdStart])
        · cases h
    · simp [lookup, hroot, hdir] at h
  · rintro ⟨rfl, rfl⟩
    simp [lookup, show dataDirId ≠ rootId by decide]
  · rw [remove, if_neg (by rwa [hname])]
/-- `dataCsv_name_exact` on `data.csv` followed by the invalid byte `FF`, which the lossy
conversion turns into U+FFFD: `remove` answers `NFS3ERR_NOTSUPP`. -/
theorem dataCsv_name_exact_sample :
    remove CsvView.verbatim (sampleFs (ascii "a")) dataDirId (dataCsvName.bytes ++ [0xFF])
      Faults.none = (.error .notsupp, sampleFs (ascii "a")) :=
  (dataCsv_name_exact CsvView.verbatim (sampleFs (ascii "a")) dataDirId _ none .insertion
    Faults.none).2 (by decide)

/-- A page never grows past `max_entries` once it holds that many. -/
theorem listParquet_length_le (dir : List OsEntry) (clock startAfter maxEntries : Nat)
    (entries : List DirEntry) (l : List (Nat × Str)) (h : entries.length ≤ maxEntries) :
    (listParquet dir clock startAfter maxEntries entries l).length ≤ maxEntries := by
  induction l generalizing entries with
  | nil => exact h
  | cons p l ih =>
    apply ih
    split_ifs with hp
    · simpa using hp.2
    · exact h

/-- Every listed parquet entry has an id past `start_after`. -/
theorem listParquet_ids (dir : List OsEntry) (clock startAfter maxEntries : Nat)
    (entries : List DirEntry) (l : List (Nat × Str)) (h : ∀ e ∈ entries, startAfter < e.fileid) :
    ∀ e ∈ listParquet dir clock startAfter maxEntries entries l, startAfter < e.fileid := by
  induction l generalizing entries with
  | nil => exact h
  | cons p l ih =>
    apply ih
    split_ifs with hp
    · intro e he
      rcases List.mem_append.mp he with he | he
      · exact h e he
      · simp only [List.mem_singleton] at he
        subst he
        exact hp.1
    · exact h

/-- With room for every entry, the loop lists each one, in iteration order. -/
theorem listParquet_all (dir : List OsEntry) (clock startAfter maxEntries : Nat)
    (entries : List DirEntry) (l : List (Nat × Str)) (hid : ∀ p ∈ l, startAfter < p.1)
    (hlen : entries.length + l.length ≤ maxEntries) :
    listParquet dir clock startAfter maxEntries entries l =
      entries ++ l.map fun p => parquetEntry dir clock p.1 p.2 := by
  induction l generalizing entries with
  | nil => simp [listParquet]
  | cons p l ih =>
    obtain ⟨id, path⟩ := p
    have hroom : startAfter < id ∧ entries.length < maxEntries :=
      ⟨hid _ (List.mem_cons_self _ _), by simp at hlen; omega⟩
    rw [listParquet, if_pos hroom, ih _ (fun q hq => hid q (List.mem_cons_of_mem _ hq))
      (by simp at hlen ⊢; omega)]
    simp

/-- A page of `readdir` in the data directory holds at most `max_entries` entries, each with
an id past `start_after`, whenever `max_entries` is at least 1. -/
theorem readdir_page_bounded (v : CsvView Tbl) (fs : Fs Tbl) (startAfter maxEntries : Nat)
    (listing : Listing) (ord : HashOrder) (io : Faults) (hmax : 1 ≤ maxEntries)
    {r : ReadDirResult} {fs' : Fs Tbl}
    (h : readdir v fs dataDirId startAfter maxEntries listing ord io = (.ok r, fs')) :
    r.entries.length ≤ maxEntries ∧ ∀ e ∈ r.entries, startAfter < e.fileid := by
  have hcsv : (csvEntries v fs startAfter io).length ≤ maxEntries ∧
      ∀ e ∈ csvEntries v fs startAfter io, startAfter < e.fileid := by
    unfold csvEntries
    split_ifs with hs
    · exact ⟨hmax, by simpa using hs⟩
    · simp
  simp only [readdir, show dataDirId ≠ rootId by decide, if_false, if_true] at h
  split at h
  · cases h
  · simp only [Prod.mk.injEq, Except.ok.injEq] at h
    obtain ⟨rfl, -⟩ := h
    exact ⟨listParquet_length_le _ _ _ _ _ _ hcsv.1, listParquet_ids _ _ _ _ _ _ hcsv.2⟩

/-- What a successful `readdir` of the data directory lists: `data.csv` when `start_after`
is below its id, then the refreshed map through the loop. -/
theorem readdir_entries {v : CsvView Tbl} {fs : Fs Tbl} {startAfter maxEntries : Nat}
    {listing : Listing} {ord : HashOrder} {io : Faults} {r : ReadDirResult} {fs' : Fs Tbl}
    (h : readdir v fs dataDirId startAfter maxEntries listing ord io = (.ok r, fs')) :
    r.entries = listParquet fs.dir fs.clock startAfter maxEntries (csvEntries v fs startAfter io)
      ((refreshParquetFiles listing).1.iter ord) := by
  simp only [readdir, show dataDirId ≠ rootId by decide, if_false, if_true] at h
  split at h
  · cases h
  · simp only [Prod.mk.injEq, Except.ok.injEq] at h
    rw [← h.1]

/-- In a list whose names are distinct and are their own base names, the search of `lookup`
finds the entry with the requested name. -/
theorem find?_basename {l : List (Nat × Str)} (hnd : (l.map Prod.snd).Nodup)
    (hbase : ∀ p ∈ l, basename p.2 = p.2) {i : Nat} {x : Str} (hx : (i, x) ∈ l) :
    l.find? (fun entry => basename entry.2 = x) = some (i, x) := by
  induction l with
  | nil => cases hx
  | cons q l ih =>
    obtain ⟨j, y⟩ := q
    simp only [List.map_cons, List.nodup_cons] at hnd
    have hy := hbase (j, y) (List.mem_cons_self _ _)
    rcases List.mem_cons.mp hx with hq | hx'
    · simp_all
    · have hyx : y ≠ x := fun hyx => hnd.1 (hyx ▸ List.mem_map_of_mem Prod.snd hx')
      rw [List.find?_cons_of_neg _ (by simpa [hy] using hyx)]
      exact ih hnd.2 (fun p hp => hbase p (List.mem_cons_of_mem _ hp)) hx'

/-- `lookup` in the data directory finds a parquet path of a successful listing whose
parquet names are distinct. -/
theorem lookup_parquetName (fs : Fs Tbl) (es : List (Option OsEntry)) (ord : HashOrder)
    (hnd : (parquetNames es).Nodup) {i : Nat} {path : Str}
    (hmem : (i, path) ∈ (refreshParquetFiles (some es)).1.iter ord) :
    (lookup fs dataDirId path.bytes (some es) ord).1 = .ok i := by
  have hperm := iter_refreshParquetFiles es ord
  have hsnd : ∀ p ∈ (refreshParquetFiles (some es)).1.iter ord, p.2 ∈ parquetNames es :=
    fun p hp => List.snd_mem_of_mem_enumFrom (hperm.subset hp)
  have hpath := hsnd _ hmem
  have hfind := find?_basename (by
      rw [(hperm.map Prod.snd).nodup_iff, List.enumFrom_map_snd]; exact hnd)
    (fun p hp => basename_of_slash_not_mem (slash_not_mem_parquetNames (hsnd p hp))) hmem
  simp only [lookup, fromUtf8Lossy_bytes, show dataDirId ≠ rootId by decide, if_false, if_true,
    if_neg (parquetNames_ne_dataCsvName hpath)]
  simp only [refreshParquetFiles, ParquetMap.iter] at hfind ⊢
  rw [hfind]

/-- A `lookup` in the data directory of a name other than `data.csv` that answers an id
leaves the map refreshed from its listing, in which the id, at least 100, names the file of
that name. -/
theorem lookup_parquet_ok {fs : Fs Tbl} {name : List UInt8} {es : List (Option OsEntry)}
    {ord : HashOrder} (hname : fromUtf8Lossy name ≠ dataCsvName) {i : Nat} {fs' : Fs Tbl}
    (h : lookup fs dataDirId name (some es) ord = (.ok i, fs')) :
    fs' = { fs with parquetFiles := (refreshParquetFiles (some es)).1 } ∧
      (refreshParquetFiles (some es)).1.get i = some (fromUtf8Lossy name) ∧
      parquetFileIdStart ≤ i := by
  simp only [lookup, show dataDirId ≠ rootId by decide, if_false, if_true, if_neg hname] at h
  split at h
  · cases h
  · split at h
    · rename_i id path hfind
      obtain ⟨hi, rfl⟩ := Prod.mk.inj h
      cases Except.ok.inj hi
      have hmem := (ord.perm _).subset (List.mem_of_find?_eq_some hfind)
      have hpath : path ∈ parquetNames es := by
        rw [refreshParquetFiles_entries] at hmem
        exact List.snd_mem_of_mem_enumFrom hmem
      have hbase := basename_of_slash_not_mem (slash_not_mem_parquetNames hpath)
      have heq : basename path = fromUtf8Lossy name := by simpa using List.find?_some hfind
      rw [hbase] at heq
      exact ⟨rfl, heq ▸ ParquetMap.get_of_mem hmem, le_of_mem_refreshParquetFiles hmem⟩
    · cases h

/-- The `data.csv` entry of a listing from `start_after` 0. -/
def csvEntry (v : CsvView Tbl) (fs : Fs Tbl) (io : Faults) : DirEntry :=
  ⟨dataCsvId, dataCsvName.bytes,
    fileAttr dataCsvId (sizeOrZero (v.generateCsv fs.table) (io .size)) fs.clock⟩

/-- A listing from `start_after` 0 with room for every entry holds `data.csv` and then every
entry of the refreshed map, in iteration order. -/
theorem readdir_fits {v : CsvView Tbl} {fs : Fs Tbl} {es : List (Option OsEntry)}
    {ord : HashOrder} {io : Faults} {maxEntries : Nat}
    (hmax : (parquetNames es).length < maxEntries) {r : ReadDirResult} {fs' : Fs Tbl}
    (h : readdir v fs dataDirId 0 maxEntries (some es) ord io = (.ok r, fs')) :
    r.entries = csvEntry v fs io :: ((refreshParquetFiles (some es)).1.iter ord).map
      fun p => parquetEntry fs.dir fs.clock p.1 p.2 := by
  have hperm := iter_refreshParquetFiles es ord
  rw [readdir_entries h]
  refine listParquet_all _ _ _ _ _ _ (fun p hp => ?_) ?_
  · have := List.le_fst_of_mem_enumFrom (hperm.subset hp)
    simp only [parquetFileIdStart] at this; omega
  · simp [csvEntries, hperm.length_eq, dataCsvId]; omega

/-- An entry of a page is one the loop started with or the entry of one of the map's
entries. -/
theorem mem_listParquet {dir : List OsEntry} {clock startAfter maxEntries : Nat}
    {entries : List DirEntry} {l : List (Nat × Str)} {e : DirEntry}
    (h : e ∈ listParquet dir clock startAfter maxEntries entries l) :
    e ∈ entries ∨ ∃ p ∈ l, e = parquetEntry dir clock p.1 p.2 := by
  induction l generalizing entries with
  | nil => exact .inl h
  | cons p l ih =>
    rcases ih h with he | ⟨q, hq, rfl⟩
    · split_ifs at he
      · rcases List.mem_append.mp he with he | he
        · exact .inl he
        · exact .inr ⟨p, List.mem_cons_self _ _, List.mem_singleton.mp he⟩
      · exact .inl he
    · exact .inr ⟨q, List.mem_cons_of_mem _ hq, rfl⟩

/-- A successful `readdir` of the data directory leaves the refreshed map, and lists the
`data.csv` entry and entries of the refreshed map, whose ids are at least 100. -/
theorem readdir_dataDir_ok {v : CsvView Tbl} {fs : Fs Tbl} {startAfter maxEntries : Nat}
    {listing : Listing} {ord : HashOrder} {io : Faults} {r : ReadDirResult} {fs' : Fs Tbl}
    (h : readdir v fs dataDirId startAfter maxEntries listing ord io = (.ok r, fs')) :
    fs' = { fs with parquetFiles := (refreshParquetFiles listing).1 } ∧
      ∀ e ∈ r.entries, e = csvEntry v fs io ∨ ∃ p ∈ (refreshParquetFiles listing).1.entries,
        parquetFileIdStart ≤ p.1 ∧ e = parquetEntry fs.dir fs.clock p.1 p.2 := by
  simp only [readdir, show dataDirId ≠ rootId by decide, if_false, if_true] at h
  split at h
  · cases h
  · simp only [Prod.mk.injEq, Except.ok.injEq] at h
    obtain ⟨rfl, rfl⟩ := h
    refine ⟨rfl, fun e he => ?_⟩
    rcases mem_listParquet he with he | ⟨p, hp, rfl⟩
    · unfold csvEntries at he
      split_ifs at he
      · exact .inl (List.mem_singleton.mp he)
      · cases he
    · have hmem := (ord.perm _).subset hp
      exact .inr ⟨p, hmem, le_of_mem_refreshParquetFiles hmem, rfl⟩

/-- The `data.csv` entry of a page of the data directory reports the length of the table's
CSV, 0 when `size()` fails: the size `getattr` computes on a miss. -/
theorem readdir_csv_size {v : CsvView Tbl} {fs : Fs Tbl} {startAfter maxEntries : Nat}
    {listing : Listing} {ord : HashOrder} {io : Faults} {r : ReadDirResult} {fs' : Fs Tbl}
    (h : readdir v fs dataDirId startAfter maxEntries listing ord io = (.ok r, fs'))
    {e : DirEntry} (he : e ∈ r.entries) (hid : e.fileid = dataCsvId) :
    e.attr.size = sizeOrZero (v.generateCsv fs.table) (io .size) := by
  rcases (readdir_dataDir_ok h).2 e he with rfl | ⟨p, -, hp, rfl⟩
  · rfl
  · simp only [parquetEntry, dataCsvId, parquetFileIdStart] at hid hp
    omega

/-- One page from `start_after` 0 with room for the whole directory lists `data.csv` and
every parquet file exactly once: its ids are `DATA_CSV_ID` and 100, 101, ... . -/
theorem readdir_single_page (v : CsvView Tbl) (fs : Fs Tbl) (es : List (Option OsEntry))
    (ord : HashOrder) (io : Faults) (maxEntries : Nat)
    (hmax : (parquetNames es).length < maxEntries) {r : ReadDirResult} {fs' : Fs Tbl}
    (h : readdir v fs dataDirId 0 maxEntries (some es) ord io = (.ok r, fs')) :
    (r.entries.map DirEntry.fileid).Perm
      (dataCsvId :: List.range' parquetFileIdStart (parquetNames es).length) := by
  rw [readdir_fits hmax h, List.map_cons, List.map_map]
  refine List.Perm.cons _ ?_
  have := (iter_refreshParquetFiles es ord).map Prod.fst
  rw [List.enumFrom_map_fst] at this
  simpa [Function.comp_def, parquetEntry] using this

/-- `readdir_single_page` on a directory of two parquet files and a page of three. -/
theorem readdir_single_page_sample :
    ∃ r fs', readdir CsvView.verbatim (sampleFs []) dataDirId 0 3
        (some [some sampleA, some sampleB]) HashOrder.insertion Faults.none = (.ok r, fs') ∧
      (parquetNames [some sampleA, some sampleB]).length < 3 ∧
      (r.entries.map DirEntry.fileid).Perm (dataCsvId :: List.range' parquetFileIdStart
        (parquetNames [some sampleA, some sampleB]).length) :=
  ⟨_, _, rfl, by decide, readdir_single_page _ _ _ _ _ 3 (by decide) rfl⟩

/-- One listing of the data directory with room for every entry: the ids are distinct, and
each is `DATA_CSV_ID` or at least 100; when the parquet names of the listing stay distinct
through the lossy conversion, the names are distinct too, and `lookup` of each listed name,
on the same listing, returns its id. -/
theorem readdir_lookup_agree (v : CsvView Tbl) (fs : Fs Tbl) (es : List (Option OsEntry))
    (ord : HashOrder) (io : Faults) (maxEntries : Nat)
    (hmax : (parquetNames es).length < maxEntries) {r : ReadDirResult} {fs' : Fs Tbl}
    (h : readdir v fs dataDirId 0 maxEntries (some es) ord io = (.ok r, fs')) :
    (r.entries.map DirEntry.fileid).Nodup ∧
      (∀ e ∈ r.entries, e.fileid = dataCsvId ∨ parquetFileIdStart ≤ e.fileid) ∧
      ((parquetNames es).Nodup →
        (r.entries.map DirEntry.name).Nodup ∧
          ∀ e ∈ r.entries, ∀ fs2 : Fs Tbl,
            (lookup fs2 dataDirId e.name (some es) ord).1 = .ok e.fileid) := by
  have hperm := iter_refreshParquetFiles es ord
  set L := (refreshParquetFiles (some es)).1.iter ord
  have hfst : ∀ p ∈ L, parquetFileIdStart ≤ p.1 :=
    fun p hp => List.le_fst_of_mem_enumFrom (hperm.subset hp)
  have hsnd : ∀ p ∈ L, p.2 ∈ parquetNames es :=
    fun p hp => List.snd_mem_of_mem_enumFrom (hperm.subset hp)
  have hbase : ∀ p ∈ L, basename p.2 = p.2 :=
    fun p hp => basename_of_slash_not_mem (slash_not_mem_parquetNames (hsnd p hp))
  rw [readdir_fits hmax h]
  refine ⟨?_, ?_, fun hnd => ⟨?_, ?_⟩⟩
  · have hids := (readdir_single_page v fs es ord io maxEntries hmax h).nodup_iff.mpr
      (List.nodup_cons.mpr ⟨by simp [List.mem_range', parquetFileIdStart, dataCsvId]; omega,
        List.nodup_range' _ _⟩)
    rwa [readdir_fits hmax h] at hids
  · intro e he
    simp only [List.mem_cons, List.mem_map] at he
    rcases he with rfl | ⟨p, hp, rfl⟩
    · exact .inl rfl
    · exact .inr (hfst p hp)
  · have hnames : (L.map Prod.snd).Nodup := by
      rw [(hperm.map Prod.snd).nodup_iff, List.enumFrom_map_snd]; exact hnd
    have hbytes : L.map (fun p => (parquetEntry fs.dir fs.clock p.1 p.2).name) = L.map fun p => p.2.bytes :=
      List.map_congr_left fun p hp => by simp [parquetEntry, hbase p hp]
    simp only [List.map_cons, List.map_map, List.nodup_cons]
    refine ⟨fun hmem => ?_, ?_⟩
    · rw [Function.comp_def, hbytes] at hmem
      obtain ⟨p, hp, hpname⟩ := List.mem_map.mp hmem
      exact parquetNames_ne_dataCsvName (hsnd p hp) (Str.ext hpname)
    · rw [Function.comp_def, hbytes]
      simpa [List.map_map, Function.comp_def] using
        hnames.map (f := Str.bytes) fun a b hab => Str.ext hab
  · intro e he fs2
    simp only [List.mem_cons, List.mem_map] at he
    rcases he with rfl | ⟨⟨i, path⟩, hp, rfl⟩
    · simp [lookup, csvEntry, show dataDirId ≠ rootId by decide]
    · simp only [parquetEntry, hbase _ hp]
      exact lookup_parquetName fs2 es ord hnd hp

/-- `readdir_lookup_agree` on a directory of two parquet files with valid names. -/
theorem readdir_lookup_agree_sample :
    ∃ r fs', readdir CsvView.verbatim (sampleFs []) dataDirId 0 3
        (some [some sampleA, some sampleB]) HashOrder.insertion Faults.none = (.ok r, fs') ∧
      (parquetNames [some sampleA, some sampleB]).length < 3 ∧
      ((r.entries.map DirEntry.fileid).Nodup ∧
        (∀ e ∈ r.entries, e.fileid = dataCsvId ∨ parquetFileIdStart ≤ e.fileid) ∧
        ((parquetNames [some sampleA, some sampleB]).Nodup →
          (r.entries.map DirEntry.name).Nodup ∧
            ∀ e ∈ r.entries, ∀ fs2 : Fs (List UInt8),
              (lookup fs2 dataDirId e.name (some [some sampleA, some sampleB])
                HashOrder.insertion).1 = .ok e.fileid)) :=
  ⟨_, _, rfl, by decide, readdir_lookup_agree _ _ _ _ _ 3 (by decide) rfl⟩

/-- A regular file named `a`, the invalid byte `FF`, then `.parquet`. -/
def sampleFF : OsEntry := ⟨ascii "a" ++ [0xFF] ++ ascii ".parquet", true, 1, by decide, by decide⟩

/-- A regular file named `a`, the invalid byte `FE`, then `.parquet`. -/
def sampleFE : OsEntry := ⟨ascii "a" ++ [0xFE] ++ ascii ".parquet", true, 1, by decide, by decide⟩

/-- Two files whose names differ only in an invalid byte are listed under one name, and
`lookup` of that name returns the first id for both. -/
theorem readdir_lists_name_twice :
    ((readdir CsvView.verbatim (sampleFs []) dataDirId 0 10 (some [some sampleFF, some sampleFE])
        HashOrder.insertion Faults.none).1.toOption.map fun r =>
      r.entries.map fun e => (e.fileid, e.name)) =
        some [(dataCsvId, dataCsvName.bytes),
          (100, ascii "a" ++ Utf8.replacement ++ ascii ".parquet"),
          (101, ascii "a" ++ Utf8.replacement ++ ascii ".parquet")] ∧
      (lookup (sampleFs []) dataDirId (ascii "a" ++ Utf8.replacement ++ ascii ".parquet")
        (some [some sampleFF, some sampleFE]) HashOrder.insertion).1.toOption = some 100 := by
  decide

/-- `readdir_page_bounded` on a page of one entry. -/
theorem readdir_page_bounded_sample :
    ∃ r fs', readdir CsvView.verbatim (sampleFs []) dataDirId 0 1 (some [some sampleA])
        HashOrder.insertion Faults.none = (.ok r, fs') ∧ 1 ≤ 1 ∧
      (r.entries.length ≤ 1 ∧ ∀ e ∈ r.entries, 0 < e.fileid) :=
  ⟨_, _, rfl, le_rfl, readdir_page_bounded CsvView.verbatim (sampleFs []) 0 1 (some [some sampleA])
    HashOrder.insertion Faults.none le_rfl rfl⟩

/-- With one parquet file and `max_entries` 1, the first page holds only `data.csv` and
reports the end of the listing, so the client never sees the parquet file. -/
theorem readdir_first_page_ends :
    ((readdir CsvView.verbatim (sampleFs []) dataDirId 0 1 (some [some sampleA])
        HashOrder.insertion Faults.none).1.toOption.map fun r =>
      (r.entries.map DirEntry.fileid, r.atEnd)) = some ([dataCsvId], true) := by
  decide


/-- A page holds the entries the loop started with, then those of a sublist of the map's
entries, in iteration order. -/
theorem listParquet_sublist (dir : List OsEntry) (clock startAfter maxEntries : Nat)
    (entries : List DirEntry) (l : List (Nat × Str)) :
    ∃ s : List (Nat × Str), s.Sublist l ∧ listParquet dir clock startAfter maxEntries entries l =
      entries ++ s.map fun p => parquetEntry dir clock p.1 p.2 := by
  induction l generalizing entries with
  | nil => exact ⟨[], .slnil, by simp [listParquet]⟩
  | cons p l ih =>
    rw [listParquet]
    split_ifs
    · obtain ⟨s, hs, h⟩ := ih (entries ++ [parquetEntry dir clock p.1 p.2])
      exact ⟨p :: s, hs.cons₂ p, by simp [h]⟩
    · obtain ⟨s, hs, h⟩ := ih entries
      exact ⟨s, hs.cons p, h⟩

/-- The loop adds entries only while the page holds fewer than `max_entries`. -/
theorem listParquet_length_le_max (dir : List OsEntry) (clock startAfter maxEntries : Nat)
    (entries : List DirEntry) (l : List (Nat × Str)) :
    (listParquet dir clock startAfter maxEntries entries l).length ≤ max entries.length maxEntries := by
  induction l generalizing entries with
  | nil => exact le_max_left _ _
  | cons p l ih =>
    refine (ih _).trans ?_
    split_ifs with hp
    · simp only [List.length_append, List.length_singleton]; omega
    · exact le_rfl

/-- Every successful `readdir` reports its page as the end of the listing. -/
theorem readdir_atEnd {v : CsvView Tbl} {fs : Fs Tbl} {dirid startAfter maxEntries : Nat}
    {listing : Listing} {ord : HashOrder} {io : Faults} {r : ReadDirResult} {fs' : Fs Tbl}
    (h : readdir v fs dirid startAfter maxEntries listing ord io = (.ok r, fs')) :
    r.atEnd = true := by
  unfold readdir at h
  split_ifs at h <;> (try split at h) <;> cases h <;> rfl

/-- `readdir` reports every page as the end of the listing, so when the data directory holds
at least `max_entries` parquet files, and at least one, a page from a `start_after` below
`DATA_CSV_ID` leaves out a file that the refreshed map registers, and the client never learns
its name. -/
theorem readdir_omits_registered (v : CsvView Tbl) (fs : Fs Tbl) (startAfter maxEntries : Nat)
    (es : List (Option OsEntry)) (ord : HashOrder) (io : Faults)
    (hstart : startAfter < dataCsvId) (hpos : 0 < (parquetNames es).length)
    (hfull : maxEntries ≤ (parquetNames es).length) {r : ReadDirResult} {fs' : Fs Tbl}
    (h : readdir v fs dataDirId startAfter maxEntries (some es) ord io = (.ok r, fs')) :
    r.atEnd = true ∧
      ∃ id path, fs'.parquetFiles.get id = some path ∧ ∀ e ∈ r.entries, e.fileid ≠ id := by
  set L := (refreshParquetFiles (some es)).1.iter ord
  have hperm := iter_refreshParquetFiles es ord
  obtain ⟨rfl, -⟩ := readdir_dataDir_ok h
  have hpage : r.entries = listParquet fs.dir fs.clock startAfter maxEntries [csvEntry v fs io] L := by
    rw [readdir_entries h, csvEntries, if_pos hstart]
    rfl
  have hlen := listParquet_length_le_max fs.dir fs.clock startAfter maxEntries [csvEntry v fs io] L
  obtain ⟨s, -, hr⟩ := listParquet_sublist fs.dir fs.clock startAfter maxEntries [csvEntry v fs io] L
  rw [← hpage] at hlen hr
  refine ⟨readdir_atEnd h, ?_⟩
  by_contra hall
  push_neg at hall
  have hsub : L.map Prod.fst ⊆ s.map Prod.fst := by
    intro i hi
    obtain ⟨⟨i, path⟩, hp, rfl⟩ := List.mem_map.mp hi
    have hmem := (ord.perm _).subset hp
    obtain ⟨e, he, hei⟩ := hall i path (ParquetMap.get_of_mem hmem)
    rw [hr] at he
    rcases List.mem_cons.mp he with rfl | he
    · have hid := le_of_mem_refreshParquetFiles hmem
      simp only [csvEntry, dataCsvId, parquetFileIdStart] at hei hid
      omega
    · obtain ⟨q, hq, rfl⟩ := List.mem_map.mp he
      exact List.mem_map.mpr ⟨q, hq, hei⟩
  have hnd : (L.map Prod.fst).Nodup := by
    rw [(hperm.map Prod.fst).nodup_iff, List.enumFrom_map_fst]
    exact List.nodup_range' _ _
  have hle := (List.subperm_of_subset hnd hsub).length_le
  rw [hr] at hlen
  simp only [List.length_map, hperm.length_eq, List.enumFrom_length, List.length_append,
    List.length_singleton, Nat.max_def] at hle hlen
  split_ifs at hlen <;> omega

/-- `readdir_omits_registered` on a directory of two parquet files and a page of two: the
page lists `data.csv` and 100, and 101 is registered to `b.parquet`. -/
theorem readdir_omits_registered_sample :
    ∃ r fs', readdir CsvView.verbatim (sampleFs []) dataDirId 0 2
        (some [some sampleA, some sampleB]) HashOrder.insertion Faults.none = (.ok r, fs') ∧
      r.entries.map DirEntry.fileid = [dataCsvId, 100] ∧
      fs'.parquetFiles.get 101 = some ⟨ascii "b.parquet", by decide⟩ ∧
      0 < dataCsvId ∧ 0 < (parquetNames [some sampleA, some sampleB]).length ∧
      2 ≤ (parquetNames [some sampleA, some sampleB]).length ∧
      (r.atEnd = true ∧ ∃ id path, fs'.parquetFiles.get id = some path ∧
        ∀ e ∈ r.entries, e.fileid ≠ id) :=
  ⟨_, _, rfl, rfl, rfl, by decide, by decide, by decide,
    readdir_omits_registered _ _ 0 2 _ _ _ (by decide) (by decide) (by decide) rfl⟩

end Fsdb.Nfs
