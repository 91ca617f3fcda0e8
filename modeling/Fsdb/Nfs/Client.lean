import Fsdb.Nfs.Server

/-!
# A client reading a file through the server

An NFS client reads a file in chunks: from offset 0, each next offset the previous one plus
the bytes received, until a reply carries `eof`. The server's state threads through the
reads, each of which may fill the content cache, and each read's collaborator calls fail or
succeed on their own. When the file's cache entry holds its
content or nothing, as the server's runs keep it (`ParquetCached.serveOps`,
`serveOps_caches_fresh`), the client receives exactly the file's content, `data.csv` or a
parquet file's CSV, whether each read hits the cache or not, whichever cache calls fail.
For a parquet file that content is not what `getattr` sizes: `getattr` reports the parquet
file's length on disk, which agrees with what the client reads only when the two lengths
happen to be equal (`getattr_parquet_disk_size`).

The client's calls compose. After a write or a remove of `data.csv` that succeeds, from any
state, the client reads the new table's CSV; `getattr` answers the write's attributes, but
after a remove it answers what was cached before (`write_then_read`, `remove_then_read`),
and when the remove's `cache.remove` fails, which it ignores, the client goes on reading the
old CSV (`remove_cache_failure_stale_read`). An id that `lookup` returned for a parquet name
keeps naming that file over any run whose listings keep the files before it in place
(`lookup_then_read`).
-/

namespace Fsdb.Nfs

variable {Tbl : Type} {v : CsvView Tbl}

/-- A client reading file `id` in chunks of `count` from `offset` until `eof`, in at most
`fuel` reads, the `k`-th of them with the faults `io k`; none when a read fails or the fuel
runs out. -/
def Fs.readFrom (v : CsvView Tbl) (id : Nat) (count : UInt32) :
    (Nat → Faults) → Fs Tbl → Nat → UInt64 → Option (List UInt8)
  | _, _, 0, _ => none
  | io, fs, fuel + 1, offset =>
    match read v fs id offset count (io 0) with
    | (some (.ok (data, eof)), fs') =>
      if eof then some data
      else (Fs.readFrom v id count (fun k => io (k + 1)) fs' fuel
        (offset + data.length.toUInt64)).map (data ++ ·)
    | _ => none

/-- File `id` has the content `content` and the content cache holds it or nothing:
`data.csv` with a coherent cache, or a registered parquet file with no stale parquet entry. -/
def Fs.Holds (v : CsvView Tbl) (fs : Fs Tbl) (id : Nat) (content : List UInt8) : Prop :=
  (id = dataCsvId ∧ content = v.generateCsv fs.table ∧ fs.Coherent v) ∨
    (parquetFileIdStart ≤ id ∧ (∃ path, fs.parquetFiles.get id = some path ∧
      content = v.fileCsv path) ∧ fs.ParquetCached v)

/-- A read of a file that holds its content returns the content's bytes from `offset`, and
`eof` once they reach its end, when its view calls succeed and `offset + count` fits. -/
theorem Fs.Holds.read_eq {fs : Fs Tbl} {id : Nat} {content : List UInt8}
    (h : fs.Holds v id content) (offset : UInt64) (count : UInt32) {io : Faults}
    (hview : io .viewRead = false) (hsize : io .size = false)
    (hsum : offset.toNat + count.toNat < 2 ^ 64) :
    (read v fs id offset count io).1 =
      some (.ok (chunk content offset.toNat count.toNat,
        decide (content.length ≤
          offset.toNat + (chunk content offset.toNat count.toNat).length))) := by
  rcases h with ⟨rfl, rfl, hc⟩ | ⟨hid, ⟨path, hpath, rfl⟩, hpc⟩
  · rw [read, if_pos rfl]
    exact readThrough_of_cached _ _ _ _ _ _ (fun _ => hc.cacheGet_eq) hsum hview hsize
  · have hne : id ≠ dataCsvId := by
      rintro rfl
      exact absurd hid (by decide)
    rw [read, if_neg hne, if_pos hid, hpath]
    exact readThrough_of_cached _ _ _ _ _ _ (hpc path) hsum hview hsize

/-- A read of any file, whichever of its calls fail, keeps every file's content held. -/
theorem Fs.Holds.after_read {fs : Fs Tbl} {id : Nat} {content : List UInt8}
    (h : fs.Holds v id content) (id' : Nat) (offset : UInt64) (count : UInt32) (io : Faults) :
    (read v fs id' offset count io).2.Holds v id content := by
  have hframe : (read v fs id' offset count io).2.table = fs.table ∧
      (read v fs id' offset count io).2.parquetFiles = fs.parquetFiles := by
    rcases read_snd v fs id' offset count io with h | h | ⟨p, h⟩ <;> rw [h] <;> simp
  rcases h with ⟨rfl, rfl, hc⟩ | ⟨hid, ⟨path, hpath, rfl⟩, hpc⟩
  · refine .inl ⟨rfl, by rw [hframe.1], ?_⟩
    rcases read_snd v fs id' offset count io with h | h | ⟨p, h⟩ <;> rw [h]
    · exact hc
    · exact Fs.coherent_cacheInsert (.inl hc)
    · rwa [Fs.Coherent, Fs.cachedCsv_cacheInsert_fileKey, Fs.cacheInsert_table]
  · exact .inr ⟨hid, ⟨path, hframe.2 ▸ hpath, rfl⟩,
      hpc.effect (fs.serve_effect io (.read id' offset count))⟩

/-- A client reading a file that holds its content, in chunks of at least one byte, from an
offset within the content, with a read to spare for each byte left, receives the rest of the
content. A `Vec` holds fewer than 2^63 bytes. -/
theorem Fs.readFrom_from {id : Nat} {content : List UInt8} (count : UInt32)
    (hcount : 0 < count.toNat) {io : Nat → Faults} (hview : ∀ k, io k .viewRead = false)
    (hsize : ∀ k, io k .size = false) (hlen : content.length < 2 ^ 63) (fuel : Nat) :
    ∀ (fs : Fs Tbl) (offset : UInt64), fs.Holds v id content →
      offset.toNat ≤ content.length → content.length - offset.toNat < fuel →
      fs.readFrom v id count io fuel offset = some (content.drop offset.toNat) := by
  induction fuel generalizing io with
  | zero => intro _ _ _ _ hfuel; omega
  | succ fuel ih =>
    intro fs offset h hoff hfuel
    have hcount32 := count.toNat_lt_size
    simp only [UInt32.size] at hcount32
    have hsum : offset.toNat + count.toNat < 2 ^ 64 := by omega
    have hchunk : (chunk content offset.toNat count.toNat).length =
        min count.toNat (content.length - offset.toNat) := by
      simp [chunk]
    have hread : read v fs id offset count (io 0) = (_, (read v fs id offset count (io 0)).2) :=
      Prod.ext (h.read_eq offset count (hview 0) (hsize 0) hsum) rfl
    rw [Fs.readFrom, hread]
    simp only [hchunk]
    by_cases heof : content.length ≤ offset.toNat + count.toNat
    · have hend : content.length ≤ offset.toNat + min count.toNat (content.length - offset.toNat) :=
        by omega
      simp only [hend, decide_True, if_true, chunk]
      exact congrArg some (List.take_of_length_le (by simp; omega))
    · have hmin : min count.toNat (content.length - offset.toNat) = count.toNat := by omega
      have hnext : (offset + count.toNat.toUInt64).toNat = offset.toNat + count.toNat :=
        u64_add_toNat hsum
      simp only [hmin, heof, decide_False, Bool.false_eq_true, if_false]
      rw [ih (fun k => hview (k + 1)) (fun k => hsize (k + 1)) _ _
        (h.after_read id offset count (io 0)) (by rw [hnext]; omega) (by rw [hnext]; omega), hnext]
      simp [chunk, ← List.drop_drop, List.take_append_drop]

/-- A client reading a file that holds its content in chunks of at least one byte, from
offset 0 until `eof`, receives exactly the content, whichever of each read's cache calls
fail. -/
theorem readFrom_whole (fs : Fs Tbl) {id : Nat} {content : List UInt8}
    (h : fs.Holds v id content) (count : UInt32) (hcount : 0 < count.toNat) (io : Nat → Faults)
    (hview : ∀ k, io k .viewRead = false) (hsize : ∀ k, io k .size = false)
    (hlen : content.length < 2 ^ 63) :
    fs.readFrom v id count io (content.length + 1) 0 = some content := by
  simpa using Fs.readFrom_from count hcount hview hsize hlen _ fs 0 h (by simp) (by simp)

/-- `readFrom_whole` on `a.parquet` after `parquetSession`, in chunks of four bytes, the
`cache.get` of every other read failing. -/
theorem readFrom_whole_sample :
    ((sampleFs (ascii "t")).serveOps pathView parquetSession).Holds pathView 100
        (ascii "a.parquet") ∧ 0 < (4 : UInt32).toNat ∧ (ascii "a.parquet").length < 2 ^ 63 ∧
      ((sampleFs (ascii "t")).serveOps pathView parquetSession).readFrom pathView 100 4
        (fun k c => decide (c = .cacheGet) && k % 2 == 0) ((ascii "a.parquet").length + 1) 0 =
          some (ascii "a.parquet") :=
  have h : ((sampleFs (ascii "t")).serveOps pathView parquetSession).Holds pathView 100
      (ascii "a.parquet") :=
    .inr ⟨by decide, ⟨fromUtf8Lossy sampleA.name, rfl, rfl⟩,
      (Fs.parquetCached_new _ _ _).2.serveOps _⟩
  ⟨h, by decide, by decide,
    readFrom_whole _ h 4 (by decide) _ (fun _ => rfl) (fun _ => rfl) (by decide)⟩

/-- From a coherent cache, a client reading `data.csv` receives the table's CSV. -/
theorem Fs.Coherent.readFrom {fs : Fs Tbl} (hc : fs.Coherent v) (count : UInt32)
    (hcount : 0 < count.toNat) {io : Nat → Faults} (hview : ∀ k, io k .viewRead = false)
    (hsize : ∀ k, io k .size = false) (hlen : (v.generateCsv fs.table).length < 2 ^ 63) :
    fs.readFrom v dataCsvId count io ((v.generateCsv fs.table).length + 1) 0 =
      some (v.generateCsv fs.table) := by
  simpa using Fs.readFrom_from count hcount hview hsize hlen _ fs 0 (.inl ⟨rfl, rfl, hc⟩)
    (by simp) (by simp)

/-- After a write to `data.csv` that succeeds, with its `cache.insert` and `size()`
succeeding, from any state: a later `getattr` answers the write's own attributes, and a client
reading the file from 0 until `eof` receives exactly the CSV of the committed table, whose
length those attributes carry. -/
theorem write_then_read (fs : Fs Tbl) (offset : UInt64) (data : List UInt8) {io : Faults}
    (hins : io .cacheInsert = false) (hsize : io .size = false) {attr : Fattr3} {fs' : Fs Tbl}
    (h : write v fs dataCsvId offset data io = (.ok attr, fs')) (ioa : Faults) (count : UInt32)
    (hcount : 0 < count.toNat) (io' : Nat → Faults) (hview' : ∀ k, io' k .viewRead = false)
    (hsize' : ∀ k, io' k .size = false) (hlen : (v.generateCsv fs'.table).length < 2 ^ 63) :
    fs.applied v data io = some fs'.table ∧ (getattr v fs' dataCsvId ioa).1 = .ok attr ∧
      attr.size = (v.generateCsv fs'.table).length ∧
      fs'.readFrom v dataCsvId count io' ((v.generateCsv fs'.table).length + 1) 0 =
        some (v.generateCsv fs'.table) := by
  rw [write_dataCsv] at h
  cases happ : fs.applied v data io with
  | none => simp [happ] at h
  | some t =>
    simp only [happ] at h
    split_ifs at h with hgen
    · cases h
    simp only [writeDone, Prod.mk.injEq, Except.ok.injEq] at h
    obtain ⟨rfl, rfl⟩ := h
    have hc : (({ fs with table := t } : Fs Tbl).cacheInsert csvDataKey (v.generateCsv t)
        (io .cacheInsert)).Coherent v := Fs.coherent_cacheInsert (.inr hins)
    refine ⟨by simp, by simp [getattr], by simp [fileAttr, sizeOrZero, hsize], ?_⟩
    exact Fs.Coherent.readFrom (by simpa [Fs.Coherent] using hc) count hcount hview' hsize'
      (by simpa using hlen)

/-- `remove` of `data.csv` that succeeds, with its `cache.remove` succeeding, never touches
the attribute cache: from any state, a later `getattr` answers the attributes cached before
the remove, if any, while a client reading the file from 0 until `eof` receives the CSV of the
truncated table. -/
theorem remove_then_read (fs : Fs Tbl) {io : Faults} (hrem : io .cacheRemove = false)
    {fs' : Fs Tbl} (h : remove v fs dataDirId dataCsvName.bytes io = (.ok (), fs'))
    (ioa : Faults) (count : UInt32) (hcount : 0 < count.toNat) (io' : Nat → Faults)
    (hview' : ∀ k, io' k .viewRead = false) (hsize' : ∀ k, io' k .size = false)
    (hlen : (v.generateCsv fs'.table).length < 2 ^ 63) :
    v.deleteRowsWhere fs.table everyRow = some fs'.table ∧
      (getattr v fs' dataCsvId ioa).1 = ((fs.attrCache dataCsvId).map .ok).getD
        (.ok (fileAttr dataCsvId (sizeOrZero (v.generateCsv fs'.table) (ioa .size)) fs.clock)) ∧
      fs'.readFrom v dataCsvId count io' ((v.generateCsv fs'.table).length + 1) 0 =
        some (v.generateCsv fs'.table) := by
  simp only [remove, fromUtf8Lossy_bytes, and_self, if_true] at h
  cases hdel : (if io .deleteRows then none else v.deleteRowsWhere fs.table everyRow) with
  | none => simp [hdel] at h
  | some t =>
    simp only [hdel, Prod.mk.injEq] at h
    obtain ⟨-, rfl⟩ := h
    have hdel' : v.deleteRowsWhere fs.table everyRow = some t := by
      split_ifs at hdel
      exact hdel
    have hc : (({ fs with table := t } : Fs Tbl).cacheRemove csvDataKey (io .cacheRemove)).Coherent
        v := .inl (by simp [Fs.cachedCsv_cacheRemove, hrem])
    refine ⟨by simpa using hdel', ?_, hc.readFrom count hcount hview' hsize' hlen⟩
    cases ha : fs.attrCache dataCsvId <;> simp [getattr, ha, computeAttr_dataCsv]

/-- A server over the table `a` whose content cache holds a stale `zz` and whose attribute
cache holds a stale size 99 for `data.csv`. -/
def staleFs : Fs (List UInt8) :=
  ⟨ascii "a", [], .empty, some fun k => if k = csvDataKey then some (ascii "zz") else none,
    fun i => if i = dataCsvId then some (fileAttr dataCsvId 99 0) else none, 0⟩

/-- `write_then_read` on a write of `b` over `staleFs`, whose caches are both stale. -/
theorem write_then_read_sample :
    ¬ staleFs.Coherent CsvView.verbatim ∧ ¬ staleFs.AttrFresh CsvView.verbatim ∧
      ∃ attr fs', write CsvView.verbatim staleFs dataCsvId 0 (ascii "b") Faults.none =
          (.ok attr, fs') ∧
        (staleFs.applied CsvView.verbatim (ascii "b") Faults.none = some fs'.table ∧
          (getattr CsvView.verbatim fs' dataCsvId Faults.none).1 = .ok attr ∧
          attr.size = (CsvView.verbatim.generateCsv fs'.table).length ∧
          fs'.readFrom CsvView.verbatim dataCsvId 4 (fun _ => Faults.none)
              ((CsvView.verbatim.generateCsv fs'.table).length + 1) 0 =
            some (CsvView.verbatim.generateCsv fs'.table)) :=
  ⟨by decide, by decide, _, _, rfl,
    @write_then_read _ CsvView.verbatim staleFs 0 (ascii "b") Faults.none rfl rfl _ _ rfl
      Faults.none 4 (by decide) (fun _ => Faults.none) (fun _ => rfl) (fun _ => rfl) (by decide)⟩

/-- `remove_then_read` over `staleFs`: `getattr` still answers the size 99, while a client
reads the empty CSV of the truncated table. -/
theorem remove_then_read_sample :
    ∃ fs', remove CsvView.verbatim staleFs dataDirId dataCsvName.bytes Faults.none =
        (.ok (), fs') ∧
      (CsvView.verbatim.deleteRowsWhere staleFs.table everyRow = some fs'.table ∧
        (getattr CsvView.verbatim fs' dataCsvId Faults.none).1 =
          ((staleFs.attrCache dataCsvId).map .ok).getD
            (.ok (fileAttr dataCsvId (sizeOrZero (CsvView.verbatim.generateCsv fs'.table)
              (Faults.none .size)) staleFs.clock)) ∧
        fs'.readFrom CsvView.verbatim dataCsvId 4 (fun _ => Faults.none)
            ((CsvView.verbatim.generateCsv fs'.table).length + 1) 0 =
          some (CsvView.verbatim.generateCsv fs'.table)) ∧
      staleFs.attrCache dataCsvId = some (fileAttr dataCsvId 99 0) :=
  ⟨_, rfl, @remove_then_read _ CsvView.verbatim staleFs Faults.none rfl _ rfl Faults.none 4
    (by decide) (fun _ => Faults.none) (fun _ => rfl) (fun _ => rfl) (by decide), rfl⟩

/-- A client looks up a parquet file by name in the data directory and gets an id from 100.
Over any run of calls that follows, whichever collaborator calls fail, as long as every
listing of the directory in the run succeeds and yields the parquet files up to that one as
the lookup's did, the id keeps naming the file: the client reading the id from 0 until `eof`
receives the CSV of the file of that name, from a server with no stale parquet content. -/
theorem lookup_then_read (fs : Fs Tbl) (hpc : fs.ParquetCached v) {name : List UInt8}
    {es : List (Option OsEntry)} {ord : HashOrder} (hname : fromUtf8Lossy name ≠ dataCsvName)
    {i : Nat} {fs' : Fs Tbl} (h : lookup fs dataDirId name (some es) ord = (.ok i, fs'))
    (ops : List (NfsOp × Faults))
    (hops : ∀ p ∈ ops, ∀ listing, p.1.listing = some listing → ∃ es2, listing = some es2 ∧
      (parquetNames es).take (i + 1 - parquetFileIdStart) <+: parquetNames es2)
    (count : UInt32) (hcount : 0 < count.toNat) (io : Nat → Faults)
    (hview : ∀ k, io k .viewRead = false) (hsize : ∀ k, io k .size = false)
    (hlen : (v.fileCsv (fromUtf8Lossy name)).length < 2 ^ 63) :
    parquetFileIdStart ≤ i ∧ (fs'.serveOps v ops).parquetFiles.get i = some (fromUtf8Lossy name) ∧
      (fs'.serveOps v ops).readFrom v i count io
        ((v.fileCsv (fromUtf8Lossy name)).length + 1) 0 = some (v.fileCsv (fromUtf8Lossy name)) := by
  obtain ⟨rfl, hget, hid⟩ := lookup_parquet_ok hname h
  have hreg : (({ fs with parquetFiles := (refreshParquetFiles (some es)).1 } : Fs Tbl).serveOps
      v ops).parquetFiles.get i = some (fromUtf8Lossy name) := by
    rcases Fs.parquetFiles_serveOps _ ops with h' | ⟨p, hp, listing, hl, h'⟩ <;> rw [h']
    · exact hget
    · obtain ⟨es2, rfl, hhead⟩ := hops p hp listing hl
      exact refreshParquetFiles_get_of_prefix hget hhead
  have hpc' : Fs.ParquetCached v { fs with parquetFiles := (refreshParquetFiles (some es)).1 } :=
    hpc
  have hholds : Fs.Holds v _ i (v.fileCsv (fromUtf8Lossy name)) :=
    .inr ⟨hid, ⟨_, hreg, rfl⟩, hpc'.serveOps ops⟩
  exact ⟨hid, hreg,
    by simpa using Fs.readFrom_from count hcount hview hsize hlen _ _ 0 hholds (by simp) (by simp)⟩

/-- A listing in which `b.parquet` has joined after `a.parquet`, a write to `data.csv`, and a
read of id 100 whose `cache.insert` fails. -/
def growSession : List (NfsOp × Faults) :=
  [(.readdir dataDirId 0 10 (some [some sampleA, some sampleB]) .insertion, Faults.none),
    (.write dataCsvId 0 (ascii "x"), Faults.none),
    (.read 100 0 4, fun c => decide (c = .cacheInsert))]

/-- `lookup_then_read` on `a.parquet`, looked up as id 100 when it was alone, then read after
`growSession` in chunks of four bytes. -/
theorem lookup_then_read_sample :
    lookup (sampleFs (ascii "t")) dataDirId sampleA.name (some [some sampleA]) .insertion =
        (.ok 100, (lookup (sampleFs (ascii "t")) dataDirId sampleA.name (some [some sampleA])
          .insertion).2) ∧
      pathView.fileCsv (fromUtf8Lossy sampleA.name) = ascii "a.parquet" ∧
      parquetFileIdStart ≤ 100 ∧
      ((lookup (sampleFs (ascii "t")) dataDirId sampleA.name (some [some sampleA])
          .insertion).2.serveOps pathView growSession).parquetFiles.get 100 =
        some (fromUtf8Lossy sampleA.name) ∧
      ((lookup (sampleFs (ascii "t")) dataDirId sampleA.name (some [some sampleA])
          .insertion).2.serveOps pathView growSession).readFrom pathView 100 4
        (fun _ => Faults.none) ((pathView.fileCsv (fromUtf8Lossy sampleA.name)).length + 1) 0 =
          some (pathView.fileCsv (fromUtf8Lossy sampleA.name)) := by
  refine ⟨rfl, rfl, @lookup_then_read _ pathView (sampleFs (ascii "t"))
    (Fs.parquetCached_new _ _ _).2 sampleA.name [some sampleA] .insertion (by decide) 100 _ rfl
    growSession ?_ 4 (by decide) (fun _ => Faults.none) (fun _ => rfl) (fun _ => rfl)
    (by decide)⟩
  intro p hp listing hl
  simp only [growSession, List.mem_cons, List.mem_singleton, List.not_mem_nil, or_false] at hp
  rcases hp with rfl | rfl | rfl <;>
    simp only [NfsOp.listing, Option.some.injEq, reduceCtorEq] at hl
  exact ⟨_, hl.symm, by decide⟩

/-- While `cache.get` finds `csv:data`, every read of `data.csv` is a hit that changes
nothing: the client receives what it would read from the cached content alone. -/
theorem Fs.readFrom_of_cached {fs : Fs Tbl} {c : List UInt8} (count : UInt32) :
    ∀ (io : Nat → Faults), (∀ k, fs.cacheGet csvDataKey (io k .cacheGet) = some c) →
      ∀ fuel offset, fs.readFrom v dataCsvId count io fuel offset = readChunks c count fuel offset
  | _, _, 0, _ => rfl
  | io, hget, fuel + 1, offset => by
    rw [Fs.readFrom, readChunks, read, if_pos rfl, readThrough, hget 0]
    dsimp only
    rcases readCached c offset count with _ | ⟨data, eof⟩
    · rfl
    · simp only [Option.map_some',
        Fs.readFrom_of_cached count (fun k => io (k + 1)) (fun k => hget (k + 1)) fuel]

/-- `remove` of `data.csv` ignores a failure of its `cache.remove`: the remove answers `Ok`
with the table truncated, but the CSV cached before stays, and a client reading `data.csv`
from 0 until `eof`, with `cache.get` succeeding, receives that old CSV, every deleted row
included. -/
theorem remove_cache_failure_stale_read (v : CsvView Tbl) (fs : Fs Tbl) {old : List UInt8}
    (hold : fs.cachedCsv = some old) (io : Faults) {t : Tbl}
    (hdel : v.deleteRowsWhere fs.table everyRow = some t) (hrows : io .deleteRows = false)
    (hrem : io .cacheRemove = true) (count : UInt32) (hcount : 0 < count.toNat)
    (io' : Nat → Faults) (hget : ∀ k, io' k .cacheGet = false) (hlen : old.length < 2 ^ 63) :
    (remove v fs dataDirId dataCsvName.bytes io).1 = .ok () ∧
      (remove v fs dataDirId dataCsvName.bytes io).2.table = t ∧
      (remove v fs dataDirId dataCsvName.bytes io).2.readFrom v dataCsvId count io'
        (old.length + 1) 0 = some old := by
  have hr : remove v fs dataDirId dataCsvName.bytes io =
      (.ok (), ({ fs with table := t } : Fs Tbl).cacheRemove csvDataKey true) := by
    simp [remove, hrows, hdel, hrem]
  have hstale : ∀ k, (({ fs with table := t } : Fs Tbl).cacheRemove csvDataKey true).cacheGet
      csvDataKey (io' k .cacheGet) = some old := fun k => by
    rw [Fs.cacheGet_csvDataKey, hget, Fs.cachedCsv_cacheRemove]
    exact hold
  rw [hr]
  refine ⟨rfl, Fs.cacheRemove_table _ _ _, ?_⟩
  rw [Fs.readFrom_of_cached count io' hstale]
  simpa using readChunks_from old count hcount hlen _ 0 (by simp) (by simp)

/-- A server over the table `ab` with its CSV cached. -/
def cachedAbFs : Fs (List UInt8) :=
  (sampleFs (ascii "ab")).cacheInsert csvDataKey (ascii "ab") false

/-- `remove_cache_failure_stale_read` over `cachedAbFs`: the table is emptied, and the client
still reads `ab`. -/
theorem remove_cache_failure_stale_read_sample :
    cachedAbFs.cachedCsv = some (ascii "ab") ∧
      CsvView.verbatim.deleteRowsWhere cachedAbFs.table everyRow = some [] ∧
      ((remove CsvView.verbatim cachedAbFs dataDirId dataCsvName.bytes
          fun c => decide (c = .cacheRemove)).1 = .ok () ∧
        (remove CsvView.verbatim cachedAbFs dataDirId dataCsvName.bytes
          fun c => decide (c = .cacheRemove)).2.table = [] ∧
        (remove CsvView.verbatim cachedAbFs dataDirId dataCsvName.bytes
          fun c => decide (c = .cacheRemove)).2.readFrom CsvView.verbatim dataCsvId 4
            (fun _ => Faults.none) ((ascii "ab").length + 1) 0 = some (ascii "ab")) :=
  ⟨rfl, rfl, remove_cache_failure_stale_read CsvView.verbatim cachedAbFs rfl _ rfl rfl rfl 4
    (by decide) (fun _ => Faults.none) (fun _ => rfl) (by decide)⟩

end Fsdb.Nfs
