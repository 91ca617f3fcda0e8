import Fsdb.Nfs.Directory

/-!
# The server, one call after another

`FsdbFilesystem` as a state machine over the NFS calls that can change its state: each call
is served by its handler, with the outcomes a `Faults` oracle gives its collaborator calls,
and with what `read_dir` returns and the map's iteration order where the handler reads them.
Between calls the environment acts too: the caches drop entries and the clock moves. The
calls that answer `NFS3ERR_NOTSUPP` change nothing and are left out. `Effect` lists what one
step can do to the state, `Fs.serve_effect` shows that every step does one of those things,
and the invariants are proved over `Effect`.

A parquet file's CSV view is fixed by its path, so the content cache's entry for a parquet
file, once filled, holds that file's CSV whatever calls follow and whichever of their
collaborator calls fail; a read of a parquet file then returns the file's CSV, from the
cache or not. The copies of `data.csv` follow the table only while the calls that refresh
them succeed: the cached CSV while `cache.insert`, `cache.remove` and `generate_csv` do, the
cached attributes while `size` and `generate_csv` do and no `remove` comes. No handler
invalidates the attributes cached for a parquet id, so once a refresh gives the id to
another file, `getattr` keeps returning those of the file that had it until the attribute
cache drops them on its own.
-/

namespace Fsdb.Nfs

variable {Tbl : Type} {v : CsvView Tbl}

/-- An NFS call that can change the server's state, with what the environment supplies, or an
event of the environment. -/
inductive NfsOp where
  /-- `lookup`, with what `read_dir` returns and the map's iteration order. -/
  | lookup (dirid : Nat) (filename : List UInt8) (listing : Listing) (ord : HashOrder)
  /-- `getattr`. -/
  | getattr (id : Nat)
  /-- `read`. -/
  | read (id : Nat) (offset : UInt64) (count : UInt32)
  /-- `write`. -/
  | write (id : Nat) (offset : UInt64) (data : List UInt8)
  /-- `remove`. -/
  | remove (dirid : Nat) (filename : List UInt8)
  /-- `readdir`, with what `read_dir` returns and the map's iteration order. -/
  | readdir (dirid startAfter maxEntries : Nat) (listing : Listing) (ord : HashOrder)
  /-- A cache drops an entry, or the clock moves. -/
  | env (e : Env)

/-- The state after a call. -/
def Fs.serve (v : CsvView Tbl) (fs : Fs Tbl) (io : Faults) : NfsOp → Fs Tbl
  | .lookup dirid filename listing ord => (lookup fs dirid filename listing ord).2
  | .getattr id => (getattr v fs id io).2
  | .read id offset count => (read v fs id offset count io).2
  | .write id offset data => (write v fs id offset data io).2
  | .remove dirid filename => (remove v fs dirid filename io).2
  | .readdir dirid startAfter maxEntries listing ord =>
    (readdir v fs dirid startAfter maxEntries listing ord io).2
  | .env e => fs.env e

/-- `remove`, the one call that changes the table and leaves the attribute cache alone. -/
def NfsOp.isRemove : NfsOp → Bool
  | .remove .. => true
  | _ => false

/-- The state after calls one after another, each with the faults of its own collaborator
calls. -/
def Fs.serveOps (v : CsvView Tbl) : Fs Tbl → List (NfsOp × Faults) → Fs Tbl
  | fs, [] => fs
  | fs, (op, io) :: ops => (fs.serve v io op).serveOps v ops

/-- What `read_dir` returns to a call that may list the base directory. -/
def NfsOp.listing : NfsOp → Option Listing
  | .lookup _ _ listing _ | .readdir _ _ _ listing _ => some listing
  | _ => none

/-- What one call can do to the server's state. -/
inductive Effect (v : CsvView Tbl) (io : Faults) (op : NfsOp) (fs : Fs Tbl) : Fs Tbl → Prop
  /-- Nothing: an error before any change, a cache hit, or a call to another file. -/
  | keep : Effect v io op fs fs
  /-- `lookup` and `readdir` refresh the parquet map from what their `read_dir` returns. -/
  | refresh (listing : Listing) (h : op.listing = some listing) :
      Effect v io op fs { fs with parquetFiles := (refreshParquetFiles listing).1 }
  /-- `getattr` caches the attributes it computed on a miss. -/
  | cacheAttr (id : Nat) (attr : Fattr3) (hmiss : fs.attrCache id = none)
      (h : computeAttr v fs id io = .ok attr) : Effect v io op fs (fs.setAttr id attr)
  /-- A read of `data.csv` offers the table's CSV to the content cache. -/
  | fillCsv :
      Effect v io op fs (fs.cacheInsert csvDataKey (v.generateCsv fs.table) (io .cacheInsert))
  /-- A read of a parquet file offers the file's CSV to the content cache. -/
  | fillFile (path : Str) :
      Effect v io op fs (fs.cacheInsert (fileKey path) (v.fileCsv path) (io .cacheInsert))
  /-- A write whose `generate_csv` fails, caching on, after `apply_write` committed. -/
  | commitUncached (t : Tbl) (h : fs.cache.isSome ∧ io .generateCsv = true) :
      Effect v io op fs { fs with table := t }
  /-- A write that completes: the new table, its CSV offered to the content cache and its
  attributes cached. -/
  | commit (t : Tbl) (h : ¬(fs.cache.isSome ∧ io .generateCsv = true)) :
      Effect v io op fs (writeDone v (({ fs with table := t }).cacheInsert csvDataKey
        (v.generateCsv t) (io .cacheInsert)) io).2
  /-- A `remove` of `data.csv`: the table with its rows deleted, and `csv:data` dropped. -/
  | truncate (t : Tbl) (h : op.isRemove = true) :
      Effect v io op fs (({ fs with table := t }).cacheRemove csvDataKey (io .cacheRemove))
  /-- A cache drops an entry, or the clock moves. -/
  | env (e : Env) (h : op = .env e) : Effect v io op fs (fs.env e)

/-- Every call does one of the things `Effect` lists. -/
theorem Fs.serve_effect (fs : Fs Tbl) (io : Faults) (op : NfsOp) :
    Effect v io op fs (fs.serve v io op) := by
  cases op with
  | lookup dirid filename listing ord =>
    rw [Fs.serve, lookup_snd]
    split_ifs
    exacts [.refresh _ rfl, .keep]
  | getattr id =>
    rcases getattr_snd v fs id io with h | ⟨hmiss, attr, hattr, h⟩ <;> rw [Fs.serve, h]
    exacts [.keep, .cacheAttr id attr hmiss hattr]
  | read id offset count =>
    rcases read_snd v fs id offset count io with h | h | ⟨path, h⟩ <;> rw [Fs.serve, h]
    exacts [.keep, .fillCsv, .fillFile path]
  | write id offset data =>
    rw [Fs.serve]
    by_cases hid : id = dataCsvId
    · subst hid
      rw [write_dataCsv]
      split
      · exact .keep
      · split_ifs with hgen
        exacts [.commitUncached _ hgen, .commit _ hgen]
    · rw [write, if_neg hid]
      exact .keep
  | remove dirid filename =>
    rcases remove_snd v fs dirid filename io with h | ⟨t, h⟩ <;> rw [Fs.serve, h]
    exacts [.keep, .truncate t rfl]
  | readdir dirid startAfter maxEntries listing ord =>
    rw [Fs.serve, readdir_snd]
    split_ifs
    exacts [.refresh _ rfl, .keep]
  | env e => exact .env e rfl

/-- Only a refresh from the call's own listing changes the parquet map. -/
theorem Fs.parquetFiles_effect {fs fs' : Fs Tbl} {io : Faults} {op : NfsOp}
    (he : Effect v io op fs fs') :
    fs'.parquetFiles = fs.parquetFiles ∨
      ∃ listing, op.listing = some listing ∧
        fs'.parquetFiles = (refreshParquetFiles listing).1 := by
  cases he with
  | refresh listing h => exact .inr ⟨listing, h, rfl⟩
  | commit _ _ => exact .inl (by simp [writeDone])
  | _ => exact .inl (by simp)

/-- Over a run of calls, the parquet map stays as it was or is the refresh of one call's own
listing. -/
theorem Fs.parquetFiles_serveOps (fs : Fs Tbl) (ops : List (NfsOp × Faults)) :
    (fs.serveOps v ops).parquetFiles = fs.parquetFiles ∨
      ∃ p ∈ ops, ∃ listing, p.1.listing = some listing ∧
        (fs.serveOps v ops).parquetFiles = (refreshParquetFiles listing).1 := by
  induction ops generalizing fs with
  | nil => exact .inl rfl
  | cons op ops ih =>
    rcases ih (fs.serve v op.2 op.1) with h | ⟨p, hp, listing, hl, h⟩
    · rcases Fs.parquetFiles_effect (fs.serve_effect op.2 op.1) with h' | ⟨listing, hl, h'⟩
      · exact .inl (h.trans h')
      · exact .inr ⟨op, List.mem_cons_self _ _, listing, hl, h.trans h'⟩
    · exact .inr ⟨p, List.mem_cons_of_mem _ hp, listing, hl, h⟩

/-- The content cache's entry for each parquet path, if any, is that file's CSV. -/
def Fs.ParquetCached (v : CsvView Tbl) (fs : Fs Tbl) : Prop :=
  ∀ (path : Str) (c : List UInt8), fs.cacheGet (fileKey path) false = some c → c = v.fileCsv path

/-- The invariant reads the content cache only. -/
theorem Fs.parquetCached_of_cache_eq {fs fs' : Fs Tbl} (h : fs'.cache = fs.cache)
    (hpc : fs.ParquetCached v) : fs'.ParquetCached v := by
  intro path c hc
  exact hpc path c (by simpa [Fs.cacheGet, h] using hc)

/-- Inserting under a key what a parquet file's key must hold keeps the invariant. -/
theorem Fs.ParquetCached.cacheInsert {fs : Fs Tbl} (hpc : fs.ParquetCached v)
    {key content : List UInt8} (hk : ∀ path, key = fileKey path → content = v.fileCsv path)
    (fails : Bool) : (fs.cacheInsert key content fails).ParquetCached v := by
  intro path c hc
  rw [Fs.cacheGet_cacheInsert] at hc
  split_ifs at hc with h
  · exact (Option.some.inj hc) ▸ hk path h.2.2.symm
  · exact hpc path c hc

/-- Removing an entry keeps the invariant. -/
theorem Fs.ParquetCached.cacheRemove {fs : Fs Tbl} (hpc : fs.ParquetCached v)
    (key : List UInt8) (fails : Bool) : (fs.cacheRemove key fails).ParquetCached v := by
  intro path c hc
  rw [Fs.cacheGet_cacheRemove] at hc
  split_ifs at hc
  exact hpc path c hc

/-- The environment keeps the invariant. -/
theorem Fs.ParquetCached.env {fs : Fs Tbl} (hpc : fs.ParquetCached v) (e : Env) :
    (fs.env e).ParquetCached v := by
  cases e with
  | evict key => exact hpc.cacheRemove key false
  | _ => exact hpc

/-- Whatever a call does to the state, the cached parquet contents stay their files' CSVs. -/
theorem Fs.ParquetCached.effect {fs fs' : Fs Tbl} (hpc : fs.ParquetCached v) {io : Faults}
    {op : NfsOp} (he : Effect v io op fs fs') : fs'.ParquetCached v := by
  have hcsv : ∀ path, csvDataKey = fileKey path → ∀ c : List UInt8, c = v.fileCsv path :=
    fun path h => absurd h.symm (fileKey_ne_csvDataKey path)
  cases he with
  | keep | refresh _ _ | cacheAttr _ _ _ _ | commitUncached _ _ => exact hpc
  | fillCsv => exact hpc.cacheInsert (fun path h => hcsv path h _) _
  | fillFile path => exact hpc.cacheInsert (fun q h => by rw [fileKey_injective h]) _
  | commit t _ =>
    have ht : Fs.ParquetCached v { fs with table := t } := hpc
    exact Fs.parquetCached_of_cache_eq rfl (ht.cacheInsert (fun path h => hcsv path h _) _)
  | truncate t _ =>
    exact (show Fs.ParquetCached v { fs with table := t } from hpc).cacheRemove _ _
  | env e _ => exact hpc.env e

/-- Over every run of calls, whichever collaborator calls fail, the cached parquet contents
stay their files' CSVs. -/
theorem Fs.ParquetCached.serveOps {fs : Fs Tbl} (hpc : fs.ParquetCached v) :
    ∀ ops : List (NfsOp × Faults), (fs.serveOps v ops).ParquetCached v := by
  intro ops
  induction ops generalizing fs with
  | nil => exact hpc
  | cons op ops ih => exact ih (hpc.effect (fs.serve_effect op.2 op.1))

/-- A server built by `new`, or by `with_cache` over an empty cache, starts with no cached
parquet content. -/
theorem Fs.parquetCached_new (table : Tbl) (dir : List OsEntry) (clock : Nat) :
    (Fs.new table dir clock).ParquetCached v ∧
      (Fs.withCache table dir clock fun _ => none).ParquetCached v :=
  ⟨fun _ _ h => by simp [Fs.new, Fs.cacheGet] at h,
    fun _ _ h => by simp [Fs.withCache, Fs.cacheGet] at h⟩

/-- After any run of calls from a state with no stale parquet content, whichever of their
collaborator calls failed, a read of a registered parquet file returns the bytes of that
file's CSV from the offset, from the cache or not, when its view calls succeed and
`offset + count` does not overflow. -/
theorem read_parquet_after_serveOps (fs : Fs Tbl) (ops : List (NfsOp × Faults))
    (hpc : fs.ParquetCached v) {id : Nat} {path : Str} (hid : parquetFileIdStart ≤ id)
    (hpath : (fs.serveOps v ops).parquetFiles.get id = some path) (offset : UInt64)
    (count : UInt32) (io : Faults) (hsum : offset.toNat + count.toNat < 2 ^ 64)
    (hview : io .viewRead = false) (hsize : io .size = false) :
    (read v (fs.serveOps v ops) id offset count io).1 =
      some (.ok (chunk (v.fileCsv path) offset.toNat count.toNat,
        decide ((v.fileCsv path).length ≤
          offset.toNat + (chunk (v.fileCsv path) offset.toNat count.toNat).length))) := by
  have hne : id ≠ dataCsvId := by
    rintro rfl
    exact absurd hid (by decide)
  rw [read, if_neg hne, if_pos hid, hpath]
  exact readThrough_of_cached _ _ _ _ _ _ (hpc.serveOps ops path) hsum hview hsize

/-- The verbatim view, with each parquet file's CSV the bytes of its path. -/
def pathView : CsvView (List UInt8) := { CsvView.verbatim with fileCsv := fun p => p.bytes }

/-- A lookup that registers `a.parquet` under id 100, a read that caches its CSV, a write to
`data.csv` and a remove whose `cache.remove` fails. -/
def parquetSession : List (NfsOp × Faults) :=
  [(.lookup dataDirId sampleA.name (some [some sampleA]) .insertion, Faults.none),
    (.read 100 0 64, Faults.none), (.write dataCsvId 0 (ascii "x"), Faults.none),
    (.remove dataDirId (ascii "data.csv"), fun c => decide (c = .cacheRemove))]

/-- `read_parquet_after_serveOps` after `parquetSession`: four bytes from offset 2 of
`a.parquet`, served from the cache. -/
theorem read_parquet_after_serveOps_sample :
    (sampleFs (ascii "t")).ParquetCached pathView ∧ parquetFileIdStart ≤ 100 ∧
      ((sampleFs (ascii "t")).serveOps pathView parquetSession).parquetFiles.get 100 =
        some (fromUtf8Lossy sampleA.name) ∧
      (2 : UInt64).toNat + (4 : UInt32).toNat < 2 ^ 64 ∧
      (read pathView ((sampleFs (ascii "t")).serveOps pathView parquetSession) 100 2 4
        Faults.none).1 = some (.ok (ascii "parq", false)) :=
  ⟨(Fs.parquetCached_new _ _ _).2, by decide, rfl, by decide,
    (@read_parquet_after_serveOps _ pathView (sampleFs (ascii "t")) parquetSession
      (Fs.parquetCached_new _ _ _).2 100 (fromUtf8Lossy sampleA.name) (by decide) rfl 2 4
      Faults.none (by decide) rfl rfl).trans rfl⟩

/-- A call whose `cache.insert`, `cache.remove` and `generate_csv` succeed keeps the cached
CSV coherent with the table, whatever else it does. -/
theorem Fs.Coherent.effect {fs fs' : Fs Tbl} (hc : fs.Coherent v) {io : Faults} {op : NfsOp}
    (hio : io .cacheInsert = false ∧ io .cacheRemove = false ∧ io .generateCsv = false)
    (he : Effect v io op fs fs') : fs'.Coherent v := by
  obtain ⟨hins, hrem, hgen⟩ := hio
  cases he with
  | keep | refresh _ _ | cacheAttr _ _ _ _ => exact hc
  | fillCsv => exact Fs.coherent_cacheInsert (.inl hc)
  | fillFile path => rwa [Fs.Coherent, Fs.cachedCsv_cacheInsert_fileKey, Fs.cacheInsert_table]
  | commitUncached _ h => simp [hgen] at h
  | commit t _ =>
    rw [hins]
    exact Fs.coherent_cacheInsert (.inr rfl)
  | truncate t _ => exact .inl (by rw [Fs.cachedCsv_cacheRemove, hrem]; rfl)
  | env e _ => exact hc.env e

/-- A call other than `remove` whose `size` and `generate_csv` succeed keeps the cached
attributes of `data.csv` fresh, whatever else it does. -/
theorem Fs.AttrFresh.effect {fs fs' : Fs Tbl} (ha : fs.AttrFresh v) {io : Faults} {op : NfsOp}
    (hio : io .size = false ∧ io .generateCsv = false) (hop : op.isRemove = false)
    (he : Effect v io op fs fs') : fs'.AttrFresh v := by
  obtain ⟨hsize, hgen⟩ := hio
  have hlen : ∀ t : Tbl, sizeOrZero (v.generateCsv t) (io .size) = (v.generateCsv t).length :=
    fun _ => by rw [sizeOrZero, hsize, if_neg Bool.false_ne_true]
  cases he with
  | keep | refresh _ _ => exact ha
  | cacheAttr id attr _ h =>
    by_cases hid : id = dataCsvId
    · subst hid
      rw [computeAttr_dataCsv, Except.ok.injEq] at h
      exact h ▸ Fs.attrFresh_setAttr (hlen fs.table) _
    · exact ha.setAttr_ne hid attr
  | fillCsv | fillFile _ => exact ha.cacheInsert _ _ _
  | commitUncached _ h => simp [hgen] at h
  | commit t _ => exact Fs.attrFresh_setAttr (hlen _) _
  | truncate _ h => exact absurd (hop.symm.trans h) Bool.false_ne_true
  | env e _ => exact ha.env e

/-- Over every run of calls whose `cache.insert`, `cache.remove` and `generate_csv` succeed, a
coherent cache stays coherent. -/
theorem Fs.Coherent.serveOps {fs : Fs Tbl} (hc : fs.Coherent v) {ops : List (NfsOp × Faults)}
    (hops : ∀ p ∈ ops, p.2 .cacheInsert = false ∧ p.2 .cacheRemove = false ∧
      p.2 .generateCsv = false) : (fs.serveOps v ops).Coherent v := by
  induction ops generalizing fs with
  | nil => exact hc
  | cons op ops ih =>
    obtain ⟨hop, hrest⟩ := List.forall_mem_cons.mp hops
    exact ih (hc.effect hop (fs.serve_effect op.2 op.1)) hrest

/-- Over every run of calls without `remove` whose `size` and `generate_csv` succeed, fresh
cached attributes stay fresh. -/
theorem Fs.AttrFresh.serveOps {fs : Fs Tbl} (ha : fs.AttrFresh v) {ops : List (NfsOp × Faults)}
    (hops : ∀ p ∈ ops, p.1.isRemove = false ∧ p.2 .size = false ∧ p.2 .generateCsv = false) :
    (fs.serveOps v ops).AttrFresh v := by
  induction ops generalizing fs with
  | nil => exact ha
  | cons op ops ih =>
    obtain ⟨hop, hrest⟩ := List.forall_mem_cons.mp hops
    exact ih (ha.effect hop.2 hop.1 (fs.serve_effect op.2 op.1)) hrest

/-- Over every run of calls from a coherent cache, in which each call's `cache.insert`,
`cache.remove` and `generate_csv` succeed, the cached CSV stays coherent with the table; and
over every run without `remove` from fresh cached attributes, in which each call's `size`
and `generate_csv` succeed, the cached attributes of `data.csv` stay fresh. Every other
collaborator call may fail, and the caches may drop entries and the clock move between
calls. -/
theorem serveOps_caches_fresh (fs : Fs Tbl) (ops : List (NfsOp × Faults)) :
    (fs.Coherent v → (∀ p ∈ ops, p.2 .cacheInsert = false ∧ p.2 .cacheRemove = false ∧
        p.2 .generateCsv = false) → (fs.serveOps v ops).Coherent v) ∧
      (fs.AttrFresh v → (∀ p ∈ ops, p.1.isRemove = false ∧ p.2 .size = false ∧
        p.2 .generateCsv = false) → (fs.serveOps v ops).AttrFresh v) :=
  ⟨fun hc hops => hc.serveOps hops, fun ha hops => ha.serveOps hops⟩

/-- The clock moving to 7, a write whose `cache.get` fails, a read at offset 0 whose `cache.get`
fails, a getattr of `data.csv` whose `view.read` fails, and a lookup whose `read_dir` fails. -/
def faultySession : List (NfsOp × Faults) :=
  [(.env (.tick 7), Faults.none), (.write dataCsvId 0 (ascii "b"), fun c => decide (c = .cacheGet)),
    (.read dataCsvId 0 8, fun c => decide (c = .cacheGet)),
    (.getattr dataCsvId, fun c => decide (c = .viewRead)),
    (.lookup dataDirId (ascii "x.parquet") none .insertion, Faults.none)]

/-- `serveOps_caches_fresh` over `faultySession` from the table `a`: the caches end holding
`b` and its length, stamped at 7. -/
theorem serveOps_caches_fresh_sample :
    ((sampleFs (ascii "a")).serveOps CsvView.verbatim faultySession).cachedCsv =
        some (ascii "b") ∧
      ((sampleFs (ascii "a")).serveOps CsvView.verbatim faultySession).attrCache dataCsvId =
        some (fileAttr dataCsvId 1 7) ∧
      ((sampleFs (ascii "a")).serveOps CsvView.verbatim faultySession).Coherent
        CsvView.verbatim ∧
      ((sampleFs (ascii "a")).serveOps CsvView.verbatim faultySession).AttrFresh
        CsvView.verbatim :=
  ⟨rfl, rfl,
    (serveOps_caches_fresh _ _).1 (Fs.coherent_attrFresh_withCache _ _ _ rfl).1 (by decide),
    (serveOps_caches_fresh _ _).2 (Fs.coherent_attrFresh_withCache _ _ _ rfl).2 (by decide)⟩

/-- No handler invalidates the attributes cached for an id other than `data.csv`'s: whatever a
step other than their expiry does, they stay. -/
theorem Fs.attrCache_effect {fs fs' : Fs Tbl} {io : Faults} {op : NfsOp}
    (he : Effect v io op fs fs') {id : Nat} (hid : id ≠ dataCsvId)
    (hexp : op ≠ .env (.expire id)) {attr : Fattr3} (h : fs.attrCache id = some attr) :
    fs'.attrCache id = some attr := by
  cases he with
  | keep | refresh _ _ | commitUncached _ _ => exact h
  | cacheAttr id' _ hmiss _ =>
    have hne : id ≠ id' := by
      rintro rfl
      simp [h] at hmiss
    simpa [Fs.setAttr, Function.update_noteq hne] using h
  | fillCsv | fillFile _ | truncate _ _ => simpa using h
  | commit _ _ => simpa [writeDone, Fs.setAttr, Function.update_noteq hid] using h
  | env e rfl => rwa [Fs.attrCache_env fs fun he => hexp (he ▸ rfl)]

/-- Over a run of calls in which the attribute cache never drops the entry of an id other than
`data.csv`'s, the attributes cached for it stay. -/
theorem Fs.attrCache_serveOps {fs : Fs Tbl} {id : Nat} (hid : id ≠ dataCsvId) {attr : Fattr3}
    (h : fs.attrCache id = some attr) (ops : List (NfsOp × Faults))
    (hops : ∀ p ∈ ops, p.1 ≠ .env (.expire id)) : (fs.serveOps v ops).attrCache id = some attr := by
  induction ops generalizing fs with
  | nil => exact h
  | cons op ops ih =>
    obtain ⟨hop, hrest⟩ := List.forall_mem_cons.mp hops
    exact ih (Fs.attrCache_effect (fs.serve_effect op.2 op.1) hid hop h) hrest

/-- Over every run of calls, whichever collaborator calls fail, once attributes are cached
for an id other than `data.csv`'s, `getattr` of that id returns them until the attribute
cache drops them, even after a refresh has given the id to another parquet file. -/
theorem getattr_cached_after_serveOps (fs : Fs Tbl) (ops : List (NfsOp × Faults)) {id : Nat}
    (hid : id ≠ dataCsvId) {attr : Fattr3} (h : fs.attrCache id = some attr)
    (hops : ∀ p ∈ ops, p.1 ≠ .env (.expire id)) (io : Faults) :
    (getattr v (fs.serveOps v ops) id io).1 = .ok attr := by
  simp [getattr, Fs.attrCache_serveOps hid h ops hops]

/-- A server whose base directory holds `a.parquet` and `b.parquet`. -/
def twoFilesFs : Fs (List UInt8) := .withCache (ascii "t") [sampleA, sampleB] 0 fun _ => none

/-- A lookup that registers `a.parquet` under id 100, and a getattr that caches its
attributes. -/
def cacheAttrA : List (NfsOp × Faults) :=
  [(.lookup dataDirId sampleA.name (some [some sampleA]) .insertion, Faults.none),
    (.getattr 100, Faults.none)]

/-- A lookup once `read_dir` yields `b.parquet` before `a.parquet`: the refresh gives id 100
to `b.parquet`. -/
def renumberB : List (NfsOp × Faults) :=
  [(.lookup dataDirId sampleB.name (some [some sampleB, some sampleA]) .insertion, Faults.none)]

/-- `getattr_cached_after_serveOps` after `renumberB`: id 100 now names `b.parquet`, whose
attributes carry its 20 bytes, yet `getattr` returns those of `a.parquet`, 10 bytes. -/
theorem getattr_cached_after_serveOps_sample :
    100 ≠ dataCsvId ∧ (twoFilesFs.serveOps pathView cacheAttrA).attrCache 100 =
        some (fileAttr 100 10 0) ∧
      (∀ p ∈ renumberB, p.1 ≠ .env (.expire 100)) ∧
      ((twoFilesFs.serveOps pathView cacheAttrA).serveOps pathView renumberB).parquetFiles.get
        100 = some (fromUtf8Lossy sampleB.name) ∧
      computeAttr pathView ((twoFilesFs.serveOps pathView cacheAttrA).serveOps pathView renumberB)
        100 Faults.none = .ok (fileAttr 100 20 0) ∧
      (getattr pathView ((twoFilesFs.serveOps pathView cacheAttrA).serveOps pathView renumberB)
        100 Faults.none).1 = .ok (fileAttr 100 10 0) :=
  have hops : ∀ p ∈ renumberB, p.1 ≠ .env (.expire 100) := by simp [renumberB]
  ⟨by decide, rfl, hops, rfl, rfl, getattr_cached_after_serveOps _ _ (by decide) rfl hops _⟩

end Fsdb.Nfs
