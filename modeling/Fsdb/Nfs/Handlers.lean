import Fsdb.Nfs.Read

/-!
# Attributes, writes and removal

`getattr` answers from the attribute cache and otherwise computes and caches the
attributes. `write` accepts writes to `data.csv` only: it hands the data and the cached
CSV, as the diff base, to `apply_write`, then refreshes the content cache and the
attribute cache. Its offset parameter is `_offset`, and no step reads it. `remove` of
`data.csv` deletes every row and drops the cached CSV.
-/

namespace Fsdb.Nfs

variable {Tbl : Type}

/-- The attributes `getattr` computes on a cache miss. -/
def computeAttr (v : CsvView Tbl) (fs : Fs Tbl) (id : Nat) (io : Faults) : Except Nfsstat3 Fattr3 :=
  if id = rootId then .ok (dirAttr rootId fs.clock)
  else if id = dataDirId then .ok (dirAttr dataDirId fs.clock)
  else if id = dataCsvId then
    .ok (fileAttr dataCsvId (sizeOrZero (v.generateCsv fs.table) (io .size)) fs.clock)
  else if parquetFileIdStart ≤ id then
    match fs.parquetFiles.get id with
    | some path =>
      match metadataLen fs.dir path with
      | some len => .ok (fileAttr id len fs.clock)
      | none => .error .noent
    | none => .error .noent
  else .error .noent

/-- The attributes of `data.csv` carry the size of the table's CSV, 0 when `size()` fails. -/
theorem computeAttr_dataCsv (v : CsvView Tbl) (fs : Fs Tbl) (io : Faults) :
    computeAttr v fs dataCsvId io =
      .ok (fileAttr dataCsvId (sizeOrZero (v.generateCsv fs.table) (io .size)) fs.clock) := by
  rw [computeAttr, if_neg (by decide), if_neg (by decide), if_pos rfl]

/-- `FsdbFilesystem::getattr`. -/
def getattr (v : CsvView Tbl) (fs : Fs Tbl) (id : Nat) (io : Faults) :
    Except Nfsstat3 Fattr3 × Fs Tbl :=
  match fs.attrCache id with
  | some cached => (.ok cached, fs)
  | none =>
    match computeAttr v fs id io with
    | .ok attr => (.ok attr, fs.setAttr id attr)
    | .error e => (.error e, fs)

/-- The state `getattr` leaves: as it was, or, on a miss, with the attributes it computed
cached. -/
theorem getattr_snd (v : CsvView Tbl) (fs : Fs Tbl) (id : Nat) (io : Faults) :
    (getattr v fs id io).2 = fs ∨
      fs.attrCache id = none ∧ ∃ attr, computeAttr v fs id io = .ok attr ∧
        (getattr v fs id io).2 = fs.setAttr id attr := by
  unfold getattr
  split
  · exact .inl rfl
  · split
    · exact .inr ⟨‹_›, _, ‹_›, rfl⟩
    · exact .inl rfl

/-- A getattr that answers an error caches nothing. -/
theorem getattr_snd_of_error {v : CsvView Tbl} {fs : Fs Tbl} {id : Nat} {io : Faults}
    {e : Nfsstat3} (h : (getattr v fs id io).1 = .error e) : (getattr v fs id io).2 = fs := by
  rcases getattr_snd v fs id io with h' | ⟨hmiss, attr, hattr, -⟩
  · exact h'
  · simp [getattr, hmiss, hattr] at h

/-- A getattr of an id from 100 that neither the attribute cache nor the parquet map holds
answers `NFS3ERR_NOENT`. -/
theorem getattr_unregistered {v : CsvView Tbl} {fs : Fs Tbl} {id : Nat}
    (hid : parquetFileIdStart ≤ id) (h : fs.parquetFiles.get id = none)
    (hmiss : fs.attrCache id = none) (io : Faults) :
    (getattr v fs id io).1 = .error .noent := by
  have hne : ∀ n, n < parquetFileIdStart → id ≠ n := by rintro n hn rfl; omega
  simp [getattr, hmiss, computeAttr, hne rootId (by decide), hne dataDirId (by decide),
    hne dataCsvId (by decide), hid, h]

/-- The end of a committed `write`: the view's new size goes to the attribute cache. -/
def writeDone (v : CsvView Tbl) (fs : Fs Tbl) (io : Faults) : Except Nfsstat3 Fattr3 × Fs Tbl :=
  let attr := fileAttr dataCsvId (sizeOrZero (v.generateCsv fs.table) (io .size)) fs.clock
  (.ok attr, fs.setAttr dataCsvId attr)

/-- `FsdbFilesystem::write`. -/
def write (v : CsvView Tbl) (fs : Fs Tbl) (id : Nat) (_offset : UInt64) (data : List UInt8)
    (io : Faults) : Except Nfsstat3 Fattr3 × Fs Tbl :=
  if id = dataCsvId then
    let cached := fs.cacheGet csvDataKey (io .cacheGet)
    match (if io .applyWrite then none else v.applyWrite fs.table data cached) with
    | none => (.error .io, fs)
    | some t =>
      let fs1 := { fs with table := t }
      match fs.cache with
      | some _ =>
        if io .generateCsv then (.error .io, fs1)
        else writeDone v (fs1.cacheInsert csvDataKey (v.generateCsv t) (io .cacheInsert)) io
      | none => writeDone v fs1 io
  else (.error .rofs, fs)

/-- The predicate `1=1` that `remove` deletes rows by. -/
def everyRow : Str := ⟨ascii "1=1", by decide⟩

/-- `FsdbFilesystem::remove`. -/
def remove (v : CsvView Tbl) (fs : Fs Tbl) (dirid : Nat) (filename : List UInt8) (io : Faults) :
    Except Nfsstat3 Unit × Fs Tbl :=
  if dirid = dataDirId ∧ fromUtf8Lossy filename = dataCsvName then
    match (if io .deleteRows then none else v.deleteRowsWhere fs.table everyRow) with
    | none => (.error .io, fs)
    | some t => (.ok (), ({ fs with table := t }).cacheRemove csvDataKey (io .cacheRemove))
  else (.error .notsupp, fs)

/-- The state `remove` leaves: as it was, or with a new table and `csv:data` removed. -/
theorem remove_snd (v : CsvView Tbl) (fs : Fs Tbl) (dirid : Nat) (filename : List UInt8)
    (io : Faults) :
    (remove v fs dirid filename io).2 = fs ∨
      ∃ t, (remove v fs dirid filename io).2 =
        ({ fs with table := t }).cacheRemove csvDataKey (io .cacheRemove) := by
  unfold remove
  generalize (if io .deleteRows then none else v.deleteRowsWhere fs.table everyRow) = r
  split_ifs
  · cases r with
    | none => exact .inl rfl
    | some t => exact .inr ⟨t, rfl⟩
  · exact .inl rfl

/-- A remove that answers an error leaves the state as it was. -/
theorem remove_snd_of_error {v : CsvView Tbl} {fs : Fs Tbl} {dirid : Nat}
    {filename : List UInt8} {io : Faults} {e : Nfsstat3}
    (h : (remove v fs dirid filename io).1 = .error e) :
    (remove v fs dirid filename io).2 = fs := by
  unfold remove at h ⊢
  generalize (if io .deleteRows then none else v.deleteRowsWhere fs.table everyRow) = r at h ⊢
  split_ifs at h ⊢
  · cases r
    · rfl
    · cases h
  · rfl

/-- The table `apply_write` produces in a write to `data.csv`, or none when it fails. -/
def Fs.applied (v : CsvView Tbl) (fs : Fs Tbl) (data : List UInt8) (io : Faults) : Option Tbl :=
  if io .applyWrite then none else v.applyWrite fs.table data (fs.cacheGet csvDataKey (io .cacheGet))

/-- What a write to `data.csv` does, in one equation: nothing when `apply_write` fails; the
new table and an error when `generate_csv` fails with caching on; otherwise the new table,
the new CSV offered to the cache, and the new size in the attribute cache. -/
theorem write_dataCsv (v : CsvView Tbl) (fs : Fs Tbl) (offset : UInt64) (data : List UInt8)
    (io : Faults) :
    write v fs dataCsvId offset data io =
      match fs.applied v data io with
      | none => (.error .io, fs)
      | some t =>
        if fs.cache.isSome ∧ io .generateCsv = true then (.error .io, { fs with table := t })
        else writeDone v (({ fs with table := t }).cacheInsert csvDataKey (v.generateCsv t)
          (io .cacheInsert)) io := by
  rw [write, if_pos rfl]
  unfold Fs.applied
  split
  · rfl
  · cases hc : fs.cache <;> simp [hc, Fs.cacheInsert]

/-- A write that answers an error leaves the state as it was, having committed nothing, unless
`apply_write` committed to `data.csv` before `generate_csv` failed with caching on: then the
error is `NFS3ERR_IO` and only the table changed, to the committed one. -/
theorem write_snd_of_error {v : CsvView Tbl} {fs : Fs Tbl} {id : Nat} {offset : UInt64}
    {data : List UInt8} {io : Faults} {e : Nfsstat3}
    (h : (write v fs id offset data io).1 = .error e) :
    (write v fs id offset data io).2 = fs ∧ (id = dataCsvId → fs.applied v data io = none) ∨
      id = dataCsvId ∧ e = .io ∧ ∃ t, fs.applied v data io = some t ∧ fs.cache.isSome ∧
        io .generateCsv = true ∧ (write v fs id offset data io).2 = { fs with table := t } := by
  by_cases hid : id = dataCsvId
  · subst hid
    rw [write_dataCsv] at h ⊢
    cases happ : fs.applied v data io with
    | none => exact .inl ⟨by simp [happ], fun _ => rfl⟩
    | some t =>
      simp only [happ] at h ⊢
      split_ifs at h ⊢ with hgen
      · exact .inr ⟨trivial, (Except.error.inj h).symm, t, rfl, hgen.1, hgen.2, rfl⟩
      · simp [writeDone] at h
  · exact .inl ⟨by simp [write, hid], fun h => absurd h hid⟩

@[simp] theorem Fs.cachedCsv_withTable (fs : Fs Tbl) (t : Tbl) :
    ({ fs with table := t } : Fs Tbl).cachedCsv = fs.cachedCsv := rfl

@[simp] theorem Fs.cachedCsv_setAttr (fs : Fs Tbl) (id : Nat) (attr : Fattr3) :
    (fs.setAttr id attr).cachedCsv = fs.cachedCsv := rfl

/-- From `a` cached, a write of `b` whose `generate_csv` fails after `apply_write` committed
returns `NFS3ERR_IO` with the table `b` and `a` still cached; one whose `size()` fails returns
`Ok` with size 0; one whose `cache.insert` fails returns `Ok` with `a` still cached. -/
theorem write_faults_after_commit :
    (write CsvView.verbatim ((sampleFs (ascii "a")).cacheInsert csvDataKey (ascii "a") false)
        dataCsvId 0 (ascii "b") (fun c => c = .generateCsv)).1 = .error .io ∧
      (write CsvView.verbatim ((sampleFs (ascii "a")).cacheInsert csvDataKey (ascii "a") false)
        dataCsvId 0 (ascii "b") (fun c => c = .generateCsv)).2.table = ascii "b" ∧
      (write CsvView.verbatim ((sampleFs (ascii "a")).cacheInsert csvDataKey (ascii "a") false)
        dataCsvId 0 (ascii "b") (fun c => c = .generateCsv)).2.cachedCsv = some (ascii "a") ∧
      (write CsvView.verbatim ((sampleFs (ascii "a")).cacheInsert csvDataKey (ascii "a") false)
        dataCsvId 0 (ascii "b") (fun c => c = .size)).1 = .ok (fileAttr dataCsvId 0 0) ∧
      (write CsvView.verbatim ((sampleFs (ascii "a")).cacheInsert csvDataKey (ascii "a") false)
        dataCsvId 0 (ascii "b") (fun c => c = .size)).2.table = ascii "b" ∧
      (write CsvView.verbatim ((sampleFs (ascii "a")).cacheInsert csvDataKey (ascii "a") false)
        dataCsvId 0 (ascii "b") (fun c => c = .cacheInsert)).1 = .ok (fileAttr dataCsvId 1 0) ∧
      (write CsvView.verbatim ((sampleFs (ascii "a")).cacheInsert csvDataKey (ascii "a") false)
        dataCsvId 0 (ascii "b") (fun c => c = .cacheInsert)).2.cachedCsv = some (ascii "a") :=
  ⟨rfl, rfl, rfl, rfl, rfl, rfl, rfl⟩

/-- A write that commits and returns `Ok` while its `cache.insert` fails, which the handler
ignores, leaves the CSV from before the write cached: a later read of `data.csv`, every call
succeeding, returns that CSV's bytes, not those of the written table. -/
theorem write_insert_failure_stale_read (v : CsvView Tbl) (fs : Fs Tbl) {old : List UInt8}
    (hold : fs.cachedCsv = some old) (offset : UInt64) (data : List UInt8) (io : Faults)
    {t : Tbl} (happ : fs.applied v data io = some t) (hgen : io .generateCsv = false)
    (hins : io .cacheInsert = true) (offset' : UInt64) (count : UInt32)
    (hsum : offset'.toNat + count.toNat < 2 ^ 64) :
    (∃ attr, (write v fs dataCsvId offset data io).1 = .ok attr) ∧
      (write v fs dataCsvId offset data io).2.table = t ∧
      (read v (write v fs dataCsvId offset data io).2 dataCsvId offset' count Faults.none).1 =
        some (.ok (chunk old offset'.toNat count.toNat,
          decide (old.length ≤ offset'.toNat + (chunk old offset'.toNat count.toNat).length))) := by
  simp only [write_dataCsv, happ, hgen, hins, Fs.cacheInsert_fails, Bool.false_eq_true, and_false,
    if_false]
  refine ⟨⟨_, rfl⟩, rfl, ?_⟩
  rw [read, if_pos rfl]
  refine readThrough_of_hit _ _ _ _ _ Faults.none ?_ hsum
  rw [Fs.cacheGet_csvDataKey]
  exact hold

/-- `write_insert_failure_stale_read` from the cached table `a`: the write of `b` returns `Ok`
and a read then returns `a`. -/
theorem write_insert_failure_stale_read_sample :
    ((sampleFs (ascii "a")).cacheInsert csvDataKey (ascii "a") false).cachedCsv =
        some (ascii "a") ∧
      ((sampleFs (ascii "a")).cacheInsert csvDataKey (ascii "a") false).applied CsvView.verbatim
        (ascii "b") (fun c => decide (c = .cacheInsert)) = some (ascii "b") ∧
      (0 : UInt64).toNat + (8 : UInt32).toNat < 2 ^ 64 ∧
      (read CsvView.verbatim (write CsvView.verbatim ((sampleFs (ascii "a")).cacheInsert
        csvDataKey (ascii "a") false) dataCsvId 0 (ascii "b")
          (fun c => decide (c = .cacheInsert))).2 dataCsvId 0 8 Faults.none).1 =
        some (.ok (ascii "a", true)) :=
  ⟨rfl, rfl, by decide, ((write_insert_failure_stale_read CsvView.verbatim
    ((sampleFs (ascii "a")).cacheInsert csvDataKey (ascii "a") false) rfl 0 (ascii "b")
    (fun c => decide (c = .cacheInsert)) rfl rfl rfl 0 8 (by decide)).2.2).trans rfl⟩

/-- The claimed effect of `write(DATA_CSV_ID, offset, data)` on the CSV: `data` over the
bytes from `offset`, with zero bytes filling any gap before it. -/
def patch (content : List UInt8) (offset : Nat) (data : List UInt8) : List UInt8 :=
  content.take offset ++ List.replicate (offset - content.length) 0 ++ data ++
    content.drop (offset + data.length)

/-- Writes to `data.csv`, one after another with no failing call, until one returns an
error. -/
def runWrites (v : CsvView Tbl) (fs : Fs Tbl) : List (UInt64 × List UInt8) → Option (Fs Tbl)
  | [] => some fs
  | (offset, data) :: ws =>
    match write v fs dataCsvId offset data Faults.none with
    | (.ok _, fs') => runWrites v fs' ws
    | (.error _, _) => none

/-- `apply_write` on each data in turn, from diff base `base`; with caching on, each later
diff base is the CSV of the table the previous write produced. -/
def applyEach (v : CsvView Tbl) (caching : Bool) :
    Tbl → Option (List UInt8) → List (List UInt8) → Option Tbl
  | t, _, [] => some t
  | t, base, data :: rest =>
    (v.applyWrite t data base).bind fun t' =>
      applyEach v caching t' (if caching then some (v.generateCsv t') else none) rest

/-- A run of writes leaves the table that `apply_write` makes of the written data alone,
each data as the whole new content, whatever the offsets were. -/
theorem runWrites_table (v : CsvView Tbl) (fs : Fs Tbl) (ws : List (UInt64 × List UInt8)) :
    (runWrites v fs ws).map Fs.table =
      applyEach v fs.cache.isSome fs.table fs.cachedCsv (ws.map Prod.snd) := by
  induction ws generalizing fs with
  | nil => rfl
  | cons w ws ih =>
    obtain ⟨offset, data⟩ := w
    have happ : fs.applied v data Faults.none = v.applyWrite fs.table data fs.cachedCsv := by
      simp [Fs.applied, Faults.none, Fs.cacheGet_csvDataKey]
    simp only [runWrites, write_dataCsv, happ, List.map_cons, applyEach]
    cases v.applyWrite fs.table data fs.cachedCsv with
    | none => rfl
    | some t =>
      simp only [Faults.none, Bool.false_eq_true, and_false, if_false, writeDone,
        Option.bind_some]
      rw [ih]
      cases hc : fs.cache <;> simp [hc, Fs.cacheInsert, Fs.setAttr, Fs.cachedCsv]

/-- Writing `abcd` as the two chunks `ab` at 0 and `cd` at 2, as a client with a write size
of two bytes does, leaves the table `cd`; one write of `abcd` leaves `abcd`, which is also
what writing the chunks over the bytes at their offsets gives. -/
theorem chunked_write_keeps_last_chunk :
    (runWrites CsvView.verbatim (sampleFs []) [(0, ascii "ab"), (2, ascii "cd")]).map Fs.table =
        some (ascii "cd") ∧
      (runWrites CsvView.verbatim (sampleFs []) [(0, ascii "abcd")]).map Fs.table =
        some (ascii "abcd") ∧
      patch (patch [] 0 (ascii "ab")) 2 (ascii "cd") = ascii "abcd" := by
  decide

end Fsdb.Nfs
