import Fsdb.Nfs.Server

/-!
# What a failed call leaves

A handler that answers an NFS error has, as a rule, changed nothing: `read`, `getattr` and
`remove` fail before their first change, and so does `write` when `apply_write` fails. Two
paths break the rule, and the three cases exclude each other (`failed_call_state`). A `write` whose `generate_csv` fails after
`apply_write` committed answers `NFS3ERR_IO` with the new table in place. And
`refresh_parquet_files` clears the parquet map before it calls `read_dir`, and returns on a
`read_dir` error with the map left empty. So a `lookup` or `readdir` of the data directory
that answers `NFS3ERR_IO` unregisters every parquet file: until a later call lists the
directory successfully, every read of a parquet id answers `NFS3ERR_NOENT`, and so does every
getattr of one, except that `getattr` keeps answering the attributes it has cached until the
attribute cache drops them (`failed_listing_hides_parquet`).

`lookup` takes the map's lock twice, in `refresh_parquet_files` and again for its search, so
other calls can refresh the map in between. A lookup then answers what a lookup alone answers
over the listing of the last refresh, and a failed one leaves it `NFS3ERR_NOENT` for a file
its own listing held (`lookup_interleaved`).
-/

namespace Fsdb.Nfs

variable {Tbl : Type} {v : CsvView Tbl}

/-- The NFS error of a handler's reply; none for a success. -/
def replyError {α : Type} : Except Nfsstat3 α → Option Nfsstat3
  | .error e => some e
  | .ok _ => none

@[simp] theorem replyError_eq_some {α : Type} {r : Except Nfsstat3 α} {e : Nfsstat3} :
    replyError r = some e ↔ r = .error e := by
  cases r <;> simp [replyError]

/-- The NFS error a call answers: none when it succeeds, or when `read` panics. -/
def Fs.callError (v : CsvView Tbl) (fs : Fs Tbl) (io : Faults) : NfsOp → Option Nfsstat3
  | .lookup dirid filename listing ord => replyError (lookup fs dirid filename listing ord).1
  | .getattr id => replyError (getattr v fs id io).1
  | .read id offset count => (read v fs id offset count io).1.bind replyError
  | .write id offset data => replyError (write v fs id offset data io).1
  | .remove dirid filename => replyError (remove v fs dirid filename io).1
  | .readdir dirid startAfter maxEntries listing ord =>
    replyError (readdir v fs dirid startAfter maxEntries listing ord io).1
  | .env _ => none

/-- The calls that refresh the parquet map: a `lookup` in the data directory of a name other
than `data.csv`, and a `readdir` of the data directory. -/
def NfsOp.refreshes : NfsOp → Bool
  | .lookup dirid filename _ _ => decide (dirid = dataDirId ∧ fromUtf8Lossy filename ≠ dataCsvName)
  | .readdir dirid _ _ _ _ => decide (dirid = dataDirId)
  | _ => false

/-- A call that answers an NFS error leaves the state as it was, unless it is a `lookup` or
`readdir` that refreshes the parquet map from its own `read_dir`, or a write to `data.csv`
whose `generate_csv` failed, caching on, after `apply_write` committed the table it leaves;
the three cases exclude each other. -/
theorem failed_call_state (fs : Fs Tbl) (io : Faults) (op : NfsOp) {e : Nfsstat3}
    (h : fs.callError v io op = some e) :
    (op.refreshes = false ∧ (∀ offset data, op = .write dataCsvId offset data →
        fs.applied v data io = none) ∧ fs.serve v io op = fs) ∨
      (∃ listing, op.refreshes = true ∧ op.listing = some listing ∧
        fs.serve v io op = { fs with parquetFiles := (refreshParquetFiles listing).1 }) ∨
      ∃ offset data t, op = .write dataCsvId offset data ∧ e = .io ∧
        fs.applied v data io = some t ∧ fs.cache.isSome ∧ io .generateCsv = true ∧
        fs.serve v io op = { fs with table := t } := by
  cases op with
  | lookup dirid filename listing ord =>
    rw [Fs.serve, lookup_snd]
    split_ifs with hr
    · exact .inr (.inl ⟨listing, by simpa [NfsOp.refreshes] using hr, rfl, rfl⟩)
    · exact .inl ⟨by simpa [NfsOp.refreshes] using hr, (fun _ _ h => nomatch h), rfl⟩
  | getattr id =>
    exact .inl ⟨rfl, (fun _ _ h => nomatch h), getattr_snd_of_error (replyError_eq_some.mp h)⟩
  | read id offset count =>
    obtain ⟨_, hr, hre⟩ := Option.bind_eq_some.mp h
    exact .inl ⟨rfl, (fun _ _ h => nomatch h),
      read_snd_of_error (hr.trans (congrArg some (replyError_eq_some.mp hre)))⟩
  | write id offset data =>
    rcases write_snd_of_error (replyError_eq_some.mp h) with ⟨h', happ⟩ |
      ⟨rfl, rfl, t, happ, hc, hg, h'⟩
    · refine .inl ⟨rfl, fun offset' data' heq => ?_, h'⟩
      obtain ⟨rfl, -, rfl⟩ := NfsOp.write.inj heq
      exact happ rfl
    · exact .inr (.inr ⟨offset, data, t, rfl, rfl, happ, hc, hg, h'⟩)
  | remove dirid filename =>
    exact .inl ⟨rfl, (fun _ _ h => nomatch h), remove_snd_of_error (replyError_eq_some.mp h)⟩
  | readdir dirid startAfter maxEntries listing ord =>
    rw [Fs.serve, readdir_snd]
    split_ifs with hr
    · exact .inr (.inl ⟨listing, by simpa [NfsOp.refreshes] using hr, rfl, rfl⟩)
    · exact .inl ⟨by simpa [NfsOp.refreshes] using hr, (fun _ _ h => nomatch h), rfl⟩
  | env _ => cases h

/-- The faults of a call whose `generate_csv` fails while every other collaborator call
succeeds. -/
def commitFault : Faults := fun c => decide (c = .generateCsv)

/-- `failed_call_state` on a write whose `generate_csv` fails: the reply is `NFS3ERR_IO` and
the table is `b`. -/
theorem failed_call_state_sample :
    (sampleFs (ascii "a")).callError CsvView.verbatim commitFault
        (.write dataCsvId 0 (ascii "b")) = some .io ∧
      ((sampleFs (ascii "a")).serve CsvView.verbatim commitFault
          (.write dataCsvId 0 (ascii "b"))).table = ascii "b" ∧
      (((NfsOp.write dataCsvId 0 (ascii "b")).refreshes = false ∧
          (∀ offset data, NfsOp.write dataCsvId 0 (ascii "b") = .write dataCsvId offset data →
            (sampleFs (ascii "a")).applied CsvView.verbatim data commitFault = none) ∧
          (sampleFs (ascii "a")).serve CsvView.verbatim commitFault
            (.write dataCsvId 0 (ascii "b")) = sampleFs (ascii "a")) ∨
        (∃ listing, (NfsOp.write dataCsvId 0 (ascii "b")).refreshes = true ∧
          (NfsOp.write dataCsvId 0 (ascii "b")).listing = some listing ∧
          (sampleFs (ascii "a")).serve CsvView.verbatim commitFault
              (.write dataCsvId 0 (ascii "b")) =
            { sampleFs (ascii "a") with parquetFiles := (refreshParquetFiles listing).1 }) ∨
        ∃ offset data t, NfsOp.write dataCsvId 0 (ascii "b") = .write dataCsvId offset data ∧
          Nfsstat3.io = .io ∧ (sampleFs (ascii "a")).applied CsvView.verbatim data commitFault =
            some t ∧ (sampleFs (ascii "a")).cache.isSome ∧ commitFault .generateCsv = true ∧
          (sampleFs (ascii "a")).serve CsvView.verbatim commitFault
              (.write dataCsvId 0 (ascii "b")) = { sampleFs (ascii "a") with table := t }) :=
  ⟨rfl, rfl, failed_call_state _ _ _ rfl⟩

/-- Calls that do not list the directory successfully keep a parquet map that holds no id
empty. -/
theorem Fs.unregistered_serveOps {fs : Fs Tbl} (h : ∀ id, fs.parquetFiles.get id = none)
    (ops : List (NfsOp × Faults)) (hops : ∀ p ∈ ops, ∀ es, p.1.listing ≠ some (some es)) :
    ∀ id, (fs.serveOps v ops).parquetFiles.get id = none := by
  induction ops generalizing fs with
  | nil => exact h
  | cons op ops ih =>
    refine ih (fun id => ?_) fun p hp => hops p (List.mem_cons_of_mem _ hp)
    rcases Fs.parquetFiles_effect (fs.serve_effect op.2 op.1) with h' | ⟨listing, hl, h'⟩
    · rw [h']
      exact h id
    · cases listing with
      | none => simp [h', refreshParquetFiles, ParquetMap.get, ParquetMap.empty]
      | some es => exact absurd hl (hops op (List.mem_cons_self _ _) es)

/-- After a `readdir` of the data directory, or a `lookup` there of a name other than
`data.csv`, whose `read_dir` fails, the call answers `NFS3ERR_IO`; and over every run of
calls that follows without listing the directory successfully, whichever collaborator calls
fail, a read of any id from 100 answers `NFS3ERR_NOENT`, and so does a getattr of such an id
whose attributes are not cached, while a getattr of one whose attributes were cached at the
failed call answers them as long as the attribute cache keeps them. -/
theorem failed_listing_hides_parquet (fs : Fs Tbl) (io : Faults) (op : NfsOp)
    (hop : (∃ startAfter maxEntries ord,
        op = .readdir dataDirId startAfter maxEntries none ord) ∨
      ∃ filename ord, fromUtf8Lossy filename ≠ dataCsvName ∧
        op = .lookup dataDirId filename none ord)
    (ops : List (NfsOp × Faults)) (hops : ∀ p ∈ ops, ∀ es, p.1.listing ≠ some (some es))
    {id : Nat} (hid : parquetFileIdStart ≤ id) (offset : UInt64) (count : UInt32)
    (io' : Faults) :
    fs.callError v io op = some .io ∧
      (read v ((fs.serve v io op).serveOps v ops) id offset count io').1 =
        some (.error .noent) ∧
      (((fs.serve v io op).serveOps v ops).attrCache id = none →
        (getattr v ((fs.serve v io op).serveOps v ops) id io').1 = .error .noent) ∧
      ∀ a, (fs.serve v io op).attrCache id = some a → (∀ p ∈ ops, p.1 ≠ .env (.expire id)) →
        (getattr v ((fs.serve v io op).serveOps v ops) id io').1 = .ok a := by
  have hfail : fs.callError v io op = some .io ∧
      fs.serve v io op = { fs with parquetFiles := .empty } := by
    rcases hop with ⟨s, m, ord, rfl⟩ | ⟨filename, ord, hname, rfl⟩
    · simp [Fs.callError, Fs.serve, readdir_failed_listing, replyError]
    · simp [Fs.callError, Fs.serve, lookup_failed_listing _ hname, replyError]
  have hempty := @Fs.unregistered_serveOps _ v (fs.serve v io op)
    (fun _ => by rw [hfail.2]; rfl) ops hops id
  have hne : id ≠ dataCsvId := by rintro rfl; exact absurd hid (by decide)
  exact ⟨hfail.1, read_unregistered hid hempty _ _ _,
    fun hmiss => getattr_unregistered hid hempty hmiss _,
    fun a ha hexp => by simp [getattr, Fs.attrCache_serveOps hne ha ops hexp]⟩

/-- A readdir of the data directory whose `read_dir` fails. -/
def listingFails : NfsOp := .readdir dataDirId 0 10 none .insertion

/-- `failed_listing_hides_parquet` after `cacheAttrA` has registered `a.parquet` as 100 and
cached its attributes, then `listingFails` and a write: a read of 100 answers
`NFS3ERR_NOENT`, while `getattr` of 100 still answers the attributes of a 10-byte file. -/
theorem failed_listing_hides_parquet_sample :
    (twoFilesFs.serveOps pathView cacheAttrA).callError pathView Faults.none listingFails =
        some .io ∧
      (read pathView (((twoFilesFs.serveOps pathView cacheAttrA).serve pathView Faults.none
          listingFails).serveOps pathView [(.write dataCsvId 0 (ascii "x"), Faults.none)])
          100 0 8 Faults.none).1 = some (.error .noent) ∧
      (getattr pathView (((twoFilesFs.serveOps pathView cacheAttrA).serve pathView Faults.none
          listingFails).serveOps pathView [(.write dataCsvId 0 (ascii "x"), Faults.none)])
          100 Faults.none).1 = .ok (fileAttr 100 10 0) :=
  have h := failed_listing_hides_parquet (v := pathView) (twoFilesFs.serveOps pathView cacheAttrA)
    Faults.none listingFails (.inl ⟨0, 10, .insertion, rfl⟩)
    [(.write dataCsvId 0 (ascii "x"), Faults.none)] (by simp [NfsOp.listing]) (le_refl 100) 0 8
    Faults.none
  ⟨h.1, h.2.1, h.2.2.2 _ rfl (by simp)⟩

/-- A lookup in the data directory whose refresh succeeded searches the map under a second
lock, after any run of other calls: it answers what a lookup alone answers over its own
listing or over the listing of one of those calls, a failed listing counting as empty. -/
theorem lookup_interleaved (fs : Fs Tbl) {name : List UInt8}
    (hname : fromUtf8Lossy name ≠ dataCsvName) (listing : Listing) (ord : HashOrder)
    (hok : (refreshParquetFiles listing).2 = .ok ()) (ops : List (NfsOp × Faults)) :
    lookupScan (({ fs with parquetFiles := (refreshParquetFiles listing).1 } : Fs Tbl).serveOps
        v ops) (fromUtf8Lossy name) ord = (lookup fs dataDirId name listing ord).1 ∨
      ∃ p ∈ ops, ∃ l, p.1.listing = some l ∧
        lookupScan (({ fs with parquetFiles := (refreshParquetFiles listing).1 } : Fs Tbl).serveOps
            v ops) (fromUtf8Lossy name) ord =
          (lookup fs dataDirId name (some (l.getD [])) ord).1 := by
  rcases Fs.parquetFiles_serveOps _ ops with h | ⟨p, hp, l, hl, h⟩
  · refine .inl ?_
    rw [lookup_eq_scan fs hname, hok]
    exact lookupScan_congr (congrArg ParquetMap.entries h) _ _
  · refine .inr ⟨p, hp, l, hl, ?_⟩
    rw [lookup_eq_scan fs hname]
    refine lookupScan_congr ?_ _ _
    rw [h]
    cases l <;> simp [refreshParquetFiles_entries, parquetNames]

/-- `lookup_interleaved` on `a.parquet`, whose lookup alone answers 100, when `listingFails`
runs between the lookup's refresh and its search: the lookup answers `NFS3ERR_NOENT`. -/
theorem lookup_interleaved_sample :
    (lookup (sampleFs []) dataDirId sampleA.name (some [some sampleA]) .insertion).1 = .ok 100 ∧
      lookupScan (({ sampleFs [] with parquetFiles :=
          (refreshParquetFiles (some [some sampleA])).1 } : Fs (List UInt8)).serveOps
          CsvView.verbatim [(listingFails, Faults.none)]) (fromUtf8Lossy sampleA.name)
          .insertion = .error .noent ∧
      (refreshParquetFiles (some [some sampleA])).2 = .ok () ∧
      (lookupScan (({ sampleFs [] with parquetFiles :=
          (refreshParquetFiles (some [some sampleA])).1 } : Fs (List UInt8)).serveOps
          CsvView.verbatim [(listingFails, Faults.none)]) (fromUtf8Lossy sampleA.name)
          .insertion =
          (lookup (sampleFs []) dataDirId sampleA.name (some [some sampleA]) .insertion).1 ∨
        ∃ p ∈ [(listingFails, Faults.none)], ∃ l, p.1.listing = some l ∧
          lookupScan (({ sampleFs [] with parquetFiles :=
              (refreshParquetFiles (some [some sampleA])).1 } : Fs (List UInt8)).serveOps
              CsvView.verbatim [(listingFails, Faults.none)]) (fromUtf8Lossy sampleA.name)
              .insertion =
            (lookup (sampleFs []) dataDirId sampleA.name (some (l.getD [])) .insertion).1) :=
  ⟨rfl, rfl, rfl, lookup_interleaved (v := CsvView.verbatim) (sampleFs []) (by decide)
    (some [some sampleA]) .insertion rfl _⟩

end Fsdb.Nfs
