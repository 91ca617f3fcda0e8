import Mathlib.Algebra.Group.Nat.Basic
import Fsdb.Nfs.State

/-!
# Reading a file

`read` serves `data.csv` and each parquet file's CSV view the same way: from the content
cache when it holds the file, and otherwise from the view, caching the full content on the
first read at offset 0. The cache-hit branch computes its slice bounds on `u64`: the sum
`offset + count` is taken modulo 2^64, as a release build computes it (a debug build
panics on the overflow itself), and a slice whose start exceeds its end panics.
-/

namespace Fsdb.Nfs

/-- `u64` addition in a release build. -/
def wrappingAdd (a b : Nat) : Nat := (a + b) % 2 ^ 64

/-- `v[start..stop].to_vec()`: none where Rust panics, when `start > stop` or
`stop > v.len()`. -/
def slice (v : List UInt8) (start stop : Nat) : Option (List UInt8) :=
  if start ≤ stop ∧ stop ≤ v.length then some ((v.drop start).take (stop - start)) else none

/-- The cache-hit branch of `read`, none where it panics:
`end = (offset + count as u64).min(len as u64)`, `start = offset.min(len as u64)`,
`data = cached_content[start..end]`, `eof = end >= len`. -/
def readCached (content : List UInt8) (offset : UInt64) (count : UInt32) :
    Option (List UInt8 × Bool) :=
  let stop := min (wrappingAdd offset.toNat count.toNat) content.length
  let start := min offset.toNat content.length
  (slice content start stop).map fun data => (data, decide (content.length ≤ stop))

theorem u64_toNat_add (a b : UInt64) : (a + b).toNat = (a.toNat + b.toNat) % 2 ^ 64 :=
  BitVec.toNat_add _ _

/-- A client's next offset, `offset + n as u64`, where the sum fits. -/
theorem u64_add_toNat {offset : UInt64} {n : Nat} (h : offset.toNat + n < 2 ^ 64) :
    (offset + n.toUInt64).toNat = offset.toNat + n := by
  rw [u64_toNat_add, Nat.toUInt64, UInt64.toNat_ofNat_of_lt (by simp only [UInt64.size]; omega)]
  exact Nat.mod_eq_of_lt h

variable {Tbl : Type}

/-- The body both branches of `read` share, for the cache key and the view's content of one
file. The outer none is a panic. -/
def readThrough (fs : Fs Tbl) (key content : List UInt8) (offset : UInt64) (count : UInt32)
    (io : Faults) : Option (Except Nfsstat3 (List UInt8 × Bool)) × Fs Tbl :=
  match fs.cacheGet key (io .cacheGet) with
  | some cached => ((readCached cached offset count).map .ok, fs)
  | none =>
    if io .viewRead then (some (.error .io), fs)
    else
      let data := chunk content offset.toNat count.toNat
      let fs' := if offset = 0 ∧ io .fullContent = false
        then fs.cacheInsert key content (io .cacheInsert) else fs
      let size := sizeOrZero content (io .size)
      (some (.ok (data, decide (size ≤ wrappingAdd offset.toNat data.length))), fs')

/-- `FsdbFilesystem::read`. -/
def read (v : CsvView Tbl) (fs : Fs Tbl) (id : Nat) (offset : UInt64) (count : UInt32)
    (io : Faults) : Option (Except Nfsstat3 (List UInt8 × Bool)) × Fs Tbl :=
  if id = dataCsvId then readThrough fs csvDataKey (v.generateCsv fs.table) offset count io
  else if parquetFileIdStart ≤ id then
    match fs.parquetFiles.get id with
    | some path => readThrough fs (fileKey path) (v.fileCsv path) offset count io
    | none => (some (.error .noent), fs)
  else (some (.error .isdir), fs)

/-- The state the body of `read` leaves: as it was, or with the content inserted. -/
theorem readThrough_snd (fs : Fs Tbl) (key content : List UInt8) (offset : UInt64)
    (count : UInt32) (io : Faults) :
    (readThrough fs key content offset count io).2 = fs ∨
      (readThrough fs key content offset count io).2 =
        fs.cacheInsert key content (io .cacheInsert) := by
  unfold readThrough
  split
  · exact .inl rfl
  · split_ifs <;> simp

/-- The state `read` leaves: as it was, or with the CSV of `data.csv` or of a parquet file
inserted under its key. -/
theorem read_snd (v : CsvView Tbl) (fs : Fs Tbl) (id : Nat) (offset : UInt64) (count : UInt32)
    (io : Faults) :
    (read v fs id offset count io).2 = fs ∨
      (read v fs id offset count io).2 =
        fs.cacheInsert csvDataKey (v.generateCsv fs.table) (io .cacheInsert) ∨
      ∃ path, (read v fs id offset count io).2 =
        fs.cacheInsert (fileKey path) (v.fileCsv path) (io .cacheInsert) := by
  unfold read
  split_ifs
  · exact (readThrough_snd _ _ _ _ _ _).imp_right .inl
  · split
    · exact (readThrough_snd _ _ _ _ _ _).imp_right fun h => .inr ⟨_, h⟩
    · exact .inl rfl
  · exact .inl rfl

/-- The body of `read` answers an error only from the view's `read`, before any change. -/
theorem readThrough_snd_of_error {fs : Fs Tbl} {key content : List UInt8} {offset : UInt64}
    {count : UInt32} {io : Faults} {e : Nfsstat3}
    (h : (readThrough fs key content offset count io).1 = some (.error e)) :
    (readThrough fs key content offset count io).2 = fs := by
  unfold readThrough at h ⊢
  cases hc : fs.cacheGet key (io .cacheGet) with
  | some cached => rfl
  | none => by_cases hv : io .viewRead <;> simp [hc, hv] at h ⊢

/-- A read that answers an error leaves the state as it was. -/
theorem read_snd_of_error {v : CsvView Tbl} {fs : Fs Tbl} {id : Nat} {offset : UInt64}
    {count : UInt32} {io : Faults} {e : Nfsstat3}
    (h : (read v fs id offset count io).1 = some (.error e)) :
    (read v fs id offset count io).2 = fs := by
  unfold read at h ⊢
  split_ifs at h ⊢
  · exact readThrough_snd_of_error h
  · cases hp : fs.parquetFiles.get id with
    | none => simp [hp]
    | some path =>
      simp only [hp] at h ⊢
      exact readThrough_snd_of_error h
  · rfl

/-- A read of an id from 100 that the parquet map does not hold answers `NFS3ERR_NOENT`. -/
theorem read_unregistered {v : CsvView Tbl} {fs : Fs Tbl} {id : Nat}
    (hid : parquetFileIdStart ≤ id) (h : fs.parquetFiles.get id = none) (offset : UInt64)
    (count : UInt32) (io : Faults) :
    (read v fs id offset count io).1 = some (.error .noent) := by
  have hne : id ≠ dataCsvId := by rintro rfl; exact absurd hid (by decide)
  simp [read, hne, hid, h]

/-- Without overflow, the cache-hit branch returns the bytes of the content from
`min offset len` to `min (offset + count) len`, and reports the end once
`offset + count` reaches the length. -/
theorem readCached_of_no_overflow (content : List UInt8) (offset : UInt64) (count : UInt32)
    (h : offset.toNat + count.toNat < 2 ^ 64) :
    readCached content offset count =
      some ((content.drop (min offset.toNat content.length)).take
          (min (offset.toNat + count.toNat) content.length - min offset.toNat content.length),
        decide (content.length ≤ offset.toNat + count.toNat)) := by
  have hwrap : wrappingAdd offset.toNat count.toNat = offset.toNat + count.toNat :=
    Nat.mod_eq_of_lt h
  have hle : min offset.toNat content.length ≤ min (offset.toNat + count.toNat) content.length := by
    omega
  simp only [readCached, hwrap, slice, if_pos (And.intro hle (Nat.min_le_right _ _)),
    Option.map_some']
  congr 2
  simp only [decide_eq_decide]
  omega

/-- Whatever the offset, a reply of the cache-hit branch holds the content's bytes from
`offset`, and `eof` once they reach its end: where `offset + count` wraps, the branch either
panics or returns no bytes, from past the end. -/
theorem readCached_eq_some {content : List UInt8} {offset : UInt64} {count : UInt32}
    {data : List UInt8} {eof : Bool} (h : readCached content offset count = some (data, eof)) :
    data = chunk content offset.toNat data.length ∧
      eof = decide (content.length ≤ offset.toNat + data.length) := by
  simp only [readCached, slice, Option.map_eq_some'] at h
  obtain ⟨d, hs, hd⟩ := h
  split_ifs at hs with hle
  cases hs
  cases hd
  simp only [chunk, List.length_take, List.length_drop]
  constructor
  · by_cases ho : offset.toNat ≤ content.length
    · rw [min_eq_left ho]
      congr 1
      omega
    · have hend : content.length ≤ offset.toNat := by omega
      simp [min_eq_right hend, List.drop_eq_nil_of_le hend]
  · simp only [decide_eq_decide]
    omega

/-- The offset `u64::MAX` with `count` 1 on a cached content of two bytes wraps the end of
the slice to 0 below its start 2, and the task panics. -/
theorem readCached_panics_at_max_offset :
    readCached (ascii "ab") 18446744073709551615 1 = none := by
  decide

/-- The slice the cache-hit branch takes without overflow is the chunk the view reads. -/
theorem slice_eq_chunk (content : List UInt8) (offset count : Nat) :
    (content.drop (min offset content.length)).take
        (min (offset + count) content.length - min offset content.length) =
      chunk content offset count := by
  rcases Nat.le_total offset content.length with h | h
  · rw [Nat.min_eq_left h, chunk, List.take_eq_take]
    simp only [List.length_drop]
    omega
  · simp [chunk, Nat.min_eq_right h, List.drop_eq_nil_of_le h]

/-- On a miss whose view calls succeed, the view's bytes from `offset`, and `eof` once their
end, taken modulo 2^64, reaches the content's length. -/
theorem readThrough_of_miss (fs : Fs Tbl) (key content : List UInt8) (offset : UInt64)
    (count : UInt32) (io : Faults) (hmiss : fs.cacheGet key (io .cacheGet) = none)
    (hview : io .viewRead = false) (hsize : io .size = false)
    (hend : offset.toNat + (chunk content offset.toNat count.toNat).length < 2 ^ 64) :
    (readThrough fs key content offset count io).1 =
      some (.ok (chunk content offset.toNat count.toNat,
        decide (content.length ≤
          offset.toNat + (chunk content offset.toNat count.toNat).length))) := by
  have hwrap : wrappingAdd offset.toNat (chunk content offset.toNat count.toNat).length =
      offset.toNat + (chunk content offset.toNat count.toNat).length := Nat.mod_eq_of_lt hend
  rw [readThrough, hmiss]
  simp [hview, hsize, sizeOrZero, hwrap]

/-- The bytes read from `offset` stop at the content's end, so their end fits in `u64`
whenever the content's length does. -/
theorem chunk_end_lt (content : List UInt8) (offset : UInt64) (count : Nat)
    (hlen : content.length < 2 ^ 64) :
    offset.toNat + (chunk content offset.toNat count).length < 2 ^ 64 := by
  have hoff := offset.toNat_lt_size
  simp only [UInt64.size] at hoff
  simp only [chunk, List.length_take, List.length_drop]
  omega

/-- On a hit without overflow, the cached bytes from `offset`, and `eof` once their end reaches
the cached content's length. -/
theorem readThrough_of_hit (fs : Fs Tbl) (key content : List UInt8) (offset : UInt64)
    (count : UInt32) (io : Faults) {cached : List UInt8}
    (hget : fs.cacheGet key (io .cacheGet) = some cached)
    (hsum : offset.toNat + count.toNat < 2 ^ 64) :
    (readThrough fs key content offset count io).1 =
      some (.ok (chunk cached offset.toNat count.toNat,
        decide (cached.length ≤
          offset.toNat + (chunk cached offset.toNat count.toNat).length))) := by
  have hchunk : (chunk cached offset.toNat count.toNat).length =
      min count.toNat (cached.length - offset.toNat) := by
    simp [chunk]
  rw [readThrough, hget]
  simp only [readCached_of_no_overflow _ _ _ hsum, slice_eq_chunk, Option.map_some', hchunk]
  congr 3
  simp only [decide_eq_decide]
  omega

/-- When the cache holds nothing or `content` under `key`, and `offset + count` is below
2^64, the read body whose view calls succeed returns `content` from `offset`, at most `count`
bytes, and `eof` once they reach its end, whether it hits the cache or not. -/
theorem readThrough_of_cached (fs : Fs Tbl) (key content : List UInt8) (offset : UInt64)
    (count : UInt32) (io : Faults) (hk : ∀ c, fs.cacheGet key false = some c → c = content)
    (hsum : offset.toNat + count.toNat < 2 ^ 64) (hview : io .viewRead = false)
    (hsize : io .size = false) :
    (readThrough fs key content offset count io).1 =
      some (.ok (chunk content offset.toNat count.toNat,
        decide (content.length ≤
          offset.toNat + (chunk content offset.toNat count.toNat).length))) := by
  cases hget : fs.cacheGet key (io .cacheGet) with
  | some cached =>
    obtain rfl := hk cached (Fs.cacheGet_false_of_eq_some hget)
    exact readThrough_of_hit fs key _ offset count io hget hsum
  | none =>
    have hle : (chunk content offset.toNat count.toNat).length ≤ count.toNat :=
      List.length_take_le _ _
    exact readThrough_of_miss fs key content offset count io hget hview hsize (by omega)

/-- With a coherent cache and `offset + count` below 2^64, a read of `data.csv` whose view
calls succeed returns the table's CSV from `offset`, at most `count` bytes, and `eof` once
they reach its end, whether it hits the cache or not: the cache is invisible to clients. -/
theorem read_dataCsv_coherent (v : CsvView Tbl) (fs : Fs Tbl) (offset : UInt64)
    (count : UInt32) (io : Faults) (hc : fs.Coherent v)
    (hsum : offset.toNat + count.toNat < 2 ^ 64) (hview : io .viewRead = false)
    (hsize : io .size = false) :
    (read v fs dataCsvId offset count io).1 =
      some (.ok (chunk (v.generateCsv fs.table) offset.toNat count.toNat,
        decide ((v.generateCsv fs.table).length ≤
          offset.toNat + (chunk (v.generateCsv fs.table) offset.toNat count.toNat).length))) := by
  rw [read, if_pos rfl]
  exact readThrough_of_cached _ _ _ _ _ _ (fun _ => hc.cacheGet_eq) hsum hview hsize

/-- `read_dataCsv_coherent` on a cache hit: three bytes from offset 2 of `abcdef`. -/
theorem read_dataCsv_coherent_sample :
    ((sampleFs (ascii "abcdef")).cacheInsert csvDataKey (ascii "abcdef") false).Coherent
        CsvView.verbatim ∧
      (2 : UInt64).toNat + (3 : UInt32).toNat < 2 ^ 64 ∧
      (read CsvView.verbatim ((sampleFs (ascii "abcdef")).cacheInsert csvDataKey (ascii "abcdef")
        false) dataCsvId 2 3 Faults.none).1 = some (.ok (ascii "cde", false)) :=
  ⟨by decide, by decide, (read_dataCsv_coherent _ _ 2 3 _ (by decide) (by decide) rfl rfl).trans
    rfl⟩

/-- On a miss, with caching off or `cache.get` missing or failing, a read of `data.csv` whose
view calls succeed returns the table's CSV from `offset`, at most `count` bytes, and `eof`
once their end reaches the CSV's length, for every `u64` offset: unlike the cache-hit branch,
this one never overflows, since the bytes stop at the CSV's end. -/
theorem read_dataCsv_miss (v : CsvView Tbl) (fs : Fs Tbl) (offset : UInt64) (count : UInt32)
    (io : Faults) (hmiss : fs.cacheGet csvDataKey (io .cacheGet) = none)
    (hview : io .viewRead = false) (hsize : io .size = false)
    (hlen : (v.generateCsv fs.table).length < 2 ^ 64) :
    (read v fs dataCsvId offset count io).1 =
      some (.ok (chunk (v.generateCsv fs.table) offset.toNat count.toNat,
        decide ((v.generateCsv fs.table).length ≤
          offset.toNat + (chunk (v.generateCsv fs.table) offset.toNat count.toNat).length))) := by
  rw [read, if_pos rfl]
  exact readThrough_of_miss _ _ _ _ _ _ hmiss hview hsize (chunk_end_lt _ _ _ hlen)

/-- A client reading `content` from `offset` in chunks of `count`, each next offset the
previous one plus the bytes received, until `eof`, in at most `fuel` calls. -/
def readChunks (content : List UInt8) (count : UInt32) : Nat → UInt64 → Option (List UInt8)
  | 0, _ => none
  | fuel + 1, offset =>
    match readCached content offset count with
    | some (data, eof) =>
      if eof then some data
      else (readChunks content count fuel (offset + data.length.toUInt64)).map (data ++ ·)
    | none => none

/-- Reading in chunks of at least one byte from an offset within the content receives the
rest of the content. A `Vec` holds fewer than 2^63 bytes. -/
theorem readChunks_from (content : List UInt8) (count : UInt32) (hcount : 0 < count.toNat)
    (hlen : content.length < 2 ^ 63) (fuel : Nat) (offset : UInt64)
    (hoff : offset.toNat ≤ content.length) (hfuel : content.length - offset.toNat < fuel) :
    readChunks content count fuel offset = some (content.drop offset.toNat) := by
  induction fuel generalizing offset with
  | zero => omega
  | succ fuel ih =>
    have hcount32 := count.toNat_lt_size
    have hsum : offset.toNat + count.toNat < 2 ^ 64 := by
      simp only [UInt32.size] at hcount32; omega
    rw [readChunks, readCached_of_no_overflow content offset count hsum]
    simp only [Nat.min_eq_left hoff]
    by_cases heof : content.length ≤ offset.toNat + count.toNat
    · simp [heof, Nat.min_eq_right heof]
    · have hmin : min (offset.toNat + count.toNat) content.length = offset.toNat + count.toNat := by
        omega
      have hnext : (offset + ((content.drop offset.toNat).take count.toNat).length.toUInt64).toNat =
          offset.toNat + count.toNat := by
        simp only [List.length_take, List.length_drop, Nat.min_eq_left (show count.toNat ≤
          content.length - offset.toNat by omega)]
        exact u64_add_toNat hsum
      simp only [heof, hmin, Nat.add_sub_cancel_left, decide_False, Bool.false_eq_true,
        if_false]
      rw [ih _ (by omega) (by omega), hnext]
      simp [← List.drop_drop, List.take_append_drop]

/-- A client reading a cached content in chunks from offset 0 until `eof` receives exactly
the content. -/
theorem readChunks_whole (content : List UInt8) (count : UInt32) (hcount : 0 < count.toNat)
    (hlen : content.length < 2 ^ 63) :
    readChunks content count (content.length + 1) 0 = some content := by
  simpa using readChunks_from content count hcount hlen (content.length + 1) 0 (by simp) (by simp)

/-- `readChunks_whole` on three bytes in chunks of two. -/
theorem readChunks_whole_sample :
    0 < (2 : UInt32).toNat ∧ (ascii "abc").length < 2 ^ 63 ∧
      readChunks (ascii "abc") 2 ((ascii "abc").length + 1) 0 = some (ascii "abc") :=
  ⟨by decide, by decide, readChunks_whole _ 2 (by decide) (by decide)⟩

end Fsdb.Nfs
