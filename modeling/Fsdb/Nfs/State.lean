import Fsdb.Nfs.Parquet

/-!
# The server's state and its collaborators

`FsdbFilesystem` holds the database handle, `parquet_files`, an optional content cache
(`cache: Option<Arc<NfsCache>>`) and the attribute cache. `DatabaseOps`, `CsvFileView`,
`NfsCache` and `AttrCache` are not part of `server.rs`: the table is a type `Tbl` of table
states, the view is a record of the operations the handlers call on it, and each cache is a
map. A call to a collaborator may fail; which of a request's calls fail is an oracle
`Faults`, so every theorem holds for every outcome of every call.
-/

namespace Fsdb.Nfs

/-- The operations of `CsvFileView` and `DatabaseOps` that the handlers call. -/
structure CsvView (Tbl : Type) where
  /-- `CsvFileView::generate_csv`, also `get_full_content`: the table as CSV bytes. -/
  generateCsv : Tbl → List UInt8
  /-- `CsvFileView::apply_write(data, cached_content)`: the table after the write, or none
  when the view refuses it. The write commits as a whole or not at all. -/
  applyWrite : Tbl → List UInt8 → Option (List UInt8) → Option Tbl
  /-- `DatabaseOps::delete_rows_where(predicate)`. -/
  deleteRowsWhere : Tbl → Str → Option Tbl
  /-- `CsvFileView::new_for_file(db, path)`: the CSV view of one parquet file. -/
  fileCsv : Str → List UInt8

/-- `CsvFileView::read(offset, count)`: at most `count` bytes of the content from
`offset`. `size` is the content's length. -/
def chunk (content : List UInt8) (offset count : Nat) : List UInt8 :=
  (content.drop offset).take count

/-- A chunk is the content's bytes from its offset, as many as it holds. -/
theorem chunk_length_chunk (content : List UInt8) (offset count : Nat) :
    chunk content offset (chunk content offset count).length = chunk content offset count := by
  simp only [chunk, List.length_take, List.length_drop]
  rw [List.take_eq_take]
  simp

/-- The content cache: `NfsCache`, from keys to contents. -/
abbrev ContentCache := List UInt8 → Option (List UInt8)

/-- The attribute cache: `AttrCache`, from file ids to attributes. -/
abbrev AttrCache := Nat → Option Fattr3

/-- The key `csv:data` of `data.csv` in the content cache. -/
def csvDataKey : List UInt8 := ascii "csv:data"

/-- The key `format!("csv:file:{}", file_path)` of a parquet file's CSV view. -/
def fileKey (path : Str) : List UInt8 := ascii "csv:file:" ++ path.bytes

/-- The key of `data.csv` is no parquet file's key: `csv:data` against `csv:file:`. -/
theorem fileKey_ne_csvDataKey (path : Str) : fileKey path ≠ csvDataKey := by
  intro h
  have h5 := congrArg (List.take 5) h
  rw [fileKey, List.take_append_of_le_length (by decide)] at h5
  exact absurd h5 (by decide)

/-- Distinct parquet paths have distinct keys. -/
theorem fileKey_injective {p q : Str} (h : fileKey p = fileKey q) : p = q :=
  Str.ext (List.append_cancel_left h)

/-- The state `FsdbFilesystem` reads and writes. -/
structure Fs (Tbl : Type) where
  /-- The table behind `db`. -/
  table : Tbl
  /-- The base directory, as `fs::metadata` sees it. -/
  dir : List OsEntry
  /-- `parquet_files`. -/
  parquetFiles : ParquetMap
  /-- `cache`: none for a server built by `new`, a map for one built by `with_cache`. -/
  cache : Option ContentCache
  /-- `attr_cache`. -/
  attrCache : AttrCache
  /-- The system clock that `now()` reads, in nanoseconds since the Unix epoch. -/
  clock : Nat

/-- `FsdbFilesystem::new`: caching off, an empty map and an empty attribute cache, over the
table, the base directory and the clock as they are. -/
def Fs.new {Tbl : Type} (table : Tbl) (dir : List OsEntry) (clock : Nat) : Fs Tbl :=
  ⟨table, dir, .empty, none, fun _ => none, clock⟩

/-- `FsdbFilesystem::with_cache`: caching on, over a content cache that may already hold
entries, with an empty map and an empty attribute cache. -/
def Fs.withCache {Tbl : Type} (table : Tbl) (dir : List OsEntry) (clock : Nat)
    (cache : ContentCache) : Fs Tbl :=
  ⟨table, dir, .empty, some cache, fun _ => none, clock⟩

/-- The calls to collaborators that can fail. -/
inductive Call where
  /-- `NfsCache::get`. -/
  | cacheGet
  /-- `NfsCache::insert`. -/
  | cacheInsert
  /-- `NfsCache::remove`. -/
  | cacheRemove
  /-- `CsvFileView::read`. -/
  | viewRead
  /-- `CsvFileView::get_full_content`. -/
  | fullContent
  /-- `CsvFileView::generate_csv`. -/
  | generateCsv
  /-- `CsvFileView::apply_write`. -/
  | applyWrite
  /-- `CsvFileView::size`. -/
  | size
  /-- `DatabaseOps::delete_rows_where`. -/
  | deleteRows
  deriving DecidableEq

/-- Which calls of one request fail. -/
abbrev Faults := Call → Bool

/-- Every call succeeds. -/
def Faults.none : Faults := fun _ => false

variable {Tbl : Type}

/-- `cache.get(key)` behind `if let Some(ref cache) = self.cache` and `if let Ok(Some(..))`:
the cached content, or none when caching is off, the key is absent or the call fails. -/
def Fs.cacheGet (fs : Fs Tbl) (key : List UInt8) (fails : Bool) : Option (List UInt8) :=
  match fs.cache with
  | some c => if fails then none else c key
  | none => none

/-- `cache.insert(key, content)`, a no-op when caching is off or the call fails. -/
def Fs.cacheInsert (fs : Fs Tbl) (key content : List UInt8) (fails : Bool) : Fs Tbl :=
  match fs.cache with
  | some c => if fails then fs else { fs with cache := some (Function.update c key (some content)) }
  | none => fs

/-- `cache.remove(key)`, a no-op when caching is off or the call fails. -/
def Fs.cacheRemove (fs : Fs Tbl) (key : List UInt8) (fails : Bool) : Fs Tbl :=
  match fs.cache with
  | some c => if fails then fs else { fs with cache := some (Function.update c key none) }
  | none => fs

/-- `attr_cache.set(id, attr)`. -/
def Fs.setAttr (fs : Fs Tbl) (id : Nat) (attr : Fattr3) : Fs Tbl :=
  { fs with attrCache := Function.update fs.attrCache id (some attr) }

/-- `view.size()` where an error counts as 0, as `unwrap_or(0)` and the `Err(e) => 0` arms
make it. -/
def sizeOrZero (content : List UInt8) (fails : Bool) : Nat :=
  if fails then 0 else content.length

/-- The cached `data.csv` content, or none when caching is off or the key is absent. -/
def Fs.cachedCsv (fs : Fs Tbl) : Option (List UInt8) := fs.cache.bind (· csvDataKey)

/-- The content cache holds the CSV of the table, or nothing. -/
def Fs.Coherent (v : CsvView Tbl) (fs : Fs Tbl) : Prop :=
  fs.cachedCsv = none ∨ fs.cachedCsv = some (v.generateCsv fs.table)

instance (v : CsvView Tbl) (fs : Fs Tbl) : Decidable (fs.Coherent v) :=
  inferInstanceAs (Decidable (_ ∨ _))

/-- The attributes cached for `data.csv`, if any, carry the length of the table's CSV. -/
def Fs.AttrFresh (v : CsvView Tbl) (fs : Fs Tbl) : Prop :=
  ∀ a, fs.attrCache dataCsvId = some a → a.size = (v.generateCsv fs.table).length

instance (v : CsvView Tbl) (fs : Fs Tbl) : Decidable (fs.AttrFresh v) :=
  inferInstanceAs (Decidable (∀ a ∈ fs.attrCache dataCsvId, _))

@[simp] theorem Fs.cacheInsert_table (fs : Fs Tbl) (key content : List UInt8) (fails : Bool) :
    (fs.cacheInsert key content fails).table = fs.table := by
  unfold Fs.cacheInsert; split <;> (try split_ifs) <;> rfl

@[simp] theorem Fs.cacheInsert_attrCache (fs : Fs Tbl) (key content : List UInt8) (fails : Bool) :
    (fs.cacheInsert key content fails).attrCache = fs.attrCache := by
  unfold Fs.cacheInsert; split <;> (try split_ifs) <;> rfl

@[simp] theorem Fs.cacheInsert_parquetFiles (fs : Fs Tbl) (key content : List UInt8)
    (fails : Bool) : (fs.cacheInsert key content fails).parquetFiles = fs.parquetFiles := by
  unfold Fs.cacheInsert; split <;> (try split_ifs) <;> rfl

/-- A failed `cache.insert` changes nothing. -/
@[simp] theorem Fs.cacheInsert_fails (fs : Fs Tbl) (key content : List UInt8) :
    fs.cacheInsert key content true = fs := by
  unfold Fs.cacheInsert; split <;> rfl

@[simp] theorem Fs.cacheInsert_clock (fs : Fs Tbl) (key content : List UInt8) (fails : Bool) :
    (fs.cacheInsert key content fails).clock = fs.clock := by
  unfold Fs.cacheInsert; split <;> (try split_ifs) <;> rfl

@[simp] theorem Fs.cacheRemove_table (fs : Fs Tbl) (key : List UInt8) (fails : Bool) :
    (fs.cacheRemove key fails).table = fs.table := by
  unfold Fs.cacheRemove; split <;> (try split_ifs) <;> rfl

@[simp] theorem Fs.cacheRemove_attrCache (fs : Fs Tbl) (key : List UInt8) (fails : Bool) :
    (fs.cacheRemove key fails).attrCache = fs.attrCache := by
  unfold Fs.cacheRemove; split <;> (try split_ifs) <;> rfl

@[simp] theorem Fs.cacheRemove_parquetFiles (fs : Fs Tbl) (key : List UInt8) (fails : Bool) :
    (fs.cacheRemove key fails).parquetFiles = fs.parquetFiles := by
  unfold Fs.cacheRemove; split <;> (try split_ifs) <;> rfl

@[simp] theorem Fs.cacheRemove_clock (fs : Fs Tbl) (key : List UInt8) (fails : Bool) :
    (fs.cacheRemove key fails).clock = fs.clock := by
  unfold Fs.cacheRemove; split <;> (try split_ifs) <;> rfl

@[simp] theorem Fs.setAttr_table (fs : Fs Tbl) (id : Nat) (attr : Fattr3) :
    (fs.setAttr id attr).table = fs.table := rfl

@[simp] theorem Fs.setAttr_parquetFiles (fs : Fs Tbl) (id : Nat) (attr : Fattr3) :
    (fs.setAttr id attr).parquetFiles = fs.parquetFiles := rfl

@[simp] theorem Fs.setAttr_cache (fs : Fs Tbl) (id : Nat) (attr : Fattr3) :
    (fs.setAttr id attr).cache = fs.cache := rfl

@[simp] theorem Fs.setAttr_clock (fs : Fs Tbl) (id : Nat) (attr : Fattr3) :
    (fs.setAttr id attr).clock = fs.clock := rfl

@[simp] theorem Fs.setAttr_attrCache_self (fs : Fs Tbl) (id : Nat) (attr : Fattr3) :
    (fs.setAttr id attr).attrCache id = some attr := by
  simp [Fs.setAttr]

/-- Inserting into an enabled cache that does not fail stores the content under its key. -/
theorem Fs.cachedCsv_cacheInsert (fs : Fs Tbl) (content : List UInt8) (fails : Bool) :
    (fs.cacheInsert csvDataKey content fails).cachedCsv =
      if fs.cache.isSome ∧ fails = false then some content else fs.cachedCsv := by
  unfold Fs.cacheInsert Fs.cachedCsv
  split <;> split_ifs <;> simp_all

/-- Removing from an enabled cache that does not fail leaves the key absent. -/
theorem Fs.cachedCsv_cacheRemove (fs : Fs Tbl) (fails : Bool) :
    (fs.cacheRemove csvDataKey fails).cachedCsv =
      if fails then fs.cachedCsv else none := by
  unfold Fs.cacheRemove Fs.cachedCsv
  split <;> split_ifs <;> simp_all

/-- An insert under a parquet file's key leaves the cached CSV as it was. -/
theorem Fs.cachedCsv_cacheInsert_fileKey (fs : Fs Tbl) (path : Str) (content : List UInt8)
    (fails : Bool) : (fs.cacheInsert (fileKey path) content fails).cachedCsv = fs.cachedCsv := by
  cases hc : fs.cache <;> cases fails <;>
    simp [Fs.cacheInsert, Fs.cachedCsv, hc, Function.update_apply,
      Ne.symm (fileKey_ne_csvDataKey path)]

/-- `cache.get` returns the cached content unless the call fails. -/
theorem Fs.cacheGet_csvDataKey (fs : Fs Tbl) (fails : Bool) :
    fs.cacheGet csvDataKey fails = if fails then none else fs.cachedCsv := by
  unfold Fs.cacheGet Fs.cachedCsv
  split <;> split_ifs <;> simp_all

/-- A coherent cache that holds `csv:data` holds the table's CSV. -/
theorem Fs.Coherent.cacheGet_eq {v : CsvView Tbl} {fs : Fs Tbl} (hc : fs.Coherent v)
    {c : List UInt8} (h : fs.cacheGet csvDataKey false = some c) : c = v.generateCsv fs.table := by
  rw [Fs.cacheGet_csvDataKey, if_neg Bool.false_ne_true] at h
  rcases hc with hc | hc <;> rw [hc] at h <;> simp_all

/-- What `cache.get` finds under a key after an insert. -/
theorem Fs.cacheGet_cacheInsert (fs : Fs Tbl) (key content k : List UInt8) (fails : Bool) :
    (fs.cacheInsert key content fails).cacheGet k false =
      if fs.cache.isSome ∧ fails = false ∧ k = key then some content else fs.cacheGet k false := by
  cases hc : fs.cache <;> cases fails <;> by_cases hk : k = key <;>
    simp [Fs.cacheInsert, Fs.cacheGet, hc, hk, Function.update_apply]

/-- What `cache.get` finds under a key after a removal. -/
theorem Fs.cacheGet_cacheRemove (fs : Fs Tbl) (key k : List UInt8) (fails : Bool) :
    (fs.cacheRemove key fails).cacheGet k false =
      if fs.cache.isSome ∧ fails = false ∧ k = key then none else fs.cacheGet k false := by
  cases hc : fs.cache <;> cases fails <;> by_cases hk : k = key <;>
    simp [Fs.cacheRemove, Fs.cacheGet, hc, hk, Function.update_apply]

/-- A hit of `cache.get` is a hit whatever the call's outcome would have been. -/
theorem Fs.cacheGet_false_of_eq_some {fs : Fs Tbl} {key : List UInt8} {fails : Bool}
    {c : List UInt8} (h : fs.cacheGet key fails = some c) : fs.cacheGet key false = some c := by
  unfold Fs.cacheGet at *
  split at h <;> simp_all

variable {v : CsvView Tbl}

/-- A server built by `new`, or by `with_cache` over a cache without `csv:data`, starts with
a coherent content cache and no cached attributes. -/
theorem Fs.coherent_attrFresh_new (t : Tbl) (d : List OsEntry) (clock : Nat) :
    (Fs.new t d clock).Coherent v ∧ (Fs.new t d clock).AttrFresh v :=
  ⟨.inl rfl, fun _ h => by cases h⟩

theorem Fs.coherent_attrFresh_withCache (t : Tbl) (d : List OsEntry) (clock : Nat)
    {cache : ContentCache} (h : cache csvDataKey = none) :
    (Fs.withCache t d clock cache).Coherent v ∧ (Fs.withCache t d clock cache).AttrFresh v :=
  ⟨.inl h, fun _ h => by cases h⟩

/-- Caching `data.csv`'s attributes with the length of the table's CSV keeps them fresh. -/
theorem Fs.attrFresh_setAttr {fs : Fs Tbl} {n : Nat} (h : n = (v.generateCsv fs.table).length)
    (clock : Nat) : (fs.setAttr dataCsvId (fileAttr dataCsvId n clock)).AttrFresh v := by
  simp [Fs.AttrFresh, h]

/-- Offering the table's CSV to the content cache keeps the cached CSV coherent, and makes it
coherent when the insert succeeds. -/
theorem Fs.coherent_cacheInsert {fs : Fs Tbl} {fails : Bool} (h : fs.Coherent v ∨ fails = false) :
    (fs.cacheInsert csvDataKey (v.generateCsv fs.table) fails).Coherent v := by
  rw [Fs.Coherent, Fs.cachedCsv_cacheInsert, Fs.cacheInsert_table]
  split_ifs with hs
  · exact .inr rfl
  · rcases h with h | rfl
    · exact h
    · exact .inl (by cases hc : fs.cache <;> simp_all [Fs.cachedCsv])

/-- The content cache plays no part in the freshness of the cached attributes. -/
theorem Fs.AttrFresh.cacheInsert {fs : Fs Tbl} (ha : fs.AttrFresh v) (key content : List UInt8)
    (fails : Bool) : (fs.cacheInsert key content fails).AttrFresh v := by
  simpa only [Fs.AttrFresh, Fs.cacheInsert_attrCache, Fs.cacheInsert_table] using ha

/-- Caching another file's attributes keeps those of `data.csv` fresh. -/
theorem Fs.AttrFresh.setAttr_ne {fs : Fs Tbl} (ha : fs.AttrFresh v) {id : Nat}
    (h : id ≠ dataCsvId) (attr : Fattr3) : (fs.setAttr id attr).AttrFresh v := by
  intro a ha'
  simp only [Fs.setAttr, Function.update_noteq (Ne.symm h)] at ha'
  exact ha a ha'

/-- What happens to the state between requests, with no handler running: `NfsCache` and
`AttrCache` drop entries on their own, by eviction or expiry, and the system clock moves,
forwards or back. -/
inductive Env where
  /-- The content cache drops the entry under `key`. -/
  | evict (key : List UInt8)
  /-- The attribute cache drops the entry of `id`. -/
  | expire (id : Nat)
  /-- The system clock reads `clock`. -/
  | tick (clock : Nat)

/-- The state after an event of the environment. -/
def Fs.env (fs : Fs Tbl) : Env → Fs Tbl
  | .evict key => fs.cacheRemove key false
  | .expire id => { fs with attrCache := Function.update fs.attrCache id none }
  | .tick clock => { fs with clock := clock }

@[simp] theorem Fs.env_table (fs : Fs Tbl) (e : Env) : (fs.env e).table = fs.table := by
  cases e <;> simp [Fs.env]

@[simp] theorem Fs.env_parquetFiles (fs : Fs Tbl) (e : Env) :
    (fs.env e).parquetFiles = fs.parquetFiles := by
  cases e <;> simp [Fs.env]

/-- Only the expiry of `id` drops the attributes cached for `id`. -/
theorem Fs.attrCache_env (fs : Fs Tbl) {e : Env} {id : Nat} (h : e ≠ .expire id) :
    (fs.env e).attrCache id = fs.attrCache id := by
  cases e with
  | expire id' => exact Function.update_noteq (fun h' : id = id' => h (h' ▸ rfl)) _ _
  | _ => simp [Fs.env]

/-- Dropping any entry from the content cache keeps it coherent. -/
theorem Fs.Coherent.cacheRemove {fs : Fs Tbl} (hc : fs.Coherent v) (key : List UInt8)
    (fails : Bool) : (fs.cacheRemove key fails).Coherent v := by
  have h := Fs.cacheGet_cacheRemove fs key csvDataKey fails
  simp only [Fs.cacheGet_csvDataKey, Bool.false_eq_true, if_false] at h
  rw [Fs.Coherent, h, Fs.cacheRemove_table]
  split_ifs
  exacts [.inl rfl, hc]

/-- The environment keeps the content cache coherent. -/
theorem Fs.Coherent.env {fs : Fs Tbl} (hc : fs.Coherent v) (e : Env) : (fs.env e).Coherent v := by
  cases e with
  | evict key => exact hc.cacheRemove key false
  | _ => exact hc

/-- The environment keeps the cached attributes of `data.csv` fresh. -/
theorem Fs.AttrFresh.env {fs : Fs Tbl} (ha : fs.AttrFresh v) (e : Env) :
    (fs.env e).AttrFresh v := by
  intro a h
  rw [Fs.env_table]
  by_cases he : e = .expire dataCsvId
  · simp [he, Fs.env] at h
  · exact ha a (by rwa [Fs.attrCache_env fs he] at h)

/-- A view under which the table is the CSV text last written to it: `generate_csv` returns
it, `apply_write` stores the data whatever the diff base, and deleting every row empties it.
The counterexamples run on it. -/
def CsvView.verbatim : CsvView (List UInt8) where
  generateCsv t := t
  applyWrite _ data _ := some data
  deleteRowsWhere _ _ := some []
  fileCsv _ := []

/-- A server built with caching on over an empty content cache, table `t` and an empty
directory, with the clock at the epoch. -/
def sampleFs (t : List UInt8) : Fs (List UInt8) := .withCache t [] 0 fun _ => none

end Fsdb.Nfs
