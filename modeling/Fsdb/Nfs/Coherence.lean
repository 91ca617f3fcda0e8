import Fsdb.Nfs.Tasks
import Fsdb.Nfs.Directory

/-!
# The caches against the table, over interleaved requests

The content cache's `csv:data` entry and the attribute cache's entry for `data.csv` copy
what the table determines. Between their awaits, requests to `data.csv` can see the table
change under them: a read at offset 0 generates the CSV and inserts it later, a write
generates its CSV and computes its size and stores them later, a remove drops the CSV after
it truncates the table, and a getattr computes a size and stores it later. So the copies go
stale when such requests overlap. For each cache, a symmetric relation says which requests
must not overlap: `cacheClash` for the content cache, `attrClash` for the attribute cache.
Every pair in `cacheClash` has a run that leaves the content cache stale once every request
has returned, and in runs where a request arrives only when it clashes with no request in
flight, the content cache follows the table. The same holds of the attribute cache and
`attrClash`, as long as no remove comes: `remove` never touches the attribute cache, so
after it a getattr reports the size cached before, even when no requests overlap.
-/

namespace Fsdb.Nfs

variable {Tbl : Type} {v : CsvView Tbl}

/-- What a task holds that must be the table's CSV `csv`: the full content a read is about
to insert, the diff base a write is about to pass, the fresh CSV a write is about to insert. -/
def Task.Fresh (csv : List UInt8) : Task → Prop
  | .readInsert _ content => content = csv
  | .writeApply _ base => base = none ∨ base = some csv
  | .writeInsert fresh => fresh = csv
  | _ => True

/-- A write or a remove that has changed the table before its cache update. -/
def Task.dirty : Task → Bool
  | .writeGenerate | .writeInsert _ | .removeInvalidate => true
  | _ => false

theorem Task.mutates_of_dirty {t : Task} (h : t.dirty) : t.mutates := by
  cases t <;> simp_all [Task.dirty, Task.mutates]

theorem Task.writes_or_removes_of_dirty {t : Task} (h : t.dirty) : t.writes ∨ t.removes := by
  cases t <;> simp_all [Task.dirty, Task.writes, Task.removes]

/-- A task that is neither a write before its insert nor a filling read holds nothing that
must be the table's CSV. -/
theorem Task.fresh_of_quiet {t : Task} (hw : t.writes = false) (hf : t.fills = false)
    (csv : List UInt8) : t.Fresh csv := by
  cases t <;> simp_all [Task.writes, Task.fills, Task.Fresh]

/-- Task `t` can leave the content cache behind the table when it overlaps `u`: a write before
its insert against another such write, a remove or a filling read, and a remove against a
filling read. -/
def Task.spoils (t u : Task) : Bool :=
  t.writes && (u.writes || u.removes || u.fills) || t.removes && u.fills

/-- The requests that must not overlap for the content cache to follow the table. Two removes
may overlap, and so may a getattr or a read that does not fill with anything. -/
def cacheClash (t u : Task) : Bool := t.spoils u || u.spoils t

theorem cacheClash_symm (t u : Task) : cacheClash t u = cacheClash u t := Bool.or_comm _ _

/-- No step creates a clash. -/
theorem cacheClash_step (fs : Fs Tbl) (fails : Bool) (t u : Task)
    (h : cacheClash (t.step v fs fails).2 u = true) : cacheClash t u = true := by
  obtain ⟨hw, -, hr, hf, -⟩ := Task.roles_step v fs fails t
  revert h hw hr hf
  simp only [cacheClash, Task.spoils]
  cases (t.step v fs fails).2.writes <;> cases (t.step v fs fails).2.removes <;>
    cases (t.step v fs fails).2.fills <;> cases u.writes <;> cases u.removes <;> cases u.fills <;>
    simp +contextual

/-- A write before its insert or a remove clashes with every write before its insert and every
filling read. -/
theorem Task.quiet_of_cacheClash {t u : Task} (h : cacheClash t u = false)
    (ht : t.writes ∨ t.removes) : u.writes = false ∧ u.fills = false := by
  rcases ht with ht | ht <;> simp_all [cacheClash, Task.spoils]

theorem Fs.cachedCsv_of_cache_none {fs : Fs Tbl} (h : fs.cache = none) : fs.cachedCsv = none := by
  simp [Fs.cachedCsv, h]

/-- A successful step keeps what the task holds fresh, given a coherent cache when the task is
a write about to read it. It makes the cache coherent, leaves the task dirty, or, from a task
that was not dirty, changes neither the table nor the cached CSV. -/
theorem Task.cache_step {fs : Fs Tbl} {t : Task} (hf : t.Fresh (v.generateCsv fs.table))
    (hget : t.writes → t.dirty = false → fs.Coherent v) :
    (t.step v fs false).2.Fresh (v.generateCsv (t.step v fs false).1.table) ∧
      ((t.step v fs false).1.Coherent v ∨ (t.step v fs false).2.dirty ∨
        t.dirty = false ∧ (t.step v fs false).1.table = fs.table ∧
          (t.step v fs false).1.cachedCsv = fs.cachedCsv) := by
  cases t
  case readInsert data content =>
    simp only [Task.Fresh] at hf
    subst hf
    exact ⟨trivial, .inl (Fs.coherent_cacheInsert (.inr rfl))⟩
  case writeGet data =>
    refine ⟨?_, .inr (.inr ⟨rfl, rfl, rfl⟩)⟩
    simpa only [Task.step, Task.Fresh, Fs.cacheGet_csvDataKey, Bool.false_eq_true, if_false]
      using hget rfl rfl
  case writeApply data base =>
    simp only [Task.step, Bool.false_eq_true, if_false]
    split
    · exact ⟨trivial, .inr (.inr ⟨rfl, rfl, rfl⟩)⟩
    · split_ifs with hs
      · exact ⟨trivial, .inr (.inl rfl)⟩
      · exact ⟨trivial, .inl (.inl (Fs.cachedCsv_of_cache_none (by simpa using hs)))⟩
  case writeInsert fresh =>
    simp only [Task.Fresh] at hf
    subst hf
    exact ⟨trivial, .inl (Fs.coherent_cacheInsert (.inr rfl))⟩
  case removeInvalidate =>
    exact ⟨trivial, .inl (.inl (by simp [Task.step, Fs.cachedCsv_cacheRemove]))⟩
  all_goals simp only [Task.step, Bool.false_eq_true, if_false]; (try split) <;>
    simp [Task.Fresh, Task.dirty]

theorem Task.fresh_of_isDone {t : Task} (h : t.isDone) (csv : List UInt8) : t.Fresh csv :=
  Task.fresh_of_quiet (Task.quiet_of_isDone h).1 (Task.quiet_of_isDone h).2.2.2.1 csv

/-- What holds in every state of a run where every call succeeds and clashing requests never
overlap. -/
structure CacheInv (v : CsvView Tbl) (s : Sys Tbl) : Prop where
  /-- No two requests in flight clash. -/
  apart : s.Apart cacheClash
  /-- What each task holds is the CSV of the current table. -/
  fresh : ∀ t ∈ s.tasks, t.Fresh (v.generateCsv s.fs.table)
  /-- The cache is coherent unless a write or a remove has left it behind. -/
  coherent : s.fs.Coherent v ∨ ∃ t ∈ s.tasks, t.dirty

/-- The events of runs where every call succeeds and a request arrives only when it clashes
with no request in flight. -/
def cacheOk (s : Sys Tbl) (e : Event) : Bool := e.succeeds && s.apartBy cacheClash e

/-- A write before its insert sees the cache coherent unless it has itself left it behind: any
other task that did would clash with it. -/
theorem CacheInv.coherent_of_writes {s : Sys Tbl} (hi : CacheInv v s) {k : Nat} {t : Task}
    (ht : s.tasks[k]? = some t) (hw : t.writes) (hd : t.dirty = false) : s.fs.Coherent v :=
  hi.coherent.resolve_right fun ⟨u, hu, hdu⟩ => by
    obtain ⟨j, hj⟩ := List.mem_iff_getElem?.mp hu
    by_cases hjk : j = k
    · subst hjk
      obtain rfl := Option.some.inj (hj.symm.trans ht)
      simp [hd] at hdu
    · have hc := hi.apart k j t u ht hj (Ne.symm hjk)
      rcases Task.writes_or_removes_of_dirty hdu with h | h <;>
        simp [cacheClash, Task.spoils, hw, h] at hc

/-- Every event of a run where every call succeeds and clashing requests never overlap keeps
the invariant. -/
theorem CacheInv.next {s s' : Sys Tbl} {e : Event} (hi : CacheInv v s) (hok : cacheOk s e)
    (h : s.next v e = some s') : CacheInv v s' := by
  simp only [cacheOk, Bool.and_eq_true] at hok
  have hx' := hi.apart.next cacheClash_symm cacheClash_step hok.2 h
  rcases Sys.next_cases h with ⟨r, rfl, rfl⟩ | ⟨k, fails, t₀, rfl, ht₀, -, rfl⟩ | ⟨e', rfl, rfl⟩
  · exact ⟨hx', List.forall_mem_append.mpr ⟨hi.fresh,
      List.forall_mem_singleton.mpr (by cases r <;> trivial)⟩,
      hi.coherent.imp_right fun ⟨t, ht, hd⟩ => ⟨t, List.mem_append_left _ ht, hd⟩⟩
  · obtain rfl : fails = false := by simpa [Event.succeeds] using hok.1
    have hmem : t₀ ∈ s.tasks := List.mem_iff_getElem?.mpr ⟨k, ht₀⟩
    obtain ⟨hfresh, hcase⟩ := Task.cache_step (hi.fresh t₀ hmem) (hi.coherent_of_writes ht₀)
    refine ⟨hx', fun u hu => ?_, ?_⟩
    · obtain ⟨j, hj⟩ := List.mem_iff_getElem?.mp hu
      rw [getElem?_set_of_getElem? ht₀] at hj
      split_ifs at hj with hkj
      · cases hj
        exact hfresh
      · by_cases hq : t₀.writes ∨ t₀.removes
        · have hquiet := Task.quiet_of_cacheClash (hi.apart k j t₀ u ht₀ hj hkj) hq
          exact Task.fresh_of_quiet hquiet.1 hquiet.2 _
        · simp only [not_or, Bool.not_eq_true] at hq
          rw [Task.table_step v s.fs false t₀ hq.1 hq.2]
          exact hi.fresh u (List.mem_iff_getElem?.mpr ⟨j, hj⟩)
    · rcases hcase with hc | hd | ⟨hnd, htab, hcsv⟩
      · exact .inl hc
      · exact .inr ⟨_, List.mem_set _ _ (List.getElem?_eq_some_iff.mp ht₀).1 _, hd⟩
      · rcases hi.coherent with hc | ⟨u, hu, hdu⟩
        · exact .inl (by rwa [Fs.Coherent, htab, hcsv])
        · exact .inr ⟨u, mem_set_of_ne ht₀ hu (by rintro rfl; simp [hnd] at hdu) _, hdu⟩
  · exact ⟨hx', by simpa using hi.fresh, hi.coherent.imp (·.env e') id⟩

/-- The invariant holds along every run where every call succeeds and clashing requests never
overlap. -/
theorem CacheInv.reachable {s₀ s : Sys Tbl} (h₀ : CacheInv v s₀)
    (hs : Reachable v cacheOk s₀ s) : CacheInv v s := by
  induction hs with
  | init => exact h₀
  | step _ hok hn ih => exact ih.next hok hn

/-- With caching off, the cache stays off and no write holds a diff base. -/
def Sys.Uncached (s : Sys Tbl) : Prop :=
  s.fs.cache = none ∧ ∀ t ∈ s.tasks, ∀ data base, t ≠ .writeApply data (some base)

/-- A step with caching off keeps it off, and finds no diff base. -/
theorem Task.uncached_step {fs : Fs Tbl} (h : fs.cache = none) (fails : Bool) (t : Task) :
    (t.step v fs fails).1.cache = none ∧
      ∀ data base, (t.step v fs fails).2 ≠ .writeApply data (some base) := by
  cases t <;> simp only [Task.step] <;> (try split) <;> (try split_ifs) <;>
    simp_all [Fs.cacheInsert, Fs.cacheRemove, Fs.setAttr, Fs.cacheGet]

/-- Every event keeps caching off, whatever the calls return. -/
theorem Sys.Uncached.next {s s' : Sys Tbl} {e : Event} (hu : s.Uncached)
    (h : s.next v e = some s') : s'.Uncached := by
  obtain ⟨hc, ht⟩ := hu
  rcases Sys.next_cases h with ⟨r, rfl, rfl⟩ | ⟨k, fails, t₀, rfl, -, -, rfl⟩ | ⟨e', rfl, rfl⟩
  · refine ⟨hc, List.forall_mem_append.mpr ⟨ht, List.forall_mem_singleton.mpr ?_⟩⟩
    cases r <;> simp [Request.start]
  · obtain ⟨hc', ht'⟩ := Task.uncached_step (v := v) hc fails t₀
    exact ⟨hc', forall_mem_set_of ht k ht'⟩
  · refine ⟨?_, ht⟩
    cases e' <;> simp [Fs.env, Fs.cacheRemove, hc]

/-- The size a task holds for `attr_cache.set` is `n`. -/
def Task.SizeFresh (n : Nat) : Task → Prop
  | .writeSetAttr size | .getattrSet size => size = n
  | _ => True

/-- A write that has changed the table before its `attr_cache.set`. -/
def Task.attrDirty : Task → Bool
  | .writeGenerate | .writeInsert _ | .writeSize | .writeSetAttr _ => true
  | _ => false

/-- The calls to the content cache. -/
def Call.onCache : Call → Bool
  | .cacheGet | .cacheInsert | .cacheRemove => true
  | _ => false

/-- When only calls to the content cache may fail, a step whose call is another succeeds. -/
theorem fails_eq_false {t : Task} {fails : Bool}
    (hfail : fails = true → t.call.any Call.onCache = true)
    (hcall : t.call.any Call.onCache = false) : fails = false :=
  Bool.eq_false_iff.mpr fun hf => by simpa [hcall] using hfail hf

/-- The requests that must not overlap for the cached attributes to follow the table: a write
in flight against another write or a getattr in flight. Reads may overlap anything. -/
def attrClash (t u : Task) : Bool :=
  t.writing && (u.writing || u.getattr) || u.writing && t.getattr

theorem attrClash_symm (t u : Task) : attrClash t u = attrClash u t := by
  simp only [attrClash]
  cases t.writing <;> cases u.writing <;> cases t.getattr <;> cases u.getattr <;> rfl

/-- No step creates a clash. -/
theorem attrClash_step (fs : Fs Tbl) (fails : Bool) (t u : Task)
    (h : attrClash (t.step v fs fails).2 u = true) : attrClash t u = true := by
  obtain ⟨-, hw, -, -, hg⟩ := Task.roles_step v fs fails t
  revert h hw hg
  simp only [attrClash]
  cases (t.step v fs fails).2.writing <;> cases (t.step v fs fails).2.getattr <;> simp_all

/-- The events of runs where no remove arrives, a request arrives only when it clashes with no
request in flight, and only calls to the content cache fail: every table read and write
succeeds. -/
def attrOk (s : Sys Tbl) : Event → Bool
  | .arrive r => s.admitsBy attrClash r && !r.start.removes
  | .resume i fails => !fails || ((s.tasks[i]?).bind Task.call).any Call.onCache
  | .env _ => true

theorem Task.writing_of_attrDirty {t : Task} (h : t.attrDirty) : t.writing := by
  cases t <;> simp_all [Task.attrDirty, Task.writing]

theorem Task.writes_eq_false {t : Task} (h : t.writing = false) : t.writes = false := by
  cases t <;> simp_all [Task.writing, Task.writes]

/-- A task that is neither a write nor a getattr in flight holds no size. -/
theorem Task.sizeFresh_of_quiet {t : Task} (hw : t.writing = false) (hg : t.getattr = false)
    (n : Nat) : t.SizeFresh n := by
  cases t <;> simp_all [Task.writing, Task.getattr, Task.SizeFresh]

/-- A getattr in flight is neither a write nor a remove, and has not returned. -/
theorem Task.reader_of_getattr {t : Task} (h : t.getattr) :
    t.writing = false ∧ t.removes = false ∧ t.isDone = false := by
  cases t <;> simp_all [Task.getattr, Task.writing, Task.removes, Task.isDone]

/-- A step of a read or a getattr whose table calls succeed keeps the attribute cache or leaves
it fresh, and keeps the size a getattr holds fresh; given fresh cached attributes when it is a
getattr, a getattr that returns reports the table's CSV length. -/
theorem Task.attr_step_reader {fs : Fs Tbl} {t : Task} {fails : Bool} (hd : t.isDone = false)
    (hw : t.writing = false) (hr : t.removes = false) (hfail : fails = true → t.call.any Call.onCache = true)
    (hs : t.SizeFresh (v.generateCsv fs.table).length) (ha : t.getattr → fs.AttrFresh v) :
    ((t.step v fs fails).1.attrCache = fs.attrCache ∨ (t.step v fs fails).1.AttrFresh v) ∧
      (t.step v fs fails).2.SizeFresh (v.generateCsv fs.table).length ∧
      ∀ a, (t.step v fs fails).2 = .done (.attr (.ok a)) →
        a.size = (v.generateCsv fs.table).length := by
  cases t <;> simp [Task.isDone, Task.writing, Task.removes] at hd hw hr <;> simp only [Task.step]
  case getattrGet =>
    split
    · simpa [Task.SizeFresh] using ha rfl _ ‹_›
    · simp [Task.SizeFresh]
  case getattrSize =>
    obtain rfl := fails_eq_false hfail rfl
    simp [Task.SizeFresh, sizeOrZero]
  case getattrSet size =>
    simp only [Task.SizeFresh] at hs
    refine ⟨.inr (Fs.attrFresh_setAttr hs _), trivial, fun a h => ?_⟩
    cases h
    exact hs
  all_goals (try split) <;> (try split_ifs) <;> simp [Task.SizeFresh]

/-- A step of a write whose table calls succeed keeps the size it holds fresh, and the cached
attributes fresh unless the write has left them behind. -/
theorem Task.attr_step_mutator {fs : Fs Tbl} {t : Task} {fails : Bool} (hw : t.writing)
    (hfail : fails = true → t.call.any Call.onCache = true)
    (hs : t.SizeFresh (v.generateCsv fs.table).length) (ha : fs.AttrFresh v ∨ t.attrDirty) :
    (t.step v fs fails).2.SizeFresh (v.generateCsv (t.step v fs fails).1.table).length ∧
      ((t.step v fs fails).1.AttrFresh v ∨ (t.step v fs fails).2.attrDirty) := by
  cases t <;> simp [Task.writing] at hw <;>
    simp only [Task.attrDirty, Bool.false_eq_true, or_false] at ha <;> simp only [Task.step]
  case writeGet => exact ⟨trivial, .inl ha⟩
  case writeApply =>
    obtain rfl := fails_eq_false hfail rfl
    split
    · exact ⟨trivial, .inl ha⟩
    · split_ifs <;> simp [Task.attrDirty, Task.SizeFresh]
  case writeGenerate =>
    obtain rfl := fails_eq_false hfail rfl
    simp [Task.attrDirty, Task.SizeFresh]
  case writeInsert => simp [Task.attrDirty, Task.SizeFresh]
  case writeSize =>
    obtain rfl := fails_eq_false hfail rfl
    simp [Task.attrDirty, Task.SizeFresh, sizeOrZero]
  case writeSetAttr size =>
    simp only [Task.SizeFresh] at hs
    exact ⟨trivial, .inl (Fs.attrFresh_setAttr hs _)⟩

/-- What holds in every state of a run without removes whose table calls succeed and whose
clashing requests never overlap. -/
structure AttrInv (v : CsvView Tbl) (s : Sys Tbl) : Prop where
  /-- No two requests in flight clash. -/
  apart : s.Apart attrClash
  /-- No remove is in flight. -/
  noRemove : ∀ t ∈ s.tasks, t.removes = false
  /-- The size each task holds for the attribute cache is the current CSV's length. -/
  sized : ∀ t ∈ s.tasks, t.SizeFresh (v.generateCsv s.fs.table).length
  /-- The cached attributes are fresh unless a write has left them behind. -/
  attr : s.fs.AttrFresh v ∨ ∃ t ∈ s.tasks, t.attrDirty

/-- A write that has left the cached attributes behind clashes with every other write and
getattr in flight. -/
theorem AttrInv.eq_of_attrDirty {s : Sys Tbl} (hi : AttrInv v s) {k : Nat} {t : Task}
    (ht : s.tasks[k]? = some t) (htw : t.writing ∨ t.getattr) {u : Task} (hu : u ∈ s.tasks)
    (hdu : u.attrDirty) : u = t := by
  obtain ⟨j, hj⟩ := List.mem_iff_getElem?.mp hu
  by_cases hjk : j = k
  · subst hjk
    exact Option.some.inj (hj.symm.trans ht)
  · have hc := hi.apart k j t u ht hj (Ne.symm hjk)
    rcases htw with h | h <;> simp [attrClash, h, Task.writing_of_attrDirty hdu] at hc

/-- While a getattr is in flight, the cached attributes are fresh. -/
theorem AttrInv.attrFresh {s : Sys Tbl} (hi : AttrInv v s) {k : Nat} {t : Task}
    (ht : s.tasks[k]? = some t) (hg : t.getattr) : s.fs.AttrFresh v :=
  hi.attr.resolve_right fun ⟨u, hu, hdu⟩ => by
    obtain rfl := hi.eq_of_attrDirty ht (.inr hg) hu hdu
    exact absurd (Task.writing_of_attrDirty hdu) (by simp [(Task.reader_of_getattr hg).1])

/-- Every event of a run without removes whose table calls succeed and whose clashing
requests never overlap keeps the invariant. -/
theorem AttrInv.next {s s' : Sys Tbl} {e : Event} (hi : AttrInv v s) (hok : attrOk s e)
    (h : s.next v e = some s') : AttrInv v s' := by
  have hx' := hi.apart.next attrClash_symm attrClash_step
    (by cases e <;> simp_all [attrOk, Sys.apartBy]) h
  rcases Sys.next_cases h with ⟨r, rfl, rfl⟩ | ⟨k, fails, t₀, rfl, ht₀, hd₀, rfl⟩ | ⟨e', rfl, rfl⟩
  · simp only [attrOk, Bool.and_eq_true, Bool.not_eq_true'] at hok
    exact ⟨hx', List.forall_mem_append.mpr ⟨hi.noRemove, List.forall_mem_singleton.mpr hok.2⟩,
      List.forall_mem_append.mpr ⟨hi.sized, List.forall_mem_singleton.mpr (by cases r <;> trivial)⟩,
      hi.attr.imp_right fun ⟨t, ht, hd⟩ => ⟨t, List.mem_append_left _ ht, hd⟩⟩
  · have hfail : fails = true → t₀.call.any Call.onCache = true := fun hf => by
      simpa [attrOk, ht₀, hf] using hok
    have hmem : t₀ ∈ s.tasks := List.mem_iff_getElem?.mpr ⟨k, ht₀⟩
    have hr₀ := hi.noRemove t₀ hmem
    have hnr : ∀ u ∈ s.tasks.set k (t₀.step v s.fs fails).2, u.removes = false :=
      forall_mem_set_of hi.noRemove k <| Bool.eq_false_iff.mpr fun h => by
        simpa [hr₀] using (Task.roles_step v s.fs fails t₀).2.2.1 h
    cases hw : t₀.writing
    · have htab := Task.table_step v s.fs fails t₀ (Task.writes_eq_false hw) hr₀
      obtain ⟨hcache, hsized, -⟩ := Task.attr_step_reader hd₀ hw hr₀ hfail (hi.sized t₀ hmem)
        (hi.attrFresh ht₀)
      refine ⟨hx', hnr, htab ▸ forall_mem_set_of hi.sized k hsized, ?_⟩
      rcases hcache with hc | hc
      · rcases hi.attr with ha | ⟨u, hu, hdu⟩
        · exact .inl fun a h' => by rw [htab]; exact ha a (hc ▸ h')
        · refine .inr ⟨u, mem_set_of_ne ht₀ hu ?_ _, hdu⟩
          rintro rfl
          simp [Task.writing_of_attrDirty hdu] at hw
      · exact .inl hc
    · obtain ⟨hsized, ha'⟩ := Task.attr_step_mutator hw hfail (hi.sized t₀ hmem)
        (hi.attr.imp_right fun ⟨u, hu, hdu⟩ => hi.eq_of_attrDirty ht₀ (.inl hw) hu hdu ▸ hdu)
      refine ⟨hx', hnr, fun u hu => ?_,
        ha'.imp_right fun hd => ⟨_, List.mem_set _ _ (List.getElem?_eq_some_iff.mp ht₀).1 _, hd⟩⟩
      obtain ⟨j, hj⟩ := List.mem_iff_getElem?.mp hu
      rw [getElem?_set_of_getElem? ht₀] at hj
      split_ifs at hj with hkj
      · cases hj
        exact hsized
      · have hc := hi.apart k j t₀ u ht₀ hj hkj
        simp only [attrClash, hw, Bool.true_and, Bool.or_eq_false_iff] at hc
        exact Task.sizeFresh_of_quiet hc.1.1 (by simpa using hc.1.2) _
  · exact ⟨hx', hi.noRemove, by simpa using hi.sized, hi.attr.imp (·.env e') id⟩

/-- The invariant holds along every run without removes whose table calls succeed and whose
clashing requests never overlap. -/
theorem AttrInv.reachable {s₀ s : Sys Tbl} (h₀ : AttrInv v s₀)
    (hs : Reachable v attrOk s₀ s) : AttrInv v s := by
  induction hs with
  | init => exact h₀
  | step _ hok hn ih => exact ih.next hok hn

/-- In runs without removes whose table calls succeed and in which a request arrives only when
it clashes with no request in flight, from a state with no request in flight and fresh cached
attributes: a getattr of `data.csv` that returns `Ok(attr)` reports the length of the table's
CSV at that moment, which is the size every `readdir` of the data directory in that state
lists for `data.csv`. -/
theorem getattr_size_apart (fs₀ : Fs Tbl) (h₀ : fs₀.AttrFresh v) {s s' : Sys Tbl} {i : Nat}
    {fails : Bool} {t : Task} {a : Fattr3} (hs : Reachable v attrOk ⟨fs₀, []⟩ s)
    (hok : attrOk s (.resume i fails)) (hn : s.next v (.resume i fails) = some s')
    (ht : s.tasks[i]? = some t) (hg : t.getattr)
    (hret : s'.tasks[i]? = some (.done (.attr (.ok a)))) :
    a.size = (v.generateCsv s'.fs.table).length ∧
      ∀ startAfter maxEntries listing ord r fs'',
        readdir v s'.fs dataDirId startAfter maxEntries listing ord Faults.none = (.ok r, fs'') →
        ∀ e ∈ r.entries, e.fileid = dataCsvId → e.attr.size = a.size := by
  have hi := AttrInv.reachable ⟨fun _ _ _ _ h => by simp at h, by simp, by simp, .inl h₀⟩ hs
  obtain ⟨hw, hr, hd⟩ := Task.reader_of_getattr hg
  have hfail : fails = true → t.call.any Call.onCache = true := fun hf => by
    simpa [attrOk, ht, hf] using hok
  simp only [Sys.next, ht, hd, Bool.false_eq_true, if_false, Option.some.injEq] at hn
  subst hn
  rw [getElem?_set_of_getElem? ht, if_pos rfl, Option.some.injEq] at hret
  have hsize := (Task.attr_step_reader hd hw hr hfail
    (hi.sized t (List.mem_iff_getElem?.mpr ⟨i, ht⟩)) fun _ => hi.attrFresh ht hg).2.2 a hret
  rw [← Task.table_step v s.fs fails t (Task.writes_eq_false hw) hr] at hsize
  refine ⟨hsize, fun _ _ _ _ _ _ h e he hid => ?_⟩
  rw [readdir_csv_size h he hid, hsize]
  rfl

/-- A write of `bb` that fetches its diff base, a read of four bytes from offset 1 that arrives
beside it, the rest of the write, the rest of the read, the clock moving to 5, and a
getattr. -/
def getattrBesideRead : List Event :=
  [.arrive (.write 0 (ascii "bb")), .resume 0 false, .arrive (.read 1 4), .resume 1 false] ++
    List.replicate 5 (.resume 0 false) ++
    [.resume 1 false, .resume 1 false, .env (.tick 5), .arrive .getattr]

/-- `getattr_size_apart` on a getattr that finds the size 2 the write of `bb` cached. -/
theorem getattr_size_apart_sample :
    ∃ s s', Reachable CsvView.verbatim attrOk ⟨sampleFs (ascii "a"), []⟩ s ∧
      s.next CsvView.verbatim (.resume 2 false) = some s' ∧
      s'.tasks[2]? = some (.done (.attr (.ok (fileAttr dataCsvId 2 0)))) ∧
      (fileAttr dataCsvId 2 0).size = (CsvView.verbatim.generateCsv s'.fs.table).length ∧
      ∀ startAfter maxEntries listing ord r fs'',
        readdir CsvView.verbatim s'.fs dataDirId startAfter maxEntries listing ord Faults.none =
          (.ok r, fs'') →
        ∀ e ∈ r.entries, e.fileid = dataCsvId → e.attr.size = (fileAttr dataCsvId 2 0).size :=
  have hs := Reachable.run .init (rfl : Sys.run CsvView.verbatim attrOk
    ⟨sampleFs (ascii "a"), []⟩ getattrBesideRead = some _)
  ⟨_, _, hs, rfl, rfl, @getattr_size_apart _ _ (sampleFs (ascii "a"))
    (Fs.coherent_attrFresh_withCache _ _ _ rfl).2 _ _ 2 false _ _ hs (by decide) rfl rfl rfl rfl⟩

/-- A getattr that caches the size 1 of the table `a`, a remove that empties the table, and a
second getattr. -/
def getattrAfterRemove : List Event :=
  [.arrive .getattr, .resume 0 false, .resume 0 false, .resume 0 false,
    .arrive .remove, .resume 1 false, .resume 1 false, .arrive .getattr]

/-- A getattr that has computed the size 1 of the table `a`, then a write of `bb` that runs
to its end. -/
def getattrRace : List Event :=
  [.arrive .getattr, .resume 0 false, .resume 0 false, .arrive (.write 0 (ascii "bb"))] ++
    List.replicate 6 (.resume 1 false)

/-- With every call succeeding, a getattr returns the size 1 of the table `a` twice over a
CSV of another length: after a remove, which leaves the attribute cache alone, even when no
requests overlap; and when it stores the size it computed after a write has stored its own. -/
theorem getattr_reports_stale_size :
    (∃ s s', Reachable CsvView.verbatim (fun _ e => e.succeeds) ⟨sampleFs (ascii "a"), []⟩ s ∧
      s.next CsvView.verbatim (.resume 2 false) = some s' ∧ s.tasks[2]? = some .getattrGet ∧
      s'.tasks[2]? = some (.done (.attr (.ok (fileAttr dataCsvId 1 0)))) ∧
      (CsvView.verbatim.generateCsv s'.fs.table).length = 0) ∧
    ∃ s s', Reachable CsvView.verbatim (fun _ e => e.succeeds) ⟨sampleFs (ascii "a"), []⟩ s ∧
      s.next CsvView.verbatim (.resume 0 false) = some s' ∧ s.tasks[0]? = some (.getattrSet 1) ∧
      s'.tasks[0]? = some (.done (.attr (.ok (fileAttr dataCsvId 1 0)))) ∧
      (CsvView.verbatim.generateCsv s'.fs.table).length = 2 :=
  ⟨⟨_, _, Reachable.run .init (rfl : Sys.run CsvView.verbatim (fun _ e => e.succeeds)
      ⟨sampleFs (ascii "a"), []⟩ getattrAfterRemove = some _), rfl, rfl, rfl, rfl⟩,
    _, _, Reachable.run .init (rfl : Sys.run CsvView.verbatim (fun _ e => e.succeeds)
      ⟨sampleFs (ascii "a"), []⟩ getattrRace = some _), rfl, rfl, rfl, rfl⟩

end Fsdb.Nfs
