import Fsdb.Nfs.Coherence

/-!
# What a read of `data.csv` returns, over interleaved requests

A read computes its reply in pieces: on a miss, its bytes at `view.read` and its `eof` at
`view.size`, two awaits apart, each from the table as it is then. In runs where each write
and remove runs alone, the table cannot change while a read is in flight, and the cache
holds the table's CSV whenever a read looks at it; so every reply is a consistent view of
the table's CSV, bytes and `eof` alike (`serial_read_consistent`). Once a write may overlap
a read, the bytes can come from the table before the write and `eof` from the table after
it, for every table and every write: a reply that describes a file neither table has
(`read_tears_across_write`).
-/

namespace Fsdb.Nfs

variable {Tbl : Type} {v : CsvView Tbl}

/-- The offset a read in flight reads from; none for the other tasks. A read at offset 0
keeps no offset once it holds its bytes for the cache. -/
def Task.readOffset : Task → Option UInt64
  | .readGet offset _ | .readView offset _ | .readSize offset _ => some offset
  | .readFull _ | .readInsert .. => some 0
  | _ => none

/-- The bytes a read in flight holds are the CSV `csv` from its offset. -/
def Task.ReadFresh (csv : List UInt8) : Task → Prop
  | .readFull data | .readInsert data _ => data = chunk csv 0 data.length
  | .readSize offset data => data = chunk csv offset.toNat data.length
  | _ => True

/-- A read in flight has not returned and is neither a write nor a remove. -/
theorem Task.reader_of_readOffset {t : Task} {o : UInt64} (h : t.readOffset = some o) :
    t.isDone = false ∧ t.mutates = false := by
  cases t <;> simp_all [Task.readOffset, Task.isDone, Task.mutates]

/-- A step of a write or a remove leaves no read in flight. -/
theorem Task.readFresh_step_mutator (fs : Fs Tbl) (fails : Bool) {t : Task} (hm : t.mutates)
    (csv : List UInt8) : (t.step v fs fails).2.ReadFresh csv := by
  cases t <;> simp [Task.mutates] at hm <;> simp only [Task.step] <;> (try split) <;>
    (try split_ifs) <;> trivial

/-- A successful step of a read or a getattr takes its bytes from the table's CSV and keeps
them. -/
theorem Task.readFresh_step_reader {fs : Fs Tbl} {t : Task} (hm : t.mutates = false)
    (h : t.ReadFresh (v.generateCsv fs.table)) :
    (t.step v fs false).2.ReadFresh (v.generateCsv fs.table) := by
  cases t <;> simp [Task.mutates] at hm
  case readGet offset count =>
    simp only [Task.step]
    split <;> trivial
  case readView offset count =>
    simp only [Task.step, Bool.false_eq_true, if_false]
    split_ifs with h0
    · obtain ⟨rfl, -⟩ := h0
      exact (chunk_length_chunk (v.generateCsv fs.table) 0 _).symm
    · exact (chunk_length_chunk (v.generateCsv fs.table) _ _).symm
  case readFull data => exact h
  case readInsert data content => exact h
  all_goals simp only [Task.step]; (try split) <;> trivial

/-- The reply a read returns at its next step, from a coherent cache and bytes taken from the
table's CSV: that CSV's bytes from its offset, and `eof` once they reach the CSV's end. -/
theorem Task.read_reply {fs : Fs Tbl} {t : Task}
    (hlen : (v.generateCsv fs.table).length < 2 ^ 64) (hc : fs.Coherent v)
    (hf : t.ReadFresh (v.generateCsv fs.table)) {o : UInt64} (ho : t.readOffset = some o)
    {data : List UInt8} {eof : Bool}
    (hr : (t.step v fs false).2 = .done (.read (some (.ok (data, eof))))) :
    data = chunk (v.generateCsv fs.table) o.toNat data.length ∧
      eof = decide ((v.generateCsv fs.table).length ≤ o.toNat + data.length) := by
  cases t <;> simp only [Task.readOffset, reduceCtorEq, Option.some.injEq] at ho
  case readGet offset count =>
    subst ho
    simp only [Task.step, Fs.cacheGet_csvDataKey, Bool.false_eq_true, if_false] at hr
    rcases hc with hc | hc <;> rw [hc] at hr <;> simp only [Task.done.injEq, reduceCtorEq] at hr
    simp only [Reply.read.injEq, Option.map_eq_some', Except.ok.injEq, exists_eq_right] at hr
    exact readCached_eq_some hr
  case readSize offset data' =>
    simp only [Task.step, Task.done.injEq, Reply.read.injEq, Option.some.injEq,
      Except.ok.injEq, Prod.mk.injEq] at hr
    rw [← ho, ← hr.1, ← hr.2]
    have hend := chunk_end_lt (v.generateCsv fs.table) offset data'.length hlen
    rw [← hf] at hend
    refine ⟨hf, ?_⟩
    rw [sizeOrZero, if_neg Bool.false_ne_true, wrappingAdd, Nat.mod_eq_of_lt hend]
  all_goals simp only [Task.step] at hr; (try split_ifs at hr) <;> cases hr

/-- The events of serial runs where every call succeeds: writes and removes run alone. -/
def serialOk (s : Sys Tbl) (e : Event) : Bool := e.succeeds && s.serial e

/-- An arrival that keeps writes and removes alone clashes with no request in flight. -/
theorem Sys.admitsBy_of_admits {s : Sys Tbl} {r : Request} (h : s.admits r) :
    s.admitsBy cacheClash r := by
  simp only [Sys.admits, Bool.and_eq_true, Bool.not_eq_true', List.any_eq_false,
    Bool.or_eq_true, List.all_eq_true] at h
  simp only [Sys.admitsBy, List.all_eq_true, Bool.not_eq_true']
  intro t ht
  obtain ⟨hw, -, hr⟩ := Task.quiet_of_mutates (Bool.eq_false_iff.mpr (h.1 t ht))
  rcases h.2 with hm | hall
  · obtain ⟨hw', -, hr'⟩ := Task.quiet_of_mutates (t := r.start) (by simpa using hm)
    simp [cacheClash, Task.spoils, hw, hr, hw', hr']
  · obtain ⟨hw', -, hr', hf', -⟩ := Task.quiet_of_isDone (hall t ht)
    simp [cacheClash, Task.spoils, hw', hr', hf']

/-- What holds in every state of a serial run where every call succeeds: the cache invariant,
writes and removes alone, and the bytes each read in flight holds are the table's CSV. -/
structure ReadInv (v : CsvView Tbl) (s : Sys Tbl) : Prop where
  /-- The cache follows the table. -/
  cache : CacheInv v s
  /-- A write or a remove in flight is alone. -/
  exclusive : s.Exclusive
  /-- Each read in flight holds the current table's CSV from its offset. -/
  reads : ∀ t ∈ s.tasks, t.ReadFresh (v.generateCsv s.fs.table)

/-- While a read or a getattr is in flight, no write or remove is, so the cache is
coherent. -/
theorem ReadInv.coherent_of_reader {s : Sys Tbl} (hi : ReadInv v s) {k : Nat} {t : Task}
    (ht : s.tasks[k]? = some t) (hd : t.isDone = false) (hm : t.mutates = false) :
    s.fs.Coherent v :=
  hi.cache.coherent.resolve_right fun ⟨u, hu, hdirty⟩ => by
    obtain rfl := hi.exclusive.eq_of_mutates ht hd hu (Task.mutates_of_dirty hdirty)
    simp [Task.mutates_of_dirty hdirty] at hm

/-- Every event of a serial run where every call succeeds keeps the invariant. -/
theorem ReadInv.next {s s' : Sys Tbl} {e : Event} (hi : ReadInv v s) (hok : serialOk s e)
    (h : s.next v e = some s') : ReadInv v s' := by
  simp only [serialOk, Bool.and_eq_true] at hok
  have hcache : cacheOk s e := by
    cases e <;> simp_all [cacheOk, Sys.apartBy, Sys.serial, Sys.admitsBy_of_admits]
  refine ⟨hi.cache.next hcache h, hi.exclusive.next hok.2 h, ?_⟩
  rcases Sys.next_cases h with ⟨r, rfl, rfl⟩ | ⟨k, fails, t₀, rfl, ht₀, hd₀, rfl⟩ | ⟨_, rfl, rfl⟩
  · exact List.forall_mem_append.mpr ⟨hi.reads,
      List.forall_mem_singleton.mpr (by cases r <;> trivial)⟩
  · obtain rfl : fails = false := by simpa [Event.succeeds] using hok.1
    cases hm : t₀.mutates
    · obtain ⟨hw, -, hr⟩ := Task.quiet_of_mutates hm
      rw [Task.table_step v s.fs false t₀ hw hr]
      exact forall_mem_set_of hi.reads k
        (Task.readFresh_step_reader hm (hi.reads t₀ (List.mem_iff_getElem?.mpr ⟨k, ht₀⟩)))
    · intro u hu
      rcases hi.exclusive.mem_set ht₀ hm _ u hu with rfl | hd
      · exact Task.readFresh_step_mutator _ _ hm _
      · cases u <;> simp_all [Task.isDone, Task.ReadFresh]
  · simpa only [Fs.env_table] using hi.reads

/-- The invariant holds along every serial run where every call succeeds. -/
theorem ReadInv.reachable {s₀ s : Sys Tbl} (h₀ : ReadInv v s₀)
    (hs : Reachable v serialOk s₀ s) : ReadInv v s := by
  induction hs with
  | init => exact h₀
  | step _ hok hn ih => exact ih.next hok hn

/-- In runs where each write and remove runs alone and every call succeeds, from a coherent
cache and no request in flight, with the table's CSV shorter than 2^64 bytes: a read that
returns at its next step returns the current table's CSV from its offset, and `eof` exactly
when those bytes reach the CSV's end, from the cache or from the view. -/
theorem serial_read_consistent (fs₀ : Fs Tbl) (h₀ : fs₀.Coherent v) {s : Sys Tbl}
    (hs : Reachable v serialOk ⟨fs₀, []⟩ s) (hlen : (v.generateCsv s.fs.table).length < 2 ^ 64)
    {i : Nat} {t : Task} (ht : s.tasks[i]? = some t)
    {o : UInt64} (ho : t.readOffset = some o) {data : List UInt8} {eof : Bool}
    (hr : (t.step v s.fs false).2 = .done (.read (some (.ok (data, eof))))) :
    data = chunk (v.generateCsv s.fs.table) o.toNat data.length ∧
      eof = decide ((v.generateCsv s.fs.table).length ≤ o.toNat + data.length) := by
  have hi := ReadInv.reachable ⟨⟨fun _ _ _ _ h => by simp at h, by simp, .inl h₀⟩,
    fun _ _ _ _ h => by simp at h, by simp⟩ hs
  obtain ⟨hd, hm⟩ := Task.reader_of_readOffset ho
  have hc := hi.coherent_of_reader ht hd hm
  exact Task.read_reply hlen hc (hi.reads t (List.mem_iff_getElem?.mpr ⟨i, ht⟩)) ho hr

/-- A read of three bytes from offset 2 of `abcdef` that has missed the cache and holds its
bytes. -/
def serialReadTrace : List Event :=
  [.arrive (.read 2 3), .resume 0 false, .resume 0 false]

/-- `serial_read_consistent` on `serialReadTrace`: the read returns `cde`, not at the end. -/
theorem serial_read_consistent_sample :
    ∃ s, Reachable CsvView.verbatim serialOk ⟨sampleFs (ascii "abcdef"), []⟩ s ∧
      s.tasks[0]? = some (.readSize 2 (ascii "cde")) ∧
      ((Task.readSize 2 (ascii "cde")).step CsvView.verbatim s.fs false).2 =
        .done (.read (some (.ok (ascii "cde", false)))) ∧
      (ascii "cde" = chunk (CsvView.verbatim.generateCsv s.fs.table) (2 : UInt64).toNat
          (ascii "cde").length ∧
        false = decide ((CsvView.verbatim.generateCsv s.fs.table).length ≤
          (2 : UInt64).toNat + (ascii "cde").length)) :=
  have hs := Reachable.run .init (rfl : Sys.run CsvView.verbatim serialOk
    ⟨sampleFs (ascii "abcdef"), []⟩ serialReadTrace = some _)
  ⟨_, hs, rfl, rfl, @serial_read_consistent _ CsvView.verbatim _
    (Fs.coherent_attrFresh_withCache _ _ _ rfl).1 _ hs (by decide) 0 (.readSize 2 (ascii "cde"))
    rfl 2 rfl (ascii "cde") false rfl⟩

/-- A read of `count` bytes from `offset` that passes its `view.read`, then a write of `data`
that arrives and runs to its end, before the read's `view.size`. -/
def tornTrace (offset : UInt64) (count : UInt32) (woffset : UInt64) (data : List UInt8) :
    List Event :=
  [.arrive (.read offset count), .resume 0 false, .resume 0 false,
    .arrive (.write woffset data)] ++ List.replicate 4 (.resume 1 false)

/-- With caching off and every call succeeding, a read that passes its `view.read`, then the
arrival of a write. -/
theorem readArrive_run (v : CsvView Tbl) (fs : Fs Tbl) (hc : fs.cache = none)
    (offset : UInt64) (count : UInt32) (woffset : UInt64) (data : List UInt8) :
    Sys.run v (fun _ e => e.succeeds) ⟨fs, []⟩ [.arrive (.read offset count), .resume 0 false,
        .resume 0 false, .arrive (.write woffset data)] =
      some ⟨fs, [.readSize offset (chunk (v.generateCsv fs.table) offset.toNat count.toNat),
        .writeGet data]⟩ := by
  simp [Sys.run, Sys.next, Event.succeeds, Request.start, Task.step, Task.isDone, Fs.cacheGet, hc]

/-- With caching off and every call succeeding, a write that `apply_write` accepts runs to its
end in four steps, beside any other task. -/
theorem writeSteps_run (v : CsvView Tbl) (fs : Fs Tbl) (hc : fs.cache = none) (t : Task)
    (data : List UInt8) {t' : Tbl} (happ : v.applyWrite fs.table data none = some t') :
    Sys.run v (fun _ e => e.succeeds) ⟨fs, [t, .writeGet data]⟩
        (List.replicate 4 (.resume 1 false)) =
      some ⟨({ fs with table := t' } : Fs Tbl).setAttr dataCsvId
          (fileAttr dataCsvId (v.generateCsv t').length fs.clock),
        [t, .done (.attr (.ok (fileAttr dataCsvId (v.generateCsv t').length fs.clock)))]⟩ := by
  simp [Sys.run, Sys.next, Event.succeeds, Task.step, Task.isDone, Fs.cacheGet, hc, happ,
    sizeOrZero]

/-- With caching off and every call succeeding, `tornTrace` leaves the write's table and
attributes, and the read holding the old table's bytes. -/
theorem tornTrace_run (v : CsvView Tbl) (fs : Fs Tbl) (hc : fs.cache = none)
    (offset : UInt64) (count : UInt32) (woffset : UInt64) (data : List UInt8) {t' : Tbl}
    (happ : v.applyWrite fs.table data none = some t') :
    Sys.run v (fun _ e => e.succeeds) ⟨fs, []⟩ (tornTrace offset count woffset data) =
      some ⟨({ fs with table := t' } : Fs Tbl).setAttr dataCsvId
          (fileAttr dataCsvId (v.generateCsv t').length fs.clock),
        [.readSize offset (chunk (v.generateCsv fs.table) offset.toNat count.toNat),
          .done (.attr (.ok (fileAttr dataCsvId (v.generateCsv t').length fs.clock)))]⟩ := by
  rw [tornTrace, Sys.run_append, readArrive_run v fs hc, Option.some_bind,
    writeSteps_run v fs hc _ data happ]

/-- With caching off, a write that runs to its end between a read's `view.read` and its
`view.size`, every call succeeding, leaves the read returning the old table's CSV bytes with
an `eof` decided against the new table's CSV: a reply that no table gives. -/
theorem read_tears_across_write (v : CsvView Tbl) (fs : Fs Tbl) (hc : fs.cache = none)
    (offset : UInt64) (count : UInt32) (woffset : UInt64) (data : List UInt8) {t' : Tbl}
    (happ : v.applyWrite fs.table data none = some t')
    (hlen : (v.generateCsv fs.table).length < 2 ^ 64) :
    ∃ s, Reachable v (fun _ e => e.succeeds) ⟨fs, []⟩ s ∧ s.fs.table = t' ∧
      ∃ t, s.tasks[0]? = some t ∧
        (t.step v s.fs false).2 = .done (.read (some (.ok
          (chunk (v.generateCsv fs.table) offset.toNat count.toNat,
            decide ((v.generateCsv t').length ≤ offset.toNat +
              (chunk (v.generateCsv fs.table) offset.toNat count.toNat).length))))) := by
  have hend := chunk_end_lt (v.generateCsv fs.table) offset count.toNat hlen
  refine ⟨_, Reachable.run .init (tornTrace_run v fs hc offset count woffset data happ), rfl,
    .readSize offset (chunk (v.generateCsv fs.table) offset.toNat count.toNat), rfl, ?_⟩
  simp only [Task.step, sizeOrZero, Bool.false_eq_true, if_false, wrappingAdd,
    Nat.mod_eq_of_lt hend, Fs.setAttr_table]

/-- `read_tears_across_write` on a read of three bytes from offset 0 of `abcdef` and a write
that makes the table `ab`: the read returns `abc` with `eof`, while a read served alone
before the write returns `(abc, false)`, and one served alone after it `(ab, true)`. -/
theorem read_tears_across_write_sample :
    (∃ s, Reachable CsvView.verbatim (fun _ e => e.succeeds)
        ⟨Fs.new (ascii "abcdef") [] 0, []⟩ s ∧ s.fs.table = ascii "ab" ∧
      ∃ t, s.tasks[0]? = some t ∧ (t.step CsvView.verbatim s.fs false).2 =
        .done (.read (some (.ok (ascii "abc", true))))) ∧
      (read CsvView.verbatim (Fs.new (ascii "abcdef") [] 0) dataCsvId 0 3 Faults.none).1 =
        some (.ok (ascii "abc", false)) ∧
      (read CsvView.verbatim (Fs.new (ascii "ab") [] 0) dataCsvId 0 3 Faults.none).1 =
        some (.ok (ascii "ab", true)) :=
  ⟨read_tears_across_write CsvView.verbatim (Fs.new (ascii "abcdef") [] 0) rfl 0 3 0 (ascii "ab")
    rfl (by decide), rfl, rfl⟩

end Fsdb.Nfs
