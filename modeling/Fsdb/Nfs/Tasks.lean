import Fsdb.Nfs.Handlers

/-!
# Requests as interleaved tasks

The handlers are `async`: a request runs as a task that yields at each `.await`, and the
tasks of concurrent requests interleave between those points. A `Task` is a request to
`data.csv` stopped before its next await, holding the locals it has computed so far;
`Task.step` runs it through that await, one call to a collaborator, whose outcome the step
takes as a `Bool`. The content and attribute caches are not in `server.rs` and may drop an
entry at any time, and the clock moves; one more event models both. A run may admit an
arrival only when the new task conflicts with no task in flight (`Sys.admitsBy`): for any
conflict relation that is symmetric and that no step creates, the tasks in flight then never
conflict (`Sys.Apart.next`). Requests for other ids, `lookup` and
`readdir` touch neither the table nor the two cache entries of `data.csv`, so the model
leaves them out. Run alone, with the outcomes a `Faults` oracle gives, each task computes
what its sequential handler computes (`runAlone_start`).
-/

namespace Fsdb.Nfs

/-- What a request returned: `read`'s data and `eof` (none where it panicked), the
attributes of `getattr` and `write`, or `remove`'s unit. -/
inductive Reply where
  | read (r : Option (Except Nfsstat3 (List UInt8 × Bool)))
  | attr (r : Except Nfsstat3 Fattr3)
  | unit (r : Except Nfsstat3 Unit)

/-- A request to `data.csv` stopped before its next `.await`, with the locals it holds. -/
inductive Task where
  /-- `read(DATA_CSV_ID, offset, count)` before `cache.get("csv:data")`. -/
  | readGet (offset : UInt64) (count : UInt32)
  /-- A read that missed the cache, before `view.read(offset, count)`. -/
  | readView (offset : UInt64) (count : UInt32)
  /-- A read at offset 0 with caching on, holding its chunk, before `get_full_content()`. -/
  | readFull (data : List UInt8)
  /-- A read holding its chunk and the full content, before `cache.insert`. -/
  | readInsert (data content : List UInt8)
  /-- A read holding its chunk, before `view.size()`. -/
  | readSize (offset : UInt64) (data : List UInt8)
  /-- `write(DATA_CSV_ID, _offset, data)` before `cache.get("csv:data")`. -/
  | writeGet (data : List UInt8)
  /-- A write holding its diff base, before `view.apply_write(data, cached_content)`. -/
  | writeApply (data : List UInt8) (base : Option (List UInt8))
  /-- A committed write with caching on, before `view.generate_csv()`. -/
  | writeGenerate
  /-- A committed write holding the fresh CSV, before `cache.insert`. -/
  | writeInsert (fresh : List UInt8)
  /-- A committed write before `view.size()`. -/
  | writeSize
  /-- A committed write holding the new size, before `attr_cache.set`. -/
  | writeSetAttr (size : Nat)
  /-- `remove(DATA_DIR_ID, "data.csv")` before `delete_rows_where("1=1")`. -/
  | removeDelete
  /-- A remove that truncated the table, before `cache.remove("csv:data")`. -/
  | removeInvalidate
  /-- `getattr(DATA_CSV_ID)` before `attr_cache.get`. -/
  | getattrGet
  /-- A getattr that missed the attribute cache, before `view.size()`. -/
  | getattrSize
  /-- A getattr holding the size, before `attr_cache.set`. -/
  | getattrSet (size : Nat)
  /-- A request that returned. -/
  | done (reply : Reply)

variable {Tbl : Type}

/-- The task runs through its next await; `fails` is the outcome of the call made there. -/
def Task.step (v : CsvView Tbl) (fs : Fs Tbl) (fails : Bool) : Task → Fs Tbl × Task
  | .readGet offset count =>
    match fs.cacheGet csvDataKey fails with
    | some cached => (fs, .done (.read ((readCached cached offset count).map .ok)))
    | none => (fs, .readView offset count)
  | .readView offset count =>
    if fails then (fs, .done (.read (some (.error .io))))
    else
      let data := chunk (v.generateCsv fs.table) offset.toNat count.toNat
      (fs, if offset = 0 ∧ fs.cache.isSome then .readFull data else .readSize offset data)
  | .readFull data =>
    (fs, if fails then .readSize 0 data else .readInsert data (v.generateCsv fs.table))
  | .readInsert data content => (fs.cacheInsert csvDataKey content fails, .readSize 0 data)
  | .readSize offset data =>
    let size := sizeOrZero (v.generateCsv fs.table) fails
    (fs, .done (.read (some (.ok (data, decide (size ≤ wrappingAdd offset.toNat data.length))))))
  | .writeGet data => (fs, .writeApply data (fs.cacheGet csvDataKey fails))
  | .writeApply data base =>
    match (if fails then none else v.applyWrite fs.table data base) with
    | none => (fs, .done (.attr (.error .io)))
    | some t => ({ fs with table := t }, if fs.cache.isSome then .writeGenerate else .writeSize)
  | .writeGenerate =>
    (fs, if fails then .done (.attr (.error .io)) else .writeInsert (v.generateCsv fs.table))
  | .writeInsert fresh => (fs.cacheInsert csvDataKey fresh fails, .writeSize)
  | .writeSize => (fs, .writeSetAttr (sizeOrZero (v.generateCsv fs.table) fails))
  | .writeSetAttr size =>
    (fs.setAttr dataCsvId (fileAttr dataCsvId size fs.clock),
      .done (.attr (.ok (fileAttr dataCsvId size fs.clock))))
  | .removeDelete =>
    match (if fails then none else v.deleteRowsWhere fs.table everyRow) with
    | none => (fs, .done (.unit (.error .io)))
    | some t => ({ fs with table := t }, .removeInvalidate)
  | .removeInvalidate => (fs.cacheRemove csvDataKey fails, .done (.unit (.ok ())))
  | .getattrGet =>
    match fs.attrCache dataCsvId with
    | some cached => (fs, .done (.attr (.ok cached)))
    | none => (fs, .getattrSize)
  | .getattrSize => (fs, .getattrSet (sizeOrZero (v.generateCsv fs.table) fails))
  | .getattrSet size =>
    (fs.setAttr dataCsvId (fileAttr dataCsvId size fs.clock),
      .done (.attr (.ok (fileAttr dataCsvId size fs.clock))))
  | .done r => (fs, .done r)

/-- The call a task makes at its next await; none for the attribute cache, whose calls
cannot fail, and for a finished task. -/
def Task.call : Task → Option Call
  | .readGet .. | .writeGet _ => some .cacheGet
  | .readView .. => some .viewRead
  | .readFull _ => some .fullContent
  | .readInsert .. | .writeInsert _ => some .cacheInsert
  | .readSize .. | .writeSize | .getattrSize => some .size
  | .writeApply .. => some .applyWrite
  | .writeGenerate => some .generateCsv
  | .removeDelete => some .deleteRows
  | .removeInvalidate => some .cacheRemove
  | .writeSetAttr _ | .getattrGet | .getattrSet _ | .done _ => none

/-- The task has returned. -/
def Task.isDone : Task → Bool
  | .done _ => true
  | _ => false

/-- The task is a write or a remove that has not returned: it may change the table. -/
def Task.mutates : Task → Bool
  | .writeGet _ | .writeApply .. | .writeGenerate | .writeInsert _ | .writeSize
  | .writeSetAttr _ | .removeDelete | .removeInvalidate => true
  | _ => false

/-- A write that has not reached its `cache.insert`: it may still read the content cache,
commit, or insert. -/
def Task.writes : Task → Bool
  | .writeGet _ | .writeApply .. | .writeGenerate | .writeInsert _ => true
  | _ => false

/-- A write in flight: it may still commit, or store a size in the attribute cache. -/
def Task.writing : Task → Bool
  | .writeGet _ | .writeApply .. | .writeGenerate | .writeInsert _ | .writeSize
  | .writeSetAttr _ => true
  | _ => false

/-- A remove in flight. -/
def Task.removes : Task → Bool
  | .removeDelete | .removeInvalidate => true
  | _ => false

/-- A read that may still insert the CSV it generates: a read at offset 0 before its
`cache.insert`. -/
def Task.fills : Task → Bool
  | .readGet offset _ | .readView offset _ => offset == 0
  | .readFull _ | .readInsert .. => true
  | _ => false

/-- A getattr in flight. -/
def Task.getattr : Task → Bool
  | .getattrGet | .getattrSize | .getattrSet _ => true
  | _ => false

/-- A finished task stays as it is. -/
@[simp] theorem Task.step_done (v : CsvView Tbl) (fs : Fs Tbl) (fails : Bool) (r : Reply) :
    (Task.done r).step v fs fails = (fs, .done r) := rfl

/-- Only a write or a remove changes the table, and a step never turns a read or a getattr
into one. -/
theorem Task.mutates_step (v : CsvView Tbl) (fs : Fs Tbl) (fails : Bool) (t : Task)
    (h : (t.step v fs fails).2.mutates) : t.mutates := by
  cases t <;> first
    | rfl
    | simp only [Task.step] at h; (try split at h) <;> (try split_ifs at h) <;>
        simp [Task.mutates] at h

/-- Only a write before its insert or a remove changes the table. -/
theorem Task.table_step (v : CsvView Tbl) (fs : Fs Tbl) (fails : Bool) (t : Task)
    (hw : t.writes = false) (hr : t.removes = false) : (t.step v fs fails).1.table = fs.table := by
  cases t <;> simp [Task.writes, Task.removes] at hw hr <;> simp only [Task.step] <;>
    (try split) <;> (try split_ifs) <;> simp

/-- No step makes a task a write before its insert, a write in flight, a remove, a filling
read or a getattr that it was not. -/
theorem Task.roles_step (v : CsvView Tbl) (fs : Fs Tbl) (fails : Bool) (t : Task) :
    ((t.step v fs fails).2.writes → t.writes) ∧ ((t.step v fs fails).2.writing → t.writing) ∧
      ((t.step v fs fails).2.removes → t.removes) ∧ ((t.step v fs fails).2.fills → t.fills) ∧
      ((t.step v fs fails).2.getattr → t.getattr) := by
  cases t <;> simp only [Task.step] <;> (try split) <;> (try split_ifs) <;>
    simp_all [Task.writes, Task.writing, Task.removes, Task.fills, Task.getattr]

/-- A task that is neither a write nor a remove in flight has none of their roles. -/
theorem Task.quiet_of_mutates {t : Task} (h : t.mutates = false) :
    t.writes = false ∧ t.writing = false ∧ t.removes = false := by
  cases t <;> simp_all [Task.mutates, Task.writes, Task.writing, Task.removes]

/-- A task that has returned has no role. -/
theorem Task.quiet_of_isDone {t : Task} (h : t.isDone) :
    t.writes = false ∧ t.writing = false ∧ t.removes = false ∧ t.fills = false ∧
      t.getattr = false := by
  cases t <;> simp_all [Task.isDone, Task.writes, Task.writing, Task.removes, Task.fills,
    Task.getattr]

/-- A request to `data.csv` as a client sends it. -/
inductive Request where
  | read (offset : UInt64) (count : UInt32)
  | write (offset : UInt64) (data : List UInt8)
  | remove
  | getattr

/-- The task a request starts as: `write` drops its offset, and `remove` has checked the
name before its first await. -/
def Request.start : Request → Task
  | .read offset count => .readGet offset count
  | .write _ data => .writeGet data
  | .remove => .removeDelete
  | .getattr => .getattrGet

/-- Writes and removes. -/
def Request.mutates : Request → Bool
  | .write .. | .remove => true
  | _ => false

/-- The sequential handler that serves a request, with its reply. -/
def Request.serve (v : CsvView Tbl) (fs : Fs Tbl) (io : Faults) : Request → Fs Tbl × Task
  | .read offset count =>
    let r := Fsdb.Nfs.read v fs dataCsvId offset count io
    (r.2, .done (.read r.1))
  | .write offset data =>
    let r := Fsdb.Nfs.write v fs dataCsvId offset data io
    (r.2, .done (.attr r.1))
  | .remove =>
    let r := Fsdb.Nfs.remove v fs dataDirId dataCsvName.bytes io
    (r.2, .done (.unit r.1))
  | .getattr =>
    let r := Fsdb.Nfs.getattr v fs dataCsvId io
    (r.2, .done (.attr r.1))

/-- A task run alone for at most `fuel` steps, each call failing as `io` says. -/
def Task.runAlone (v : CsvView Tbl) (io : Faults) : Nat → Fs Tbl → Task → Fs Tbl × Task
  | 0, fs, t => (fs, t)
  | fuel + 1, fs, t =>
    match t.step v fs ((t.call.map io).getD false) with
    | (fs', t') => Task.runAlone v io fuel fs' t'

@[simp] theorem Task.runAlone_done (v : CsvView Tbl) (io : Faults) (fuel : Nat) (fs : Fs Tbl)
    (r : Reply) : Task.runAlone v io fuel fs (.done r) = (fs, .done r) := by
  induction fuel <;> simp_all [Task.runAlone]

theorem Fs.cacheInsert_of_cache_none {fs : Fs Tbl} (h : fs.cache = none)
    (key content : List UInt8) (fails : Bool) : fs.cacheInsert key content fails = fs := by
  simp [Fs.cacheInsert, h]

/-- Run alone, a task computes what its sequential handler computes: the interleaving
model refines the handlers. -/
theorem runAlone_start (v : CsvView Tbl) (io : Faults) (fs : Fs Tbl) (r : Request) :
    Task.runAlone v io 6 fs r.start = r.serve v fs io := by
  cases r with
  | read offset count =>
    simp only [Request.start, Request.serve, read, if_pos rfl, readThrough]
    cases hget : fs.cacheGet csvDataKey (io .cacheGet) with
    | some cached => simp [Task.runAlone, Task.call, Task.step, hget]
    | none =>
      cases hview : io .viewRead
      · by_cases h0 : offset = 0 <;> cases hc : fs.cache <;> cases hfull : io .fullContent <;>
          simp [Task.runAlone, Task.call, Task.step, hget, hview, h0, hc, hfull,
            Fs.cacheInsert_of_cache_none]
      · simp [Task.runAlone, Task.call, Task.step, hget, hview]
  | write offset data =>
    simp only [Request.start, Request.serve, write_dataCsv, Fs.applied]
    cases happ : (if io .applyWrite then none else
        v.applyWrite fs.table data (fs.cacheGet csvDataKey (io .cacheGet))) with
    | none => simp [Task.runAlone, Task.call, Task.step, happ]
    | some t =>
      cases hc : fs.cache <;> cases hgen : io .generateCsv <;>
        simp [Task.runAlone, Task.call, Task.step, happ, hc, hgen, writeDone,
          Fs.cacheInsert_of_cache_none]
  | remove =>
    simp only [Request.start, Request.serve, remove, fromUtf8Lossy_bytes, and_self, if_true]
    cases hdel : (if io .deleteRows then none else v.deleteRowsWhere fs.table everyRow) <;>
      simp [Task.runAlone, Task.call, Task.step, hdel]
  | getattr =>
    simp only [Request.start, Request.serve, getattr]
    cases hattr : fs.attrCache dataCsvId <;>
      simp [Task.runAlone, Task.call, Task.step, hattr, computeAttr,
        show dataCsvId ≠ rootId by decide, show dataCsvId ≠ dataDirId by decide]

/-- A request's task is a write or a remove exactly when the request is. -/
@[simp] theorem Request.mutates_start (r : Request) : r.start.mutates = r.mutates := by
  cases r <;> rfl

theorem Task.isDone_of_mutates {t : Task} (h : t.mutates) : t.isDone = false := by
  cases t <;> simp_all [Task.mutates, Task.isDone]

/-- The server and the tasks of the requests to `data.csv` that have arrived, in arrival
order. -/
structure Sys (Tbl : Type) where
  fs : Fs Tbl
  tasks : List Task

/-- What can happen next. -/
inductive Event where
  /-- A request arrives and starts as a task. -/
  | arrive (r : Request)
  /-- Task `i` runs through its next await, where its call fails when `fails`. -/
  | resume (i : Nat) (fails : Bool)
  /-- A cache drops an entry on its own, or the clock moves. -/
  | env (e : Env)

/-- Every call succeeds: no resumed task sees its call fail. -/
def Event.succeeds : Event → Bool
  | .resume _ fails => !fails
  | _ => true

/-- The state after an event, none when the event cannot happen: a task that has returned,
or does not exist, does not resume. -/
def Sys.next (v : CsvView Tbl) (s : Sys Tbl) : Event → Option (Sys Tbl)
  | .arrive r => some ⟨s.fs, s.tasks ++ [r.start]⟩
  | .resume i fails =>
    match s.tasks[i]? with
    | some t =>
      if t.isDone then none
      else some ⟨(t.step v s.fs fails).1, s.tasks.set i (t.step v s.fs fails).2⟩
    | none => none
  | .env e => some ⟨s.fs.env e, s.tasks⟩

/-- Everything an event can do, once: an arrival appends a task, a resumption steps one task
that has not returned, and the environment acts on the state alone. -/
theorem Sys.next_cases {v : CsvView Tbl} {s s' : Sys Tbl} {e : Event}
    (h : s.next v e = some s') :
    (∃ r, e = .arrive r ∧ s' = ⟨s.fs, s.tasks ++ [r.start]⟩) ∨
    (∃ i fails t, e = .resume i fails ∧ s.tasks[i]? = some t ∧ t.isDone = false ∧
      s' = ⟨(t.step v s.fs fails).1, s.tasks.set i (t.step v s.fs fails).2⟩) ∨
    (∃ e', e = .env e' ∧ s' = ⟨s.fs.env e', s.tasks⟩) := by
  cases e with
  | arrive r => exact .inl ⟨r, rfl, (Option.some.inj h).symm⟩
  | resume i fails =>
    simp only [Sys.next] at h
    split at h
    · rename_i t ht
      split_ifs at h with hd
      exact .inr (.inl ⟨i, fails, t, rfl, ht, by simpa using hd, (Option.some.inj h).symm⟩)
    · cases h
  | env e' => exact .inr (.inr ⟨e', rfl, (Option.some.inj h).symm⟩)

/-- The states that runs from `s₀` reach by events that `ok` admits. -/
inductive Reachable (v : CsvView Tbl) (ok : Sys Tbl → Event → Bool) (s₀ : Sys Tbl) :
    Sys Tbl → Prop where
  | init : Reachable v ok s₀ s₀
  | step {s s' : Sys Tbl} {e : Event} :
      Reachable v ok s₀ s → ok s e = true → s.next v e = some s' → Reachable v ok s₀ s'

/-- The events of a list in order; none when `ok` refuses one or one cannot happen. -/
def Sys.run (v : CsvView Tbl) (ok : Sys Tbl → Event → Bool) :
    Sys Tbl → List Event → Option (Sys Tbl)
  | s, [] => some s
  | s, e :: es => if ok s e then (s.next v e).bind (Sys.run v ok · es) else none

/-- A run of admitted events extends a reachable state to a reachable state. -/
theorem Reachable.run {v : CsvView Tbl} {ok : Sys Tbl → Event → Bool} {s₀ : Sys Tbl} :
    ∀ {s s' : Sys Tbl} {es : List Event}, Reachable v ok s₀ s → s.run v ok es = some s' →
      Reachable v ok s₀ s'
  | _, _, [], hs, h => by cases h; exact hs
  | s, _, e :: es, hs, h => by
    simp only [Sys.run] at h
    split_ifs at h with hok
    cases hn : s.next v e with
    | none => simp [hn] at h
    | some s1 => exact Reachable.run (hs.step hok hn) (by simpa [hn] using h)

/-- A run of two lists of events is the run of the first, then of the second. -/
theorem Sys.run_append (v : CsvView Tbl) (ok : Sys Tbl → Event → Bool) (s : Sys Tbl)
    (es es' : List Event) :
    s.run v ok (es ++ es') = (s.run v ok es).bind (Sys.run v ok · es') := by
  induction es generalizing s with
  | nil => rfl
  | cons e es ih =>
    simp only [List.cons_append, Sys.run]
    split_ifs
    · cases s.next v e <;> simp [ih]
    · rfl

/-- A request may arrive when that keeps writes and removes apart from every other request:
nothing arrives while a write or a remove is in flight, and a write or a remove arrives only
when every task has returned. -/
def Sys.admits (s : Sys Tbl) (r : Request) : Bool :=
  !(s.tasks.any Task.mutates) && (!r.mutates || s.tasks.all Task.isDone)

/-- Writes and removes run alone, as under a reader-writer lock. -/
def Sys.serial (s : Sys Tbl) : Event → Bool
  | .arrive r => s.admits r
  | _ => true

/-- When every task has returned, any request may arrive. -/
theorem Sys.admits_of_quiescent {s : Sys Tbl} (h : ∀ t ∈ s.tasks, t.isDone) (r : Request) :
    s.admits r = true := by
  simp only [Sys.admits, Bool.and_eq_true, Bool.not_eq_true', List.any_eq_false,
    Bool.or_eq_true, List.all_eq_true]
  exact ⟨fun t ht hm => by simpa [Task.isDone_of_mutates hm] using h t ht, .inr h⟩

/-- While a write or a remove is in flight, every other task has returned. -/
def Sys.Exclusive (s : Sys Tbl) : Prop :=
  ∀ (i j : Nat) (t u : Task), s.tasks[i]? = some t → s.tasks[j]? = some u → t.mutates →
    i ≠ j → u.isDone

/-- Task `j` after task `i` is replaced by `t'`. -/
theorem getElem?_set_of_getElem? {l : List Task} {i j : Nat} {t t' : Task}
    (h : l[i]? = some t) : (l.set i t')[j]? = if i = j then some t' else l[j]? := by
  have hi : i < l.length := (List.getElem?_eq_some_iff.mp h).1
  simp [List.getElem?_set, hi]

/-- A property of every task still holds once one of them is replaced by a task that has it. -/
theorem forall_mem_set_of {p : Task → Prop} {l : List Task} (h : ∀ u ∈ l, p u) (k : Nat)
    {t : Task} (ht : p t) : ∀ u ∈ l.set k t, p u := fun u hu =>
  (List.mem_or_eq_of_mem_set hu).elim (h u) fun e => e ▸ ht

/-- The serial discipline keeps writes and removes alone, whatever each step does. -/
theorem Sys.Exclusive.next {v : CsvView Tbl} {s s' : Sys Tbl} {e : Event} (hx : s.Exclusive)
    (hok : s.serial e) (h : s.next v e = some s') : s'.Exclusive := by
  rcases Sys.next_cases h with ⟨r, rfl, rfl⟩ | ⟨k, fails, t₀, rfl, ht₀, hd₀, rfl⟩ | ⟨_, rfl, rfl⟩
  · simp only [Sys.serial, Sys.admits, Bool.and_eq_true, Bool.not_eq_true', List.any_eq_false,
      Bool.or_eq_true, List.all_eq_true] at hok
    obtain ⟨hnone, hstart⟩ := hok
    intro i j t u hi hj hm hij
    have hlt : ∀ {k w}, (s.tasks ++ [r.start])[k]? = some w → k ≠ s.tasks.length →
        w ∈ s.tasks := fun {k w} hk hne => by
      have hk' := (List.getElem?_eq_some_iff.mp hk).1
      simp only [List.length_append, List.length_singleton] at hk'
      rw [List.getElem?_append_left (by omega)] at hk
      exact List.mem_iff_getElem?.mpr ⟨_, hk⟩
    by_cases hin : i = s.tasks.length
    · subst hin
      rw [List.getElem?_concat_length, Option.some.injEq] at hi
      subst hi
      rcases hstart with hr | hall
      · simp_all
      · exact hall u (hlt hj (Ne.symm hij))
    · exact absurd hm (by simpa using hnone t (hlt hi hin))
  · intro i j t u hi hj hm hij
    rw [getElem?_set_of_getElem? ht₀] at hi hj
    split_ifs at hi hj with hki hkj hkj
    · omega
    · cases hi
      exact hx k j t₀ u ht₀ hj (Task.mutates_step v s.fs fails t₀ hm) hkj
    · cases hj
      simp [hx i k t t₀ hi ht₀ hm (Ne.symm hki)] at hd₀
    · exact hx i j t u hi hj hm hij
  · exact hx

/-- A task that is in flight and is not a write or a remove rules them all out. -/
theorem Sys.Exclusive.eq_of_mutates {s : Sys Tbl} (hx : s.Exclusive) {k : Nat} {t u : Task}
    (hk : s.tasks[k]? = some t) (hd : t.isDone = false) (hu : u ∈ s.tasks) (hm : u.mutates) :
    u = t := by
  obtain ⟨j, hj⟩ := List.mem_iff_getElem?.mp hu
  by_cases hjk : j = k
  · subst hjk
    exact Option.some.inj (hj.symm.trans hk)
  · simp [hx j k u t hj hk hm hjk] at hd

/-- Once a write or a remove at `k` steps to `t'`, every task but `t'` has returned. -/
theorem Sys.Exclusive.mem_set {s : Sys Tbl} (hx : s.Exclusive) {k : Nat} {t : Task}
    (hk : s.tasks[k]? = some t) (hm : t.mutates) (t' : Task) :
    ∀ u ∈ s.tasks.set k t', u = t' ∨ u.isDone := by
  intro u hu
  obtain ⟨j, hj⟩ := List.mem_iff_getElem?.mp hu
  rw [getElem?_set_of_getElem? hk] at hj
  split_ifs at hj with hkj
  · exact .inl (Option.some.inj hj).symm
  · exact .inr (hx k j t u hk hj hm hkj)

/-- A request may arrive when its task conflicts, under `c`, with no task in flight. -/
def Sys.admitsBy (c : Task → Task → Bool) (s : Sys Tbl) (r : Request) : Bool :=
  s.tasks.all fun t => !c r.start t

/-- Arrivals that `admitsBy c` lets in, and every other event. -/
def Sys.apartBy (c : Task → Task → Bool) (s : Sys Tbl) : Event → Bool
  | .arrive r => s.admitsBy c r
  | _ => true

/-- No two tasks conflict under `c`. -/
def Sys.Apart (c : Task → Task → Bool) (s : Sys Tbl) : Prop :=
  ∀ (i j : Nat) (t u : Task), s.tasks[i]? = some t → s.tasks[j]? = some u → i ≠ j →
    c t u = false

/-- The task at `i` once `x` is appended is an old task, or `x` at the end. -/
theorem getElem?_concat_eq_some {l : List Task} {x t : Task} {i : Nat}
    (h : (l ++ [x])[i]? = some t) : l[i]? = some t ∨ i = l.length ∧ t = x := by
  rcases Nat.lt_or_ge i l.length with hi | hi
  · exact .inl (by rwa [List.getElem?_append_left hi] at h)
  · rw [List.getElem?_append_right hi] at h
    have hlt := (List.getElem?_eq_some_iff.mp h).1
    simp only [List.length_singleton] at hlt
    rw [show i - l.length = 0 by omega] at h
    exact .inr ⟨by omega, (Option.some.inj h).symm⟩

/-- A task other than the one at `k` stays when the one at `k` is replaced. -/
theorem mem_set_of_ne {l : List Task} {k : Nat} {t u : Task} (hk : l[k]? = some t)
    (hu : u ∈ l) (hne : u ≠ t) (t' : Task) : u ∈ l.set k t' := by
  obtain ⟨j, hj⟩ := List.mem_iff_getElem?.mp hu
  refine List.mem_iff_getElem?.mpr ⟨j, ?_⟩
  rw [getElem?_set_of_getElem? hk, if_neg]
  · exact hj
  · rintro rfl
    exact hne (Option.some.inj (hj.symm.trans hk))

section Apart

variable {v : CsvView Tbl} {c : Task → Task → Bool}

/-- With a symmetric conflict relation that no step creates, admitting only arrivals that
conflict with no task in flight keeps the tasks apart. -/
theorem Sys.Apart.next (hsymm : ∀ t u, c t u = c u t)
    (hstep : ∀ (fs : Fs Tbl) fails t u, c (t.step v fs fails).2 u = true → c t u = true)
    {s s' : Sys Tbl} {e : Event} (hx : s.Apart c) (hok : s.apartBy c e)
    (h : s.next v e = some s') : s'.Apart c := by
  rcases Sys.next_cases h with ⟨r, rfl, rfl⟩ | ⟨k, fails, t₀, rfl, ht₀, -, rfl⟩ | ⟨_, rfl, rfl⟩
  · simp only [Sys.apartBy, Sys.admitsBy, List.all_eq_true, Bool.not_eq_true'] at hok
    intro i j t u hi hj hij
    rcases getElem?_concat_eq_some hi with hi | ⟨rfl, rfl⟩ <;>
      rcases getElem?_concat_eq_some hj with hj | ⟨rfl, rfl⟩
    · exact hx i j t u hi hj hij
    · exact (hsymm _ _).trans (hok t (List.mem_iff_getElem?.mpr ⟨i, hi⟩))
    · exact hok u (List.mem_iff_getElem?.mpr ⟨j, hj⟩)
    · exact absurd rfl hij
  · have hnew : ∀ j u, s.tasks[j]? = some u → k ≠ j → c (t₀.step v s.fs fails).2 u = false :=
      fun j u hj hkj => Bool.eq_false_iff.mpr fun hc => by
        simpa [hx k j t₀ u ht₀ hj hkj] using hstep _ _ _ _ hc
    intro i j t u hi hj hij
    rw [getElem?_set_of_getElem? ht₀] at hi hj
    split_ifs at hi hj with hki hkj hkj
    · omega
    · cases hi
      exact hnew j u hj hkj
    · cases hj
      exact (hsymm _ _).trans (hnew i t hi hki)
    · exact hx i j t u hi hj hij
  · exact hx

end Apart

end Fsdb.Nfs
