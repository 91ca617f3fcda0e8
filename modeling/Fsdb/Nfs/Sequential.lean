import Fsdb.Nfs.Tasks
import Fsdb.Nfs.Server

/-!
# Requests served one at a time

A request that the sequential handler serves from start to end, with no other request in
flight, is one interleaving of the task model: it arrives, then its task alone takes every
step (`runAlone_start`). It is also one call of the whole server (`serveAll_eq_serveOps`),
so the invariants of the server's runs hold of the handlers served one at a time: with every
call succeeding, the requests keep the cached CSV coherent with the table, and, as long as
no remove is served, the cached attributes of `data.csv` carry the CSV's length.
-/

namespace Fsdb.Nfs

variable {Tbl : Type} {v : CsvView Tbl}

/-- Requests to `data.csv` served one after another by the sequential handlers, every call
succeeding. -/
def serveAll (v : CsvView Tbl) (fs : Fs Tbl) : List Request → Fs Tbl
  | [] => fs
  | r :: rs => serveAll v (r.serve v fs Faults.none).1 rs

/-- The call a request to `data.csv` makes of the server. -/
def Request.toOp : Request → NfsOp
  | .read offset count => .read dataCsvId offset count
  | .write offset data => .write dataCsvId offset data
  | .remove => .remove dataDirId dataCsvName.bytes
  | .getattr => .getattr dataCsvId

/-- Serving requests one at a time is running the server on their calls, every collaborator
call succeeding. -/
theorem serveAll_eq_serveOps (fs : Fs Tbl) (rs : List Request) :
    serveAll v fs rs = fs.serveOps v (rs.map fun r => (r.toOp, Faults.none)) := by
  induction rs generalizing fs with
  | nil => rfl
  | cons r rs ih => cases r <;> exact ih _

/-- Only a remove request makes the call `remove`. -/
theorem Request.isRemove_toOp (r : Request) : r.toOp.isRemove = r.start.removes := by
  cases r <;> rfl

/-- Served one at a time with every call succeeding, from a coherent cache and coherent
attributes, reads, writes, removes and getattrs of `data.csv` keep the cached CSV absent
or equal to the table's CSV; and when none of them is a remove, they keep the cached
attributes of `data.csv` absent or carrying the CSV's length. -/
theorem serveAll_caches_fresh (fs₀ : Fs Tbl) (rs : List Request) :
    (fs₀.Coherent v → (serveAll v fs₀ rs).Coherent v) ∧
      (fs₀.AttrFresh v → (∀ r ∈ rs, r.start.removes = false) →
        (serveAll v fs₀ rs).AttrFresh v) := by
  rw [serveAll_eq_serveOps]
  refine ⟨fun h₀ => h₀.serveOps fun _ hp => ?_, fun h₀ hr => h₀.serveOps fun _ hp => ?_⟩ <;>
    obtain ⟨r, hr', rfl⟩ := List.mem_map.mp hp
  · exact ⟨rfl, rfl, rfl⟩
  · exact ⟨(Request.isRemove_toOp r).trans (hr r hr'), rfl, rfl⟩

/-- `serveAll_caches_fresh` on a write of `b`, a read and a getattr over the table `a`. -/
theorem serveAll_caches_fresh_sample :
    (serveAll CsvView.verbatim (sampleFs (ascii "a"))
        [.write 0 (ascii "b"), .read 0 8, .getattr]).cachedCsv = some (ascii "b") ∧
      (serveAll CsvView.verbatim (sampleFs (ascii "a"))
        [.write 0 (ascii "b"), .read 0 8, .getattr]).Coherent CsvView.verbatim ∧
      (serveAll CsvView.verbatim (sampleFs (ascii "a"))
        [.write 0 (ascii "b"), .read 0 8, .getattr]).AttrFresh CsvView.verbatim :=
  ⟨rfl, (serveAll_caches_fresh _ _).1 (Fs.coherent_attrFresh_withCache _ _ _ rfl).1,
    (serveAll_caches_fresh _ _).2 (Fs.coherent_attrFresh_withCache _ _ _ rfl).2 (by decide)⟩

end Fsdb.Nfs
