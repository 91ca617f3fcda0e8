import Fsdb.Nfs.Types

/-!
# The parquet file map

`refresh_parquet_files` clears `parquet_files` and refills it from `read_dir` on the
table's base directory: each regular file whose extension is `parquet` gets the next id
from 100, in the order `read_dir` yields the entries, under its name converted with
`to_string_lossy`. A failing `read_dir` leaves the map empty. The handlers then read the map
through `HashMap::iter`, in an order the code does not choose.
-/

namespace Fsdb.Nfs

open Fsdb.Path

/-- An entry of the base directory: its name, what `path.is_file()` answers for it, and
the length `fs::metadata` reports. `read_dir` never yields `.` or `..`, and no name holds a
slash, so `entry.path().file_name()` is the name itself. -/
structure OsEntry where
  /-- The name, as the bytes of an `OsString`. -/
  name : List UInt8
  /-- Whether `path.is_file()` holds. -/
  isFile : Bool
  /-- `metadata.len()`. -/
  len : Nat
  /-- A name has no `/`. -/
  slash_not_mem : slash ∉ name
  /-- `read_dir` skips `.` and `..`. -/
  not_dots : name ≠ [dot] ∧ name ≠ [dot, dot]
  deriving DecidableEq

/-- What `read_dir` returns: none when it fails, and otherwise the entries in the order it
yields them, none for an entry it fails to read. -/
abbrev Listing := Option (List (Option OsEntry))

/-- The test `path.is_file() && path.extension().and_then(|s| s.to_str()) == Some("parquet")`. -/
def OsEntry.isParquet (e : OsEntry) : Bool :=
  e.isFile && (extension e.name).bind toStr == some (ascii "parquet")

/-- The loop of `refresh_parquet_files` over the entries, from the id `fileId`: an entry
that fails or is no parquet file is skipped, and each parquet file is inserted under
`fileId`, which then advances. -/
def scanEntries : Nat → List (Option OsEntry) → List (Nat × Str)
  | _, [] => []
  | fileId, none :: es => scanEntries fileId es
  | fileId, some e :: es =>
    if e.isParquet then (fileId, fromUtf8Lossy e.name) :: scanEntries (fileId + 1) es
    else scanEntries fileId es

/-- The names the loop inserts, in order. -/
def parquetNames (es : List (Option OsEntry)) : List Str :=
  ((es.filterMap id).filter OsEntry.isParquet).map fun e => fromUtf8Lossy e.name

/-- A parquet name has no slash: neither the entry's name nor U+FFFD has one. -/
theorem slash_not_mem_parquetNames {es : List (Option OsEntry)} {p : Str}
    (hp : p ∈ parquetNames es) : slash ∉ p.bytes := by
  simp only [parquetNames, List.mem_map, List.mem_filter, List.mem_filterMap, id] at hp
  obtain ⟨e, -, rfl⟩ := hp
  exact Utf8.not_mem_lossy e.slash_not_mem (by decide)

/-- The name of a parquet file ends in `t`, and keeps it through the lossy conversion. -/
theorem isParquet_lossy_last {e : OsEntry} (h : e.isParquet) :
    ∃ pre, (fromUtf8Lossy e.name).bytes = pre ++ [0x74] := by
  have hext : extension e.name = some (ascii "parquet") := by
    simp only [OsEntry.isParquet, Bool.and_eq_true, beq_iff_eq] at h
    cases hx : extension e.name with
    | none => simp [hx] at h
    | some x =>
      have h2 := h.2
      simp only [hx, Option.some_bind, toStr] at h2
      split_ifs at h2
      simpa using h2
  obtain ⟨before, hname⟩ := extension_suffix hext
  have hsplit : ascii "parquet" = ascii "parque" ++ [0x74] := by decide
  rw [hname, hsplit, ← List.cons_append, ← List.append_assoc]
  exact Utf8.lossy_append_ascii _ (by decide)

/-- No parquet name is `data.csv`, which ends in `v`. -/
theorem parquetNames_ne_dataCsvName {es : List (Option OsEntry)} {p : Str}
    (hp : p ∈ parquetNames es) : p ≠ dataCsvName := by
  simp only [parquetNames, List.mem_map, List.mem_filter, List.mem_filterMap, id] at hp
  obtain ⟨e, ⟨-, he⟩, rfl⟩ := hp
  obtain ⟨pre, hpre⟩ := isParquet_lossy_last he
  intro heq
  have hlast : (fromUtf8Lossy e.name).bytes.getLast? = some 0x74 := by rw [hpre]; simp
  rw [heq] at hlast
  exact absurd hlast (by decide)

/-- The loop numbers the parquet files by their position among the parquet entries. -/
theorem scanEntries_eq_enumFrom (fileId : Nat) (es : List (Option OsEntry)) :
    scanEntries fileId es = (parquetNames es).enumFrom fileId := by
  induction es generalizing fileId with
  | nil => rfl
  | cons e es ih =>
    cases e with
    | none => simpa [scanEntries, parquetNames] using ih fileId
    | some e =>
      by_cases he : e.isParquet
      · simp [scanEntries, parquetNames, he, ih]
      · simpa [scanEntries, parquetNames, he] using ih fileId

/-- `parquet_files: HashMap<fileid3, String>`, as its entries in insertion order. Its keys
are distinct, as a map's are. -/
structure ParquetMap where
  /-- The entries, in insertion order. -/
  entries : List (Nat × Str)
  /-- No key occurs twice. -/
  keys_nodup : (entries.map Prod.fst).Nodup

/-- The map `HashMap::new()` starts as, and `clear()` leaves. -/
def ParquetMap.empty : ParquetMap := ⟨[], List.nodup_nil⟩

/-- `HashMap::get`. -/
def ParquetMap.get (m : ParquetMap) (id : Nat) : Option Str := m.entries.lookup id

/-- A map's `get` finds each of its entries, its keys being distinct. -/
theorem ParquetMap.get_of_mem {m : ParquetMap} {i : Nat} {x : Str} (h : (i, x) ∈ m.entries) :
    m.get i = some x := by
  obtain ⟨l, hnd⟩ := m
  simp only [ParquetMap.get] at h ⊢
  induction l with
  | nil => cases h
  | cons q l ih =>
    obtain ⟨j, y⟩ := q
    simp only [List.map_cons, List.nodup_cons] at hnd
    rcases List.mem_cons.mp h with hq | h'
    · simp_all
    · have hij : i ≠ j := fun e => hnd.1 (e ▸ List.mem_map_of_mem Prod.fst h')
      simp [List.lookup_cons, beq_false_of_ne hij, ih hnd.2 h']

/-- `refresh_parquet_files`: the map after the refresh, and its result. -/
def refreshParquetFiles (listing : Listing) : ParquetMap × Except Nfsstat3 Unit :=
  match listing with
  | none => (.empty, .error .io)
  | some es =>
    (⟨scanEntries parquetFileIdStart es, by
        simpa [scanEntries_eq_enumFrom] using List.nodup_range' _ _⟩, .ok ())

/-- The order in which `HashMap::iter` yields a map's entries: a permutation of them that
the hasher and the map's history fix and the code does not choose. -/
structure HashOrder where
  /-- The entries in iteration order. -/
  arrange : List (Nat × Str) → List (Nat × Str)
  /-- Iteration yields every entry once. -/
  perm : ∀ l, (arrange l).Perm l

/-- `HashMap::iter`. -/
def ParquetMap.iter (ord : HashOrder) (m : ParquetMap) : List (Nat × Str) :=
  ord.arrange m.entries

/-- `std::fs::metadata(base_path.join(path)).map(|m| m.len())`: the length of the
directory's entry whose name has the bytes of `path`. -/
def metadataLen (dir : List OsEntry) (path : Str) : Option Nat :=
  (dir.find? fun e => e.name = path.bytes).map OsEntry.len

/-- After a refresh, the map holds the parquet entries of the listing numbered from 100,
or nothing when `read_dir` failed. -/
theorem refreshParquetFiles_entries (listing : Listing) :
    (refreshParquetFiles listing).1.entries =
      match listing with
      | none => []
      | some es => (parquetNames es).enumFrom parquetFileIdStart := by
  cases listing <;> simp [refreshParquetFiles, ParquetMap.empty, scanEntries_eq_enumFrom]

/-- Every id of a refreshed map is at least 100. -/
theorem le_of_mem_refreshParquetFiles {listing : Listing} {p : Nat × Str}
    (h : p ∈ (refreshParquetFiles listing).1.entries) : parquetFileIdStart ≤ p.1 := by
  rw [refreshParquetFiles_entries] at h
  cases listing with
  | none => cases h
  | some es => exact List.le_fst_of_mem_enumFrom h

/-- Iterating the refreshed map yields the numbered parquet names, in some order. -/
theorem iter_refreshParquetFiles (es : List (Option OsEntry)) (ord : HashOrder) :
    ((refreshParquetFiles (some es)).1.iter ord).Perm
      ((parquetNames es).enumFrom parquetFileIdStart) :=
  (ord.perm _).trans (List.Perm.of_eq (refreshParquetFiles_entries (some es)))

/-- Looking an id up in a numbered list finds the name at the id's position. -/
theorem lookup_enumFrom (n : Nat) (l : List Str) (i : Nat) :
    (l.enumFrom n).lookup i = if n ≤ i then l[i - n]? else none := by
  induction l generalizing n with
  | nil => split <;> simp
  | cons x l ih =>
    rw [List.enumFrom_cons, List.lookup_cons, ih]
    by_cases hi : i = n
    · subst hi; simp
    · have hne : (i == n) = false := by simpa using hi
      rw [hne]
      by_cases hn : n + 1 ≤ i
      · rw [if_pos hn, if_pos (by omega), show i - n = (i - (n + 1)) + 1 by omega]
        simp
      · rw [if_neg hn, if_neg (by omega)]

/-- After a refresh, the id `i` names the parquet entry at position `i - 100` of the
listing. -/
theorem refreshParquetFiles_get (listing : Listing) (i : Nat) :
    (refreshParquetFiles listing).1.get i =
      match listing with
      | none => none
      | some es => if parquetFileIdStart ≤ i then (parquetNames es)[i - parquetFileIdStart]?
          else none := by
  cases listing <;> simp [ParquetMap.get, refreshParquetFiles_entries, lookup_enumFrom]

/-- An id keeps naming its file across a refresh whose listing yields the parquet files up
to it as the first one did. -/
theorem refreshParquetFiles_get_of_prefix {es1 es2 : List (Option OsEntry)} {i : Nat} {f : Str}
    (h1 : (refreshParquetFiles (some es1)).1.get i = some f)
    (hhead : (parquetNames es1).take (i + 1 - parquetFileIdStart) <+: parquetNames es2) :
    (refreshParquetFiles (some es2)).1.get i = some f := by
  simp only [refreshParquetFiles_get] at h1 ⊢
  split_ifs at h1 with hi
  have hlt := (List.getElem?_eq_some_iff.mp h1).1
  obtain ⟨rest, hrest⟩ := hhead
  rw [if_pos hi, ← hrest, List.getElem?_append_left (by simp only [List.length_take]; omega),
    List.getElem?_take_of_lt (by omega), h1]

/-- `read_dir` on directory `d`: it fails, or it yields every entry of `d` once, in some
order, each one read or failing. -/
def Enumerates (d : List OsEntry) (listing : Listing) : Prop :=
  ∀ es, listing = some es →
    ∃ order, order.Perm d ∧ List.Forall₂ (fun o e => o = none ∨ o = some e) es order

/-- A regular file `a.parquet`. -/
def sampleA : OsEntry := ⟨ascii "a.parquet", true, 10, by decide, by decide⟩

/-- A regular file `b.parquet`. -/
def sampleB : OsEntry := ⟨ascii "b.parquet", true, 20, by decide, by decide⟩

/-- Ids are positions: when a file is added to the directory and enumerated first, the
id 100 that named `b.parquet` after the first refresh names `a.parquet` after the second,
although `b.parquet` is still there. -/
theorem fileid_moves_when_file_added :
    Enumerates [sampleB] (some [some sampleB]) ∧
      Enumerates [sampleA, sampleB] (some [some sampleA, some sampleB]) ∧
      (refreshParquetFiles (some [some sampleB])).1.get 100 = some (fromUtf8Lossy sampleB.name) ∧
      (refreshParquetFiles (some [some sampleA, some sampleB])).1.get 100 =
        some (fromUtf8Lossy sampleA.name) ∧
      fromUtf8Lossy sampleA.name ≠ fromUtf8Lossy sampleB.name := by
  refine ⟨?_, ?_, by decide, by decide, by decide⟩ <;>
  · rintro es ⟨⟩
    exact ⟨_, List.Perm.refl _, by simp⟩

/-- A refresh whose `read_dir` fails leaves the map empty, so no id names a file. A file keeps
its id across two refreshes when `read_dir` succeeds the second time and yields the parquet
files up to it as the first time did; no other id names it when the parquet names of the
second listing stay distinct through the lossy conversion. -/
theorem refreshParquetFiles_id_stable {es1 es2 : List (Option OsEntry)} {i : Nat} {f : Str}
    (h1 : (refreshParquetFiles (some es1)).1.get i = some f)
    (hhead : (parquetNames es1).take (i + 1 - parquetFileIdStart) <+: parquetNames es2) :
    (∀ j, (refreshParquetFiles none).1.get j = none) ∧
      (refreshParquetFiles (some es2)).1.get i = some f ∧
      ((parquetNames es2).Nodup →
        ∀ j, (refreshParquetFiles (some es2)).1.get j = some f → j = i) := by
  have hsame := refreshParquetFiles_get_of_prefix h1 hhead
  refine ⟨fun _ => rfl, hsame, fun hnodup j hj => ?_⟩
  simp only [refreshParquetFiles_get] at hsame hj
  split_ifs at hsame hj
  have := List.getElem?_inj (List.getElem?_eq_some_iff.mp hsame).1 hnodup (hsame.trans hj.symm)
  omega

/-- A listing that gains a file after `b.parquet` keeps `b.parquet` under id 100. -/
theorem refreshParquetFiles_id_stable_sample :
    (refreshParquetFiles (some [some sampleB])).1.get 100 = some (fromUtf8Lossy sampleB.name) ∧
      (parquetNames [some sampleB]).take (100 + 1 - parquetFileIdStart) <+:
        parquetNames [some sampleB, some sampleA] ∧
      (∀ j, (refreshParquetFiles none).1.get j = none) ∧
      (refreshParquetFiles (some [some sampleB, some sampleA])).1.get 100 =
        some (fromUtf8Lossy sampleB.name) ∧
      ((parquetNames [some sampleB, some sampleA]).Nodup →
        ∀ j, (refreshParquetFiles (some [some sampleB, some sampleA])).1.get j =
          some (fromUtf8Lossy sampleB.name) → j = 100) := by
  have h1 : (refreshParquetFiles (some [some sampleB])).1.get 100 =
      some (fromUtf8Lossy sampleB.name) := by decide
  have hhead : (parquetNames [some sampleB]).take (100 + 1 - parquetFileIdStart) <+:
      parquetNames [some sampleB, some sampleA] := ⟨[fromUtf8Lossy sampleA.name], by decide⟩
  exact ⟨h1, hhead, refreshParquetFiles_id_stable h1 hhead⟩

end Fsdb.Nfs
