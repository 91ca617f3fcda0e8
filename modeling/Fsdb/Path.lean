import Fsdb.Utf8

/-!
# Paths

The parts of `std::path` that `server.rs` applies to names: `Path::extension` in
`refresh_parquet_files`, and `Path::file_name` in `lookup` and `readdir`. A path is a
byte string whose components are separated by `/`.
-/

namespace Fsdb.Path

/-- The byte `/`. -/
def slash : UInt8 := 0x2F

/-- The byte `.`. -/
def dot : UInt8 := 0x2E

/-- `Path::components` of a relative path: the pieces between slashes, without empty
pieces and without `.`, which names the current directory. -/
def components (p : List UInt8) : List (List UInt8) :=
  (p.splitOn slash).filter fun c => c ≠ [] ∧ c ≠ [dot]

/-- `Path::file_name`: the last component, unless it is `..`. -/
def fileName (p : List UInt8) : Option (List UInt8) :=
  match (components p).getLast? with
  | some c => if c = [dot, dot] then none else some c
  | none => none

/-- The expression `Path::new(path).file_name().and_then(|n| n.to_str()).unwrap_or(path)`
of `lookup` and `readdir`. -/
def basename (p : Str) : Str :=
  match fileName p.bytes with
  | some n => if h : Utf8.Valid n then ⟨n, h⟩ else p
  | none => p

/-- `rsplitn(2, '.')` on a file name: the bytes before its last dot and the bytes after. -/
def splitLastDot (name : List UInt8) : Option (List UInt8 × List UInt8) :=
  match name.reverse.dropWhile (· != dot) with
  | [] => none
  | _ :: revBefore => some (revBefore.reverse, (name.reverse.takeWhile (· != dot)).reverse)

/-- `Path::extension` of a path whose file name is `name`: the bytes after the last dot,
unless the name is `..`, has no dot, or has its only dot in front. -/
def extension (name : List UInt8) : Option (List UInt8) :=
  if name = [dot, dot] then none
  else
    match splitLastDot name with
    | some (before, after) => if before = [] then none else some after
    | none => none

/-- `OsStr::to_str`: the bytes as a string slice when they are valid UTF-8. -/
def toStr (bs : List UInt8) : Option (List UInt8) :=
  if Utf8.Valid bs then some bs else none

/-- A name without a slash is its own base name, whatever it is: `file_name` returns it,
or returns nothing for `.`, `..` and the empty name, and then `unwrap_or` gives it back. -/
theorem basename_of_slash_not_mem {p : Str} (h : slash ∉ p.bytes) : basename p = p := by
  have hsplit : p.bytes.splitOn slash = [p.bytes] :=
    List.splitOnP_eq_single _ _ fun x hx hsx => h (by simpa using (beq_iff_eq.mp hsx) ▸ hx)
  unfold basename fileName components
  rw [hsplit]
  by_cases hc : p.bytes ≠ [] ∧ p.bytes ≠ [dot]
  · by_cases hdd : p.bytes = [dot, dot]
    · simp [hc, hdd]
    · simp [hc, hdd, p.valid]
  · simp [hc]

/-- Splitting at the last dot leaves the dot between the two parts. -/
theorem splitLastDot_eq {name before after : List UInt8}
    (h : splitLastDot name = some (before, after)) : name = before ++ dot :: after := by
  unfold splitLastDot at h
  split at h
  · cases h
  · rename_i d revBefore hdrop
    cases h
    have hd : d = dot := by
      have := List.head?_dropWhile_not (· != dot) name.reverse
      rw [hdrop] at this
      simpa using this
    have hsplit := List.takeWhile_append_dropWhile (· != dot) name.reverse
    rw [hdrop, hd] at hsplit
    apply List.reverse_injective
    simpa using hsplit.symm

/-- A file name whose extension is `after` ends with the bytes of `after`. -/
theorem extension_suffix {name after : List UInt8} (h : extension name = some after) :
    ∃ before, name = before ++ dot :: after := by
  unfold extension at h
  split_ifs at h
  split at h
  · split_ifs at h
    cases h
    exact ⟨_, splitLastDot_eq ‹_›⟩
  · cases h

end Fsdb.Path
