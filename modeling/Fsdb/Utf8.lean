import Mathlib.Data.List.Basic

/-!
# UTF-8 and lossy conversion

`server.rs` turns bytes into Rust strings in two places: `lookup` and `remove` read the
requested name with `String::from_utf8_lossy`, and `refresh_parquet_files` reads each
directory entry's name with `OsStr::to_string_lossy`, which on Unix is the same conversion.
Both scan the bytes as UTF-8 and write U+FFFD in place of each maximal invalid subsequence
(Unicode Table 3-7). A Rust `String` is modelled as its UTF-8 bytes, valid by construction.
-/

namespace Fsdb.Utf8

/-- The three bytes of U+FFFD, written in place of each invalid subsequence. -/
def replacement : List UInt8 := [0xEF, 0xBF, 0xBD]

/-- The ranges a continuation byte may lie in (Unicode Table 3-7). -/
inductive Range where
  /-- `80..BF`, for every continuation byte but some second ones. -/
  | tail
  /-- `A0..BF`, after `E0`. -/
  | afterE0
  /-- `80..9F`, after `ED`. -/
  | afterED
  /-- `90..BF`, after `F0`. -/
  | afterF0
  /-- `80..8F`, after `F4`. -/
  | afterF4
  deriving DecidableEq

/-- The least byte of a range. -/
def Range.lo : Range → UInt8
  | .tail => 0x80
  | .afterE0 => 0xA0
  | .afterED => 0x80
  | .afterF0 => 0x90
  | .afterF4 => 0x80

/-- The greatest byte of a range. -/
def Range.hi : Range → UInt8
  | .tail => 0xBF
  | .afterE0 => 0xBF
  | .afterED => 0x9F
  | .afterF0 => 0xBF
  | .afterF4 => 0x8F

/-- No continuation byte is ASCII. -/
theorem Range.ascii_lt_lo (r : Range) {b : UInt8} (hb : b ≤ 0x7F) : b < r.lo := by
  have : (0x7F : UInt8) < r.lo := by cases r <;> decide
  simp only [UInt8.le_def, UInt8.lt_def, BitVec.le_def, BitVec.lt_def] at *
  omega

/-- Where the scanner stands between two bytes. -/
inductive State where
  /-- Between characters. -/
  | start
  /-- Inside a character: the bytes read of it, the continuation bytes owed after the
  next one, and the range the next byte must lie in. -/
  | inside (read : List UInt8) (more : Nat) (range : Range)
  deriving DecidableEq

/-- What the scanner produces from some input: the bytes written out, whether an
invalid subsequence was replaced, and the state it ends in. -/
structure Scan where
  /-- The bytes written out. -/
  out : List UInt8
  /-- Whether some subsequence was replaced by U+FFFD. -/
  bad : Bool
  /-- The state after the input. -/
  next : State
  deriving DecidableEq

/-- Unicode Table 3-7: the continuation bytes that follow a first byte and the range of
the first of them, or none when the byte begins no well-formed sequence. -/
def lead (b : UInt8) : Option (Nat × Range) :=
  if b ≤ 0x7F then some (0, .tail)
  else if b < 0xC2 then none
  else if b ≤ 0xDF then some (1, .tail)
  else if b = 0xE0 then some (2, .afterE0)
  else if b = 0xED then some (2, .afterED)
  else if b ≤ 0xEF then some (2, .tail)
  else if b = 0xF0 then some (3, .afterF0)
  else if b ≤ 0xF3 then some (3, .tail)
  else if b = 0xF4 then some (3, .afterF4)
  else none

/-- A byte read between characters. -/
def begin (b : UInt8) : Scan :=
  match lead b with
  | none => ⟨replacement, true, .start⟩
  | some (0, _) => ⟨[b], false, .start⟩
  | some (more + 1, range) => ⟨[], false, .inside [b] more range⟩

/-- One byte. Inside a character, a byte out of range closes the bytes read so far as one
invalid subsequence and is then read again between characters. -/
def feed : State → UInt8 → Scan
  | .start, b => begin b
  | .inside read more range, b =>
    if range.lo ≤ b ∧ b ≤ range.hi then
      match more with
      | 0 => ⟨read ++ [b], false, .start⟩
      | more + 1 => ⟨[], false, .inside (read ++ [b]) more .tail⟩
    else ⟨replacement ++ (begin b).out, true, (begin b).next⟩

/-- The scanner run over a byte string. -/
def scan : State → List UInt8 → Scan
  | s, [] => ⟨[], false, s⟩
  | s, b :: bs =>
    let r := scan (feed s b).next bs
    ⟨(feed s b).out ++ r.out, (feed s b).bad || r.bad, r.next⟩

/-- Valid UTF-8: scanning from the start writes every byte out unchanged, replaces
nothing, and ends between characters. -/
def Valid (bs : List UInt8) : Prop := scan .start bs = ⟨bs, false, .start⟩

instance (bs : List UInt8) : Decidable (Valid bs) := inferInstanceAs (Decidable (_ = _))

/-- `String::from_utf8_lossy` on the bytes: the scanner's output, and one U+FFFD for an
incomplete character at the end. -/
def lossy (bs : List UInt8) : List UInt8 :=
  (scan .start bs).out ++
    match (scan .start bs).next with
    | .start => []
    | .inside .. => replacement

@[simp] theorem scan_nil (s : State) : scan s [] = ⟨[], false, s⟩ := rfl

/-- Scanning a concatenation scans the second part from where the first one stopped. -/
theorem scan_append (s : State) (xs ys : List UInt8) :
    scan s (xs ++ ys) =
      ⟨(scan s xs).out ++ (scan (scan s xs).next ys).out,
        (scan s xs).bad || (scan (scan s xs).next ys).bad, (scan (scan s xs).next ys).next⟩ := by
  induction xs generalizing s with
  | nil => simp
  | cons b xs ih => simp [scan, ih, List.append_assoc, Bool.or_assoc]

theorem valid_append {xs ys : List UInt8} (hx : Valid xs) (hy : Valid ys) :
    Valid (xs ++ ys) := by
  unfold Valid at *
  rw [scan_append, hx]
  simp [hy]

theorem valid_replacement : Valid replacement := by decide

/-- The bytes a state has read of an unfinished character. -/
def State.held : State → List UInt8
  | .start => []
  | .inside read .. => read

/-- A state the scanner reaches from the start by reading exactly its held bytes,
writing nothing and replacing nothing. -/
def Reached (s : State) : Prop := scan .start s.held = ⟨[], false, s⟩

theorem reached_start : Reached .start := rfl

/-- Between characters, the scanner writes valid UTF-8 and moves to a reached state. -/
theorem begin_reached (b : UInt8) : Reached (begin b).next ∧ Valid (begin b).out := by
  unfold begin
  split
  · exact ⟨reached_start, valid_replacement⟩
  · rename_i h
    refine ⟨reached_start, ?_⟩
    simp only [Valid, scan, feed, begin, h]
    rfl
  · rename_i more range h
    refine ⟨?_, rfl⟩
    simp only [Reached, State.held, scan, feed, begin, h]
    rfl

/-- From a reached state one byte writes valid UTF-8 and leads to a reached state. -/
theorem feed_reached {s : State} (hs : Reached s) (b : UInt8) :
    Reached (feed s b).next ∧ Valid (feed s b).out := by
  cases s with
  | start => exact begin_reached b
  | inside read more range =>
    have hstep : scan .start (read ++ [b]) = scan (.inside read more range) [b] := by
      rw [scan_append, show scan .start read = _ from hs]
      simp
    simp only [feed]
    split
    · rename_i hin
      cases more with
      | zero =>
        refine ⟨reached_start, ?_⟩
        simp [Valid, hstep, scan, feed, hin]
      | succ more =>
        refine ⟨?_, rfl⟩
        simp [Reached, State.held, hstep, scan, feed, hin]
    · exact ⟨(begin_reached b).1,
        valid_append valid_replacement (begin_reached b).2⟩

theorem scan_reached {s : State} (hs : Reached s) (bs : List UInt8) :
    Reached (scan s bs).next ∧ Valid (scan s bs).out := by
  induction bs generalizing s with
  | nil => exact ⟨hs, rfl⟩
  | cons b bs ih =>
    obtain ⟨hnext, hout⟩ := feed_reached hs b
    exact ⟨(ih hnext).1, valid_append hout (ih hnext).2⟩

/-- The lossy conversion always yields valid UTF-8. -/
theorem lossy_valid (bs : List UInt8) : Valid (lossy bs) := by
  apply valid_append (scan_reached reached_start bs).2
  split
  · rfl
  · exact valid_replacement

/-- On valid UTF-8 the lossy conversion is the identity. -/
theorem lossy_of_valid {bs : List UInt8} (h : Valid bs) : lossy bs = bs := by
  unfold lossy
  rw [h]
  simp

/-- A byte that is neither in the input nor part of U+FFFD is never written. -/
theorem feed_not_mem {c b : UInt8} {s : State} (hs : c ∉ s.held) (hb : c ≠ b)
    (hr : c ∉ replacement) : c ∉ (feed s b).out ∧ c ∉ (feed s b).next.held := by
  cases s with
  | start =>
    simp only [feed]
    unfold begin
    split <;> simp_all [State.held]
  | inside read more range =>
    simp only [feed]
    split
    · cases more <;> simp_all [State.held]
    · unfold begin
      split <;> simp_all [State.held]

theorem scan_not_mem {c : UInt8} {s : State} {bs : List UInt8} (hs : c ∉ s.held)
    (hbs : c ∉ bs) (hr : c ∉ replacement) :
    c ∉ (scan s bs).out ∧ c ∉ (scan s bs).next.held := by
  induction bs generalizing s with
  | nil => simpa using hs
  | cons b bs ih =>
    obtain ⟨hout, hheld⟩ := feed_not_mem hs (fun h => hbs (h ▸ List.mem_cons_self _ _)) hr
    obtain ⟨hout', hheld'⟩ := ih hheld (fun h => hbs (List.mem_cons_of_mem _ h))
    exact ⟨by simp [scan, hout, hout'], hheld'⟩

theorem not_mem_lossy {c : UInt8} {bs : List UInt8} (hbs : c ∉ bs) (hr : c ∉ replacement) :
    c ∉ lossy bs := by
  have h := (scan_not_mem (s := .start) (List.not_mem_nil c) hbs hr).1
  unfold lossy
  split <;> simp [h, hr]

/-- Between characters, a byte that is not replaced is written out or held. -/
theorem begin_conserve {b : UInt8} (h : (begin b).bad = false) :
    (begin b).out ++ (begin b).next.held = [b] := by
  unfold begin at h ⊢
  split <;> simp_all [State.held]

/-- A byte that replaces nothing is written out or held, after the bytes held before it. -/
theorem feed_conserve {s : State} {b : UInt8} (h : (feed s b).bad = false) :
    (feed s b).out ++ (feed s b).next.held = s.held ++ [b] := by
  cases s with
  | start => exact begin_conserve h
  | inside read more range =>
    simp only [feed] at h ⊢
    split_ifs at h ⊢
    · cases more <;> simp [State.held]

/-- A byte that closes an invalid subsequence writes U+FFFD, whose first byte is `EF`. -/
theorem feed_bad {s : State} {b : UInt8} (h : (feed s b).bad = true) : 0xEF ∈ (feed s b).out := by
  cases s with
  | start =>
    simp only [feed] at h ⊢
    unfold begin at h ⊢
    rcases hl : lead b with _ | ⟨_ | more, range⟩ <;> simp_all [replacement]
  | inside read more range =>
    simp only [feed] at h ⊢
    split_ifs at h ⊢
    · cases more <;> simp at h
    · simp [replacement]

/-- A scan that replaces nothing writes out its input, less the bytes it still holds. -/
theorem scan_conserve {s : State} {bs : List UInt8} (h : (scan s bs).bad = false) :
    (scan s bs).out ++ (scan s bs).next.held = s.held ++ bs := by
  induction bs generalizing s with
  | nil => simp
  | cons b bs ih =>
    simp only [scan, Bool.or_eq_false_iff] at h ⊢
    rw [List.append_assoc, ih h.2, ← List.append_assoc, feed_conserve h.1, List.append_assoc,
      List.singleton_append]

theorem scan_bad {s : State} {bs : List UInt8} (h : (scan s bs).bad = true) :
    0xEF ∈ (scan s bs).out := by
  induction bs generalizing s with
  | nil => simp at h
  | cons b bs ih =>
    simp only [scan, Bool.or_eq_true] at h ⊢
    rcases h with h | h
    · exact List.mem_append_left _ (feed_bad h)
    · exact List.mem_append_right _ (ih h)

/-- A lossy conversion without the byte `EF` replaced nothing: it is its input. -/
theorem lossy_eq_of_not_mem {bs : List UInt8} (h : 0xEF ∉ lossy bs) : lossy bs = bs := by
  unfold lossy at h ⊢
  have hbad : (scan .start bs).bad = false := by
    cases hb : (scan .start bs).bad
    · rfl
    · exact absurd (List.mem_append_left _ (scan_bad hb)) h
  have hcons := scan_conserve hbad
  cases hn : (scan .start bs).next with
  | start => simpa [hn, State.held] using hcons
  | inside read more range => simp [hn, replacement] at h

/-- An ASCII byte ends whatever character was open and is written out as itself. -/
theorem feed_ascii (s : State) {b : UInt8} (hb : b ≤ 0x7F) :
    (feed s b).next = .start ∧ ∃ pre, (feed s b).out = pre ++ [b] := by
  have hbegin : begin b = ⟨[b], false, .start⟩ := by simp [begin, lead, hb]
  cases s with
  | start => exact ⟨by simp [feed, hbegin], [], by simp [feed, hbegin]⟩
  | inside read more range =>
    have hout : ¬ (range.lo ≤ b ∧ b ≤ range.hi) := fun h =>
      absurd h.1 (UInt8.not_le.mpr (range.ascii_lt_lo hb))
    simp [feed, hout, hbegin]

/-- A name ending in an ASCII byte keeps that byte last through the lossy conversion. -/
theorem lossy_append_ascii (xs : List UInt8) {b : UInt8} (hb : b ≤ 0x7F) :
    ∃ pre, lossy (xs ++ [b]) = pre ++ [b] := by
  obtain ⟨hnext, pre, hout⟩ := feed_ascii (scan .start xs).next hb
  refine ⟨(scan .start xs).out ++ pre, ?_⟩
  simp [lossy, scan_append, scan, hnext, hout]

end Fsdb.Utf8

namespace Fsdb

/-- A Rust `String`, as its UTF-8 bytes. -/
@[ext] structure Str where
  /-- What `as_bytes` returns. -/
  bytes : List UInt8
  /-- A `String` holds valid UTF-8. -/
  valid : Utf8.Valid bytes
  deriving DecidableEq

/-- The bytes of an ASCII literal. -/
def ascii (s : String) : List UInt8 := s.toList.map fun c => c.toNat.toUInt8

/-- `String::from_utf8_lossy(bytes).to_string()`. -/
def fromUtf8Lossy (bs : List UInt8) : Str := ⟨Utf8.lossy bs, Utf8.lossy_valid bs⟩

/-- Reading the bytes of a `String` back with the lossy conversion gives the `String`. -/
@[simp] theorem fromUtf8Lossy_bytes (s : Str) : fromUtf8Lossy s.bytes = s := by
  cases s
  simp [fromUtf8Lossy, Utf8.lossy_of_valid, *]


/-- Only its own bytes convert to a `String` without the byte `EF`, U+FFFD's first. -/
theorem fromUtf8Lossy_eq_iff {bs : List UInt8} {s : Str} (hs : 0xEF ∉ s.bytes) :
    fromUtf8Lossy bs = s ↔ bs = s.bytes := by
  constructor
  · rintro rfl
    exact (Utf8.lossy_eq_of_not_mem hs).symm
  · rintro rfl
    exact fromUtf8Lossy_bytes s

end Fsdb
