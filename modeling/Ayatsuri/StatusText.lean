import Mathlib

/-! The bytes of a status file (`internal/persis/filedagrun/attempt.go`, `writer.go`): a status is appended
as a line to whatever the file ends in, and what follows the last line break is not read. `S` is the type
of the statuses. -/
namespace Ayatsuri.StatusText
open List

abbrev Bytes := List UInt8

def newline : UInt8 := 10

/-- The JSON encoding of statuses, without an indentation. -/
structure Codec (S : Type) where
  marshal : S → Bytes
  statusFromJSON : Bytes → Option S
  decode_encode : ∀ st, statusFromJSON (marshal st) = some st
  decode_nil : statusFromJSON [] = none
  one_line : ∀ st, newline ∉ marshal st

section
variable {S : Type} (codec : Codec S)

/-- One more byte for `readLineFrom`, with the status and the line so far. -/
def feed (read : Option S × Bytes) (c : UInt8) : Option S × Bytes :=
  if c = newline then (if read.2 = [] then read.1 else (codec.statusFromJSON read.2).or read.1, [])
  else (read.1, read.2++[c])

variable (content : Bytes)

def scan : Option S × Bytes := content.foldl (feed codec) (none, [])

/-- `parseStatusFileWithContext`, where `none` is the error of a file without a status. -/
def parse : Option S := (scan codec content).1

def write (st : S) : Bytes := content++(codec.marshal st++[newline])

/-- The file after `compactLocked`. -/
def compact : Bytes := (parse codec content).elim content (write codec [])

def tail : Bytes := content.rtakeWhile (· ≠ newline)

variable {codec}

lemma foldl_feed {text : Bytes} (h : newline ∉ text) (read : Option S × Bytes) :
    text.foldl (feed codec) read = (read.1, read.2++text) := by
  induction text generalizing read with
  | nil => simp
  | cons c text ih =>
    obtain ⟨hc, htext⟩ := not_or.mp (mem_cons.not.mp h)
    simp [feed, Ne.symm hc, ih htext]

lemma scan_snd : (scan codec content).2 = tail content := by
  induction content using List.reverseRecOn with
  | nil => rfl
  | append_singleton content c ih =>
    by_cases hc : c = newline
    · rw [tail, rtakeWhile_concat_neg _ _ _ (by simpa using hc)]
      simp [scan, feed, hc]
    · rw [tail, rtakeWhile_concat_pos _ _ _ (by simpa using hc), ← tail, ← ih]
      simp [scan, feed, hc]

lemma parse_write (st : S) : parse codec (write codec content st) =
    (codec.statusFromJSON (tail content++codec.marshal st)).or (parse codec content) := by
  rw [parse, scan, write, foldl_append, foldl_append, foldl_feed (codec.one_line st), ← scan, scan_snd]
  simp only [foldl_cons, foldl_nil, feed, if_true]
  split_ifs with hnil
  · simp [hnil, codec.decode_nil, parse]
  · rfl

variable (codec)

/-- A status is read back, before and after the compaction of `Close`, where the end of the file is the start
of a line or together with the status still makes one. -/
theorem read_after_write_iff (content : Bytes) (st : S) :
    (parse codec (write codec content st) = some st ∧ parse codec (compact codec (write codec content st)) = some st) ↔
      tail content = [] ∨ codec.statusFromJSON (tail content++codec.marshal st) = some st ∨
        codec.statusFromJSON (tail content++codec.marshal st) = none ∧ parse codec content = some st := by
  have hcompact (h : parse codec (write codec content st) = some st) :
      parse codec (compact codec (write codec content st)) = some st := by
    rw [compact, h]
    exact (parse_write [] st).trans (by simp [tail, codec.decode_encode])
  rw [and_iff_left_of_imp hcompact, parse_write, Option.or_eq_some_iff]
  refine ⟨.inr, fun h => h.elim (fun hnil => .inl ?_) id⟩
  rw [hnil, nil_append, codec.decode_encode]

end

/-- The statuses `[0]` and `[1]`. -/
def sample : Codec Bool where
  marshal st := [91, if st then 49 else 48, 93]
  statusFromJSON text := if text = [91, 49, 93] then some true else if text = [91, 48, 93] then some false else none
  decode_encode := by decide
  decode_nil := by decide
  one_line := by decide

/-- The status is appended to a line that a crash has cut off, and the one before it is read and kept. -/
theorem torn_line_hides_status : parse sample (write sample [91, 48, 93, newline, 91] true) = some false ∧
    compact sample (write sample [91, 48, 93, newline, 91] true) = [91, 48, 93, newline] := by decide

end Ayatsuri.StatusText
