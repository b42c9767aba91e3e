import Mathlib

/-! Text that grows by appending and is read by lines. A piece is a record or the end of a line; a line
counts if it holds exactly one record, and what follows the last end of a line is not read. -/
namespace Ayatsuri.LineLog
variable {R : Type*}

def feed : List R × Option R → Option R → List R × Option R
  | (line, last), some record => (line++[record], last)
  | ([record], _), none => ([], some record)
  | (_, last), none => ([], last)

variable (text : List (Option R))

def scan : List R × Option R := text.foldl feed ([], none)

def parse : Option R := (scan text).2

variable {text : List (Option R)} {line : List R} {last : Option R}

lemma scan_append (text more : List (Option R)) : scan (text++more) = more.foldl feed (scan text) := by
  simp [scan, List.foldl_append]

lemma scan_record (h : scan text = (line, last)) (record : R) : scan (text++[some record]) = (line++[record], last) := by
  simp [scan_append, h, feed]

lemma scan_end {record : R} (h : scan text = ([record], last)) : scan (text++[none]) = ([], some record) := by
  simp [scan_append, h, feed]

lemma scan_line (h : scan text = ([], last)) (record : R) : scan (text++[some record, none]) = ([], some record) := by
  simp [scan_append, h, feed]

lemma scan_single (record : R) : scan [some record, none] = ([], some record) := rfl

lemma parse_of_scan (h : scan text = (line, last)) : parse text = last := by simp [parse, h]

end Ayatsuri.LineLog
