import Mathlib

/-! Text as bytes and ends of lines, which grows by appending in pieces of any size and is read by lines from
an offset on. -/
namespace Ayatsuri.ByteLines
open List
variable {B : Type*}

/-- A byte that does not end a line, or `none` for the end of a line. -/
abbrev Text (B : Type*) := List (Option B)

variable (seen : List (List B) × List B)

def feed : Option B → List (List B) × List B
  | some b => (seen.1, seen.2++[b])
  | none => (seen.1++[seen.2], [])

variable (text : Text B)

def split : List (List B) × List B := text.foldl feed ([], [])

def lines : List (List B) := (split text).1

def tokens : List (List B) :=
  match split text with
  | (lines, []) => lines
  | (lines, rest) => lines++[rest]

variable (bytes : List B)

def line : Text B := bytes.map some++[none]

def Whole : Prop := (split text).2 = []

instance [DecidableEq B] (text : Text B) : Decidable (Whole text) := inferInstanceAs (Decidable (_ = []))

lemma foldl_feed (text : Text B) (lines : List (List B)) :
    text.foldl feed (lines++seen.1, seen.2) = (lines++(text.foldl feed seen).1, (text.foldl feed seen).2) := by
  induction text generalizing seen with
  | nil => rfl
  | cons piece text ih =>
    cases piece with
    | some b => exact ih (seen.1, seen.2++[b])
    | none => simpa [feed] using ih (seen.1++[seen.2], [])

variable {text : Text B}

lemma split_append (h : Whole text) (more : Text B) :
    split (text++more) = (lines text++(split more).1, (split more).2) := by
  have hsplit : split text = (lines text, []) := Prod.ext rfl h
  have hfold := foldl_feed ([], []) more (lines text)
  rw [append_nil] at hfold
  rw [split, foldl_append]
  change more.foldl feed (split text) = _
  rw [hsplit]
  exact hfold

lemma lines_append (h : Whole text) (more : Text B) : lines (text++more) = lines text++lines more := by
  rw [lines, split_append h]
  rfl

variable {more : Text B}

lemma whole_append (h : Whole text) (hmore : Whole more) : Whole (text++more) := by
  rw [Whole, split_append h]
  exact hmore

lemma lines_subset_append (text more : Text B) : lines text ⊆ lines (text++more) := by
  have hfold := foldl_feed ([], (split text).2) more (lines text)
  rw [append_nil] at hfold
  intro bytes hbytes
  rw [lines, split, foldl_append]
  change bytes ∈ (more.foldl feed (lines text, (split text).2)).1
  rw [hfold]
  exact mem_append_left _ hbytes

lemma tokens_of_whole (h : Whole text) : tokens text = lines text := by
  have hsplit : split text = (lines text, []) := Prod.ext rfl h
  unfold tokens
  rw [hsplit]

@[simp] lemma whole_nil : Whole ([] : Text B) := rfl

@[simp] lemma lines_nil : lines ([] : Text B) = [] := rfl

lemma foldl_feed_bytes : (bytes.map some).foldl feed seen = (seen.1, seen.2++bytes) := by
  induction bytes generalizing seen with
  | nil => simp
  | cons b bytes ih => simp [feed, ih]

@[simp] lemma split_line : split (line bytes) = ([bytes], []) := by
  rw [split, line, foldl_append, foldl_feed_bytes]
  simp [feed]

lemma lines_flatMap {α : Type*} (l : List α) (f : α → List B) :
    Whole (l.flatMap fun a => line (f a)) ∧ lines (l.flatMap fun a => line (f a)) = l.map f := by
  induction l with
  | nil => exact ⟨rfl, rfl⟩
  | cons a l ih =>
    have hline : Whole (line (f a)) := by simp [Whole]
    rw [flatMap_cons]
    refine ⟨whole_append hline ih.1, ?_⟩
    rw [lines_append hline, ih.2]
    simp [lines]

end Ayatsuri.ByteLines
