import Mathlib

/-! A buffered writer, as in Go's `bufio`: a write that does not fit fills the buffer and passes it on, and a write
that is larger than the buffer is passed on as it is once the buffer is empty. A step is given by the writes that are
passed on and by what the buffer holds afterwards. -/
namespace Ayatsuri.BufferedWriter
variable {α : Type*}

def write (size : ℕ) (buffer p : List α) : List (List α) × List α :=
  let available := size - buffer.length
  if p.length ≤ available then ([], buffer++p)
  else if buffer.length = 0 then ([p], [])
  else if (p.drop available).length ≤ size then ([buffer++p.take available], p.drop available)
  else ([buffer++p.take available, p.drop available], [])

variable (buffer : List α)

def flush : List (List α) := if buffer.length = 0 then [] else [buffer]

lemma write_flatten (size : ℕ) (buffer p : List α) :
    (write size buffer p).1.flatten++(write size buffer p).2 = buffer++p := by
  dsimp only [write]
  by_cases hfits : p.length ≤ size - buffer.length
  · rw [if_pos hfits]
    rfl
  rw [if_neg hfits]
  by_cases hempty : buffer.length = 0
  · rw [if_pos hempty]
    simp [List.length_eq_zero_iff.mp hempty]
  rw [if_neg hempty]
  split_ifs <;> simp

lemma flush_flatten : (flush buffer).flatten = buffer := by
  unfold flush
  split_ifs with hempty
  · simp [List.length_eq_zero_iff.mp hempty]
  · simp

end Ayatsuri.BufferedWriter
