import Mathlib

/-! References to a part of a step's output such as `.stdout:0:5` (`internal/cmn/eval/resolve_step.go`). Integers
are 64 bits wide; a value is the list of its runes. -/
namespace Ayatsuri.StepSlices

structure StepSliceSpec where
  hasStart : Bool := false
  start : ℤ := 0
  hasLength : Bool := false
  length : ℤ := 0
  deriving DecidableEq

variable (text : List Char)

def digits : ℤ := text.foldl (fun n c => 10*n+(c.toNat-48 : ℤ)) 0

/-- `strconv.Atoi`; `none` is a text that is no number or out of range. -/
def atoi : Option ℤ :=
  let body := if text.head? ∈ [some '+', some '-'] then text.tail else text
  let n := if text.head? = some '-' then -digits body else digits body
  if body ≠ [] ∧ body.all Char.isDigit ∧ -2^63 ≤ n ∧ n < 2^63 then some n else none

/-- A number of the slice, under the name it has in the messages. -/
def parseBound (name : String) (text : List Char) : Except String ℤ :=
  match atoi text with
  | none => .error ("invalid slice "++name)
  | some n => if n < 0 then .error ("slice "++name++" must be non-negative") else .ok n

def parseStepReference (path : List Char) : Except String (List Char × StepSliceSpec) :=
  match path.splitOn ':' with
  | [] | [_] => .ok (path, {})
  | [_, []] => .error "slice specification missing values"
  | _::_::_::_::_ => .error "too many slice sections"
  | _::[]::_ => .error "slice offset is required"
  | property::start::rest => do
    let start ← parseBound "offset" start
    match rest with
    | [] | []::_ => return (property, {hasStart := true, start})
    | length::_ =>
      let length ← parseBound "length" length
      return (property, ⟨true, start, true, length⟩)

variable (runes : List Char)

/-- The runes from `first` on and before `last`, where `none` is a panic. -/
def slice (first last : ℤ) : Option (List Char) :=
  if 0 ≤ first ∧ first ≤ last ∧ last ≤ runes.length then some ((runes.take last.toNat).drop first.toNat) else none

def applyStepSlice (spec : StepSliceSpec) : Option (List Char) :=
  if !spec.hasStart then some runes
  else if runes.length ≤ spec.start then some []
  else slice runes spec.start
    (if spec.hasLength then min (Int.bmod (spec.start+spec.length) (2^64)) runes.length else runes.length)

/-- What the slice stands for. -/
def StepSliceSpec.part (spec : StepSliceSpec) (runes : List Char) : List Char :=
  let rest := runes.drop spec.start.toNat
  if spec.hasLength then rest.take spec.length.toNat else rest

lemma parseBound_ok {name text} {n : ℤ} (h : parseBound name text = .ok n) : 0 ≤ n ∧ n < 2^63 := by
  unfold parseBound atoi at h
  grind

lemma parseStepReference_ok {path property} {spec : StepSliceSpec} (h : parseStepReference path = .ok (property, spec)) :
    (0 ≤ spec.start ∧ spec.start < 2^63) ∧ 0 ≤ spec.length ∧ spec.length < 2^63 := by
  unfold parseStepReference at h
  split at h
  · cases h
    norm_num
  · cases h
    norm_num
  · cases h
  · cases h
  · cases h
  · next start rest _ _ _ _ =>
    cases hstart : parseBound "offset" start with
    | error e => simp [hstart, bind, Except.bind] at h
    | ok n =>
      simp only [hstart, bind, Except.bind] at h
      split at h
      · cases h
        exact ⟨parseBound_ok hstart, by norm_num⟩
      · cases h
        exact ⟨parseBound_ok hstart, by norm_num⟩
      next length _ _ _ _ _ =>
      cases hlength : parseBound "length" length with
      | error e => simp [hlength] at h
      | ok k =>
        rw [hlength] at h
        cases h
        exact ⟨parseBound_ok hstart, parseBound_ok hlength⟩

/-- Adding the length to the start overflows exactly if the sum takes more than 63 bits. -/
theorem applyStepSlice_iff {path property : List Char} {spec : StepSliceSpec}
    (h : parseStepReference path = .ok (property, spec)) (hslice : spec.hasStart) (runes : List Char) :
    applyStepSlice runes spec = some (spec.part runes) ↔
      runes.length ≤ spec.start ∨ spec.hasLength = false ∨ spec.start+spec.length < 2^63 := by
  obtain ⟨⟨hstart, hstart'⟩, hlength, hlength'⟩ := parseStepReference_ok h
  unfold applyStepSlice StepSliceSpec.part
  by_cases hbeyond : runes.length ≤ spec.start
  · have hrest : runes.drop spec.start.toNat = [] := List.drop_eq_nil_of_le (by omega)
    simp [hslice, hbeyond, hrest]
  by_cases hlimit : spec.hasLength
  · have hsum : Int.bmod (spec.start+spec.length) (2^64) =
        if spec.start+spec.length < 2^63 then spec.start+spec.length else spec.start+spec.length-2^64 := by
      split_ifs
      · exact Int.bmod_eq_of_le (by omega) (by omega)
      · rw [Int.bmod_def]
        omega
    simp only [hslice, hbeyond, hlimit, slice, hsum, Bool.not_true, Bool.false_eq_true, if_false,
      if_true, false_or, Bool.true_eq_false]
    by_cases hfits : spec.start+spec.length < 2^63
    · rw [if_pos hfits, if_pos ⟨hstart, by omega, by omega⟩, List.drop_take]
      refine iff_of_true (congrArg some (List.take_eq_take_iff.mpr ?_)) hfits
      rw [List.length_drop]
      omega
    · rw [if_neg hfits, if_neg (by omega)]
      exact iff_of_false (by simp) hfits
  · simp [hslice, hbeyond, hlimit, slice, hstart, not_le.mp hbeyond |>.le]

theorem applyStepSlice_two : parseStepReference ['x', ':', '1', ':', '2'] = .ok (['x'], ⟨true, 1, true, 2⟩) ∧
    applyStepSlice ['a', 'b', 'c', 'd'] ⟨true, 1, true, 2⟩ = some ['b', 'c'] := by
  have hparse : parseStepReference ['x', ':', '1', ':', '2'] = .ok (['x'], ⟨true, 1, true, 2⟩) := by decide
  exact ⟨hparse, (applyStepSlice_iff hparse rfl _).mpr (.inr (.inr (by norm_num)))⟩

/-- The greatest length makes the end of the slice negative. -/
theorem applyStepSlice_panics : parseStepReference
    ['x', ':', '1', ':', '9', '2', '2', '3', '3', '7', '2', '0', '3', '6', '8', '5', '4', '7', '7', '5', '8', '0', '7'] =
      .ok (['x'], ⟨true, 1, true, 2^63-1⟩) ∧ applyStepSlice ['a', 'b'] ⟨true, 1, true, 2^63-1⟩ = none := by decide

end Ayatsuri.StepSlices
