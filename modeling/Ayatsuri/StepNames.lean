import Mathlib

/-! Names of the steps of a list (`internal/core/spec/builder.go`, `dag.go`) and the check that
they are distinct (`internal/core/validator.go`). A step is given as it is built from its raw
data; the fields are those that decide about its name. -/
namespace Ayatsuri.StepNames
open List

structure Step where
  (name id executorType : String)
  (container parallel subDAG : Bool)
  script : String
  commands : ℕ
  deriving DecidableEq

def typedPrefix (step : Step) : String :=
  if step.executorType ≠ "" then step.executorType
  else if step.container then "docker"
  else if step.parallel then "parallel"
  else if step.subDAG then "dag"
  else if step.script ≠ "" then "script"
  else if 0 < step.commands then "cmd"
  else "step"

variable (pre : String)

def typedName (counter : ℕ) : String := pre ++ "_" ++ counter.repr

/-- The search from `counter` on. Among one more number than there are names one is free, so the
fuel is enough. -/
def search (existingNames : List String) (pre : String) : ℕ → ℕ → String
  | 0, counter => typedName pre counter
  | k+1, counter =>
    if typedName pre counter ∈ existingNames then search existingNames pre k (counter+1)
    else typedName pre counter

def generateTypedStepName (existingNames : List String) (step : Step) (index : ℕ) : String :=
  search existingNames (typedPrefix step) existingNames.length (index+1)

def buildStepFromRaw (idx : ℕ) (step : Step) (names : List String) : Step :=
  if step.name = "" then
    if step.id ≠ "" then {step with name := step.id}
    else {step with name := generateTypedStepName names step idx}
  else step

/-- An element of the list of steps: a step, or a group that runs in parallel. -/
inductive Entry
  | single (step : Step)
  | group (steps : List Step)

def Entry.steps : Entry → List Step
  | .single step => [step]
  | .group steps => steps

variable (entries : List Entry)

/-- The steps in the order they are built, each with the index of its entry. -/
def indexed : List (ℕ × Step) := entries.zipIdx.flatMap fun e => e.1.steps.map (e.2, ·)

def buildFrom (names : List String) : List (ℕ × Step) → List Step
  | [] => []
  | (i, step)::rest =>
    let built := buildStepFromRaw i step names
    built::buildFrom (built.name::names) rest

def buildSteps : List Step := buildFrom [] (indexed entries)

/-- The names `collectNamesAndIDs` reports as duplicates. -/
def duplicateNames (stepNames : List String) : List Step → List String
  | [] => []
  | step::rest =>
    if step.name = "" then duplicateNames stepNames rest
    else if step.name ∈ stepNames then step.name::duplicateNames stepNames rest
    else duplicateNames (step.name::stepNames) rest

/-- The name or, without one, the ID. -/
def Step.label (step : Step) : Option String :=
  if step.name ≠ "" then some step.name else if step.id ≠ "" then some step.id else none

def labels (l : List (ℕ × Step)) : List String := l.filterMap (·.2.label)

/-! ### Generated names -/

/-- `n` is the first number from `start` on whose name is not taken. -/
structure FirstFree (taken : List String) (pre : String) (start n : ℕ) : Prop where
  start_le : start ≤ n
  free : typedName pre n ∉ taken
  first : ∀ m, start ≤ m → m < n → typedName pre m ∈ taken

variable {taken : List String}

lemma FirstFree.unique {pre} {start m n : ℕ} (hm : FirstFree taken pre start m)
    (hn : FirstFree taken pre start n) : m = n := by
  rcases lt_trichotomy m n with h | h | h
  · exact absurd (hn.first m hm.start_le h) hm.free
  · exact h
  · exact absurd (hm.first n hn.start_le h) hn.free

lemma typedName_injective : Function.Injective (typedName pre) := by
  intro m n h
  exact Nat.repr_inj.mp ((String.append_right_inj _).mp h)

lemma typedName_ne (n : ℕ) : typedName pre n ≠ "" := by simp [typedName]

/-- Where fewer names are taken than the fuel and the numbers tried say, the search finds the
first free number. -/
lemma search_spec {pre} {start k n : ℕ} (hle : start ≤ n)
    (htried : ∀ m, start ≤ m → m < n → typedName pre m ∈ taken) (hk : taken.length ≤ k+(n - start)) :
    ∃ m, FirstFree taken pre start m ∧ search taken pre k n = typedName pre m := by
  induction k generalizing n with
  | zero =>
    refine ⟨n, ⟨hle, fun hmem => ?_, htried⟩, rfl⟩
    -- one name more than there are is taken
    have hsub : (range' start (n+1 - start)).map (typedName pre) ⊆ taken := by
      intro x hx
      obtain ⟨m, hm, rfl⟩ := mem_map.mp hx
      rw [mem_range'_1] at hm
      rcases eq_or_lt_of_le (show m ≤ n by omega) with rfl | hlt
      · exact hmem
      · exact htried m hm.1 hlt
    have hnodup := (nodup_range' (s := start) (n := n+1 - start)).map (typedName_injective pre)
    have := (hnodup.subperm hsub).length_le
    rw [length_map, length_range'] at this
    omega
  | succ k ih =>
    unfold search
    split_ifs with hmem
    · refine ih (by omega) (fun m hm hlt => ?_) (by omega)
      rcases eq_or_lt_of_le (show m ≤ n by omega) with rfl | hlt
      · exact hmem
      · exact htried m hm hlt
    · exact ⟨n, ⟨hle, hmem, htried⟩, rfl⟩

lemma generateTypedStepName_spec (taken : List String) (step : Step) (index : ℕ) :
    ∃ n, FirstFree taken (typedPrefix step) (index+1) n ∧
      generateTypedStepName taken step index = typedName (typedPrefix step) n :=
  search_spec le_rfl (fun m hm hlt => absurd hlt (by omega)) (by omega)

lemma name_of_label {step : Step} {name} (h : step.label = some name) (i : ℕ) (taken : List String) :
    (buildStepFromRaw i step taken).name = name := by
  unfold Step.label at h
  unfold buildStepFromRaw
  split_ifs at h ⊢ <;> simp_all

lemma name_of_no_label {step : Step} (h : step.label = none) (i : ℕ) (taken : List String) :
    (buildStepFromRaw i step taken).name = generateTypedStepName taken step i := by
  unfold Step.label at h
  unfold buildStepFromRaw
  split_ifs at h ⊢
  simp_all

/-! ### Distinct names -/

/-- Each step without a name and an ID takes the first free number of its type, and no later step
brings the name so formed. -/
def Clear (taken : List String) : List (ℕ × Step) → Prop
  | [] => True
  | (i, step)::rest =>
    match step.label with
    | some name => Clear (name::taken) rest
    | none => ∀ n, FirstFree taken (typedPrefix step) (i+1) n →
      typedName (typedPrefix step) n ∉ labels rest ∧ Clear (typedName (typedPrefix step) n::taken) rest

def namesFrom (taken : List String) (l : List (ℕ × Step)) : List String := (buildFrom taken l).map Step.name

lemma labels_subset (taken : List String) (l : List (ℕ × Step)) : labels l ⊆ namesFrom taken l := by
  induction l generalizing taken with
  | nil => simp [labels]
  | cons e rest ih =>
    obtain ⟨i, step⟩ := e
    intro name hname
    simp only [namesFrom, buildFrom, map_cons, mem_cons]
    simp only [labels, filterMap_cons] at hname
    cases hl : step.label with
    | none =>
      simp only [hl] at hname
      exact .inr (ih _ hname)
    | some label =>
      simp only [hl, mem_cons] at hname
      rcases hname with rfl | hname
      · exact .inl (name_of_label hl i taken).symm
      · exact .inr (ih _ hname)

lemma distinct_iff_clear {l} (hnodup : (labels l).Nodup) (hdisj : ∀ name ∈ labels l, name ∉ taken) :
    (namesFrom taken l).Nodup ∧ (∀ name ∈ namesFrom taken l, name ∉ taken) ↔ Clear taken l := by
  induction l generalizing taken with
  | nil => simp [namesFrom, buildFrom, Clear]
  | cons e rest ih =>
    obtain ⟨i, step⟩ := e
    -- a name that is not taken only has to be kept out of the rest
    have hsplit : ∀ name, (buildStepFromRaw i step taken).name = name → name ∉ taken →
        ((namesFrom taken ((i, step)::rest)).Nodup ∧ (∀ x ∈ namesFrom taken ((i, step)::rest), x ∉ taken) ↔
          (namesFrom (name::taken) rest).Nodup ∧ ∀ x ∈ namesFrom (name::taken) rest, x ∉ name::taken) := by
      rintro name rfl hfree
      simp only [namesFrom, buildFrom, map_cons, nodup_cons, mem_cons, forall_eq_or_imp, not_or]
      grind
    cases hl : step.label with
    | some label =>
      simp only [labels, filterMap_cons, hl, nodup_cons, mem_cons, forall_eq_or_imp] at hnodup hdisj
      rw [hsplit label (name_of_label hl i taken) hdisj.1, ih hnodup.2 ?_]
      · simp [Clear, hl]
      intro name hname
      simp only [mem_cons, not_or]
      exact ⟨fun h => hnodup.1 (h ▸ hname), hdisj.2 name hname⟩
    | none =>
      simp only [labels, filterMap_cons, hl] at hnodup hdisj
      obtain ⟨n, hn, hgen⟩ := generateTypedStepName_spec taken step i
      have hname := (name_of_no_label hl i taken).trans hgen
      have hclear : Clear taken ((i, step)::rest) ↔ typedName (typedPrefix step) n ∉ labels rest ∧
          Clear (typedName (typedPrefix step) n::taken) rest := by
        simp only [Clear, hl]
        exact ⟨fun h => h n hn, fun h m hm => hm.unique hn ▸ h⟩
      have hrest : typedName (typedPrefix step) n ∉ labels rest →
          ∀ name ∈ labels rest, name ∉ typedName (typedPrefix step) n::taken := fun h name hname => by
        simp only [mem_cons, not_or]
        exact ⟨fun heq => h (heq ▸ hname), hdisj name hname⟩
      rw [hsplit _ hname hn.free, hclear]
      constructor
      · intro h
        have hlater : typedName (typedPrefix step) n ∉ labels rest := fun hmem =>
          h.2 _ (labels_subset _ rest hmem) mem_cons_self
        exact ⟨hlater, (ih hnodup (hrest hlater)).mp h⟩
      · rintro ⟨hlater, h⟩
        exact (ih hnodup (hrest hlater)).mpr h

lemma duplicateNames_eq_nil_iff {seen} {steps : List Step} (hne : ∀ s ∈ steps, s.name ≠ "") :
    duplicateNames seen steps = [] ↔ (steps.map Step.name).Nodup ∧ ∀ s ∈ steps, s.name ∉ seen := by
  induction steps generalizing seen with
  | nil => simp [duplicateNames]
  | cons step rest ih =>
    have hrest := fun s hs => hne s (mem_cons_of_mem _ hs)
    rw [duplicateNames, if_neg (hne step mem_cons_self)]
    split_ifs with hmem
    · simp [hmem]
    rw [ih hrest]
    simp only [map_cons, nodup_cons, mem_cons, forall_eq_or_imp, not_or, mem_map]
    grind

lemma name_ne (taken : List String) (l : List (ℕ × Step)) : ∀ s ∈ buildFrom taken l, s.name ≠ "" := by
  induction l generalizing taken with
  | nil => simp [buildFrom]
  | cons e rest ih =>
    obtain ⟨i, step⟩ := e
    simp only [buildFrom, mem_cons, forall_eq_or_imp]
    refine ⟨?_, ih _⟩
    cases hl : step.label with
    | some name =>
      rw [name_of_label hl]
      unfold Step.label at hl
      split_ifs at hl <;> simp_all
    | none =>
      obtain ⟨n, -, hgen⟩ := generateTypedStepName_spec taken step i
      rw [name_of_no_label hl, hgen]
      exact typedName_ne _ n

theorem buildSteps_distinct_iff {entries : List Entry} (h : (labels (indexed entries)).Nodup) :
    (((buildSteps entries).map Step.name).Nodup ∧ duplicateNames [] (buildSteps entries) = []) ↔
      Clear [] (indexed entries) := by
  rw [buildSteps, duplicateNames_eq_nil_iff (name_ne [] _), ← distinct_iff_clear h fun _ _ => not_mem_nil]
  simp [namesFrom]

def command : Step := ⟨"", "", "", false, false, false, "", 1⟩

theorem buildSteps_collision :
    (buildSteps [.single command, .single {command with name := "cmd_1"}]).map Step.name = ["cmd_1", "cmd_1"] ∧
      duplicateNames [] (buildSteps [.single command, .single {command with name := "cmd_1"}]) = ["cmd_1"] := by
  decide +kernel

theorem buildSteps_distinct_iff_two :
    (((buildSteps [.single {command with name := "cmd_2"}, .group [command, command]]).map Step.name).Nodup ∧
      duplicateNames [] (buildSteps [.single {command with name := "cmd_2"}, .group [command, command]]) = []) ↔
      Clear [] (indexed [.single {command with name := "cmd_2"}, .group [command, command]]) :=
  buildSteps_distinct_iff (by decide +kernel)

end Ayatsuri.StepNames
