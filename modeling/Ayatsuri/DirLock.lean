import Ayatsuri.TransitionSystem

/-! The directory lock (`internal/cmn/dirlock/dirlock.go`): any number of instances lock one directory by
making a lock directory in it and writing a token into that, and take over a lock directory that is older
than the stale threshold. -/
namespace Ayatsuri.DirLock
open TransitionSystem List Option

/-- The lock directory and the token in its `owner` file. -/
structure LockDir where
  modTime : ℕ
  owner : Option ℕ
  deriving DecidableEq

/-- What `os.RemoveAll` is called for: a stale lock, a lock whose token could not be written, or `Unlock`. -/
inductive Removal
  | takeover | undo | release
  deriving DecidableEq

inductive Pc
  | idle
  /-- `TryLock`. -/
  | stat
  | isStaleInfo (modTime : ℕ)
  | mkdir | writeToken
  /-- `os.RemoveAll`: the token, and then the directory. -/
  | removeOwner (why : Removal)
  | removeDir (why : Removal)
  | unlock | heartbeat | chtimes | isHeldByMe
  deriving DecidableEq

structure Instance where
  isHeld : Bool
  fenceToken : ℕ
  pc : Pc
  /-- `TryLock` or `Lock` has returned nil and `Unlock` has not been called since. -/
  inside : Bool
  deriving DecidableEq

inductive Call
  | tryLock | unlock | heartbeat | isHeldByMe
  deriving DecidableEq

structure Answer where
  token : ℕ
  ok : Bool
  deriving DecidableEq

namespace Instance

def call (x : Instance) : Call → Instance
  | .tryLock => if x.isHeld then {x with inside := true} else {x with pc := .stat}
  | .unlock => if x.isHeld then {x with pc := .unlock, inside := false} else {x with inside := false}
  | .heartbeat => if x.isHeld then {x with pc := .heartbeat} else x
  | .isHeldByMe => if x.isHeld then {x with pc := .isHeldByMe} else x

def owns (dir : Option LockDir) (x : Instance) : Bool := dir.any fun d => d.owner = some x.fenceToken

/-- After `os.RemoveAll`. -/
def removed (x : Instance) : Removal → Instance
  | .takeover => {x with pc := .mkdir}
  | .undo => {x with pc := .idle}
  | .release => {x with pc := .idle, isHeld := false}

def act (threshold now : ℕ) (dir : Option LockDir) (a : Answer) (x : Instance) : Option (Option LockDir × Instance) :=
  match x.pc with
  | .idle => none
  | .stat =>
    match dir with
    | none => some (dir, {x with pc := .mkdir})
    | some d => some (dir, {x with pc := .isStaleInfo d.modTime})
  | .isStaleInfo modTime =>
    if threshold < now - modTime then some (dir, {x with pc := .removeOwner .takeover})
    else some (dir, {x with pc := .idle})
  | .mkdir =>
    if dir = none ∧ a.ok then some (some ⟨now, none⟩, {x with pc := .writeToken})
    else some (dir, {x with pc := .idle})
  | .writeToken =>
    match dir, a.ok with
    | some d, true => some (some ⟨if d.owner.isNone then now else d.modTime, some a.token⟩, ⟨true, a.token, .idle, true⟩)
    | _, _ => some (dir, {x with pc := .removeOwner .undo})
  | .removeOwner why =>
    if a.ok then
      match dir with
      | none => some (dir, x.removed why)
      | some d => some (some ⟨if d.owner.isSome then now else d.modTime, none⟩, {x with pc := .removeDir why})
    else some (dir, {x with pc := .idle})
  | .removeDir why =>
    match dir with
    | none => some (dir, x.removed why)
    | some d =>
      -- A directory that is not empty any more is listed again.
      if d.owner.isSome then some (dir, {x with pc := .removeOwner why})
      else if a.ok then some (none, x.removed why)
      else some (dir, {x with pc := .idle})
  | .unlock =>
    if x.owns dir then some (dir, {x with pc := .removeOwner .release})
    else some (dir, {x with pc := .idle, isHeld := false})
  | .heartbeat =>
    if x.owns dir then some (dir, {x with pc := .chtimes})
    else some (dir, {x with pc := .idle, isHeld := false})
  | .chtimes =>
    if a.ok then some (dir.map fun d => {d with modTime := now}, {x with pc := .idle})
    else some (dir, {x with pc := .idle})
  | .isHeldByMe =>
    if x.owns dir then some (dir, {x with pc := .idle})
    else some (dir, {x with pc := .idle, isHeld := false})

end Instance

structure State where
  now : ℕ
  dir : Option LockDir
  instances : List Instance
  tokens : List ℕ
  deriving DecidableEq

namespace State

inductive Label
  | tick
  | call (i : ℕ) (c : Call)
  | act (i : ℕ) (a : Answer)

variable (threshold : ℕ) (s : State)

def step : Label → Option State
  | .tick => some {s with now := s.now+1}
  | .call i c => do
    let x ← s.instances[i]?
    if x.pc = .idle then some {s with instances := s.instances.set i (x.call c)} else none
  | .act i a => do
    let x ← s.instances[i]?
    if x.pc = .writeToken then
      if a.token ∈ s.tokens then none
      else
        let next ← x.act threshold s.now s.dir a
        some ⟨s.now, next.1, s.instances.set i next.2, a.token::s.tokens⟩
    else
      let next ← x.act threshold s.now s.dir a
      some {s with dir := next.1, instances := s.instances.set i next.2}

def initial (n : ℕ) : State where
  now := 0
  dir := none
  instances := replicate n ⟨false, 0, .idle, false⟩
  tokens := []

def young : Label → Bool
  | .tick => s.dir.all fun d => s.now+1 - d.modTime ≤ threshold
  | _ => true

/-- An instance compares the modification time it has read with the clock before that time is older than the
threshold. -/
def prompt : Label → Bool
  | .act i _ =>
    match (s.instances[i]?).map Instance.pc with
    | some (.isStaleInfo modTime) => s.now - modTime ≤ threshold
    | _ => true
  | _ => true

/-- What `IsHeldByMe` would return. -/
def isHeldByMe (i : ℕ) : Bool := (s.instances[i]?).any fun x => x.isHeld && x.owns s.dir

def inside (s : State) (i : ℕ) : Bool := (s.instances[i]?).any Instance.inside

end State

open Instance

/-! ### One instance -/

namespace Instance
variable {threshold now : ℕ} {dir dir' : Option LockDir} {a : Answer} {x y z : Instance}

def claims (x : Instance) : Bool :=
  x.isHeld || x.inside || x.pc = .writeToken || x.pc = .removeOwner .undo || x.pc = .removeDir .undo

structure Knows (dir : Option LockDir) (x : Instance) : Prop where
  dir : x.claims → dir ≠ none
  pc : match x.pc with
    | .mkdir | .writeToken | .removeOwner .undo | .removeDir .undo => x.isHeld = false ∧ x.inside = false
    | .unlock | .removeOwner .release | .removeDir .release => x.isHeld ∧ x.inside = false
    | .removeOwner .takeover | .removeDir .takeover => False
    | .idle | .stat | .isStaleInfo _ | .heartbeat | .chtimes | .isHeldByMe => True

lemma Knows.call (h : x.Knows dir) (hidle : x.pc = .idle) (c : Call) :
    (x.call c).Knows dir ∧ ((x.call c).claims = true → x.claims = true) := by
  obtain ⟨hdir, -⟩ := h
  have hclaims : x.claims = (x.isHeld || x.inside) := by simp [claims, hidle]
  cases c with
  | tryLock =>
    simp only [Instance.call]
    split_ifs with hheld
    · have hc : x.claims := by simp [hclaims, hheld]
      exact ⟨⟨fun _ => hdir hc, by simp [hidle]⟩, fun _ => hc⟩
    · refine ⟨⟨fun hc => hdir ?_, trivial⟩, fun hc => ?_⟩
      all_goals simpa [claims, hidle] using hc
  | unlock =>
    simp only [Instance.call]
    split_ifs with hheld
    · have hc : x.claims := by simp [hclaims, hheld]
      exact ⟨⟨fun _ => hdir hc, hheld, rfl⟩, fun _ => hc⟩
    · have hc : ({x with inside := false} : Instance).claims = false := by simp [claims, hidle, hheld]
      exact ⟨⟨by simp [hc], by simp [hidle]⟩, by simp [hc]⟩
  | heartbeat | isHeldByMe =>
    simp only [Instance.call]
    split_ifs with hheld
    · have hc : x.claims := by simp [hclaims, hheld]
      exact ⟨⟨fun _ => hdir hc, trivial⟩, fun _ => hc⟩
    · exact ⟨⟨hdir, by simp [hidle]⟩, id⟩

lemma Knows.act (h : x.Knows dir) (hprompt : ∀ m, x.pc = .isStaleInfo m → now - m ≤ threshold)
    (hact : x.act threshold now dir a = some (dir', y)) : y.Knows dir' := by
  obtain ⟨hdir, hpc⟩ := h
  unfold Instance.act at hact
  cases hx : x.pc with
  | idle => simp [hx] at hact
  | stat =>
    simp only [hx] at hact hpc
    split at hact <;> cases hact
    · have hnone : x.claims = false := by simpa using hdir
      simp only [claims, Bool.or_eq_false_iff] at hnone
      exact ⟨by simp [claims, hnone], by simp [hnone]⟩
    · exact ⟨by simp, trivial⟩
  | isStaleInfo m =>
    simp only [hx] at hact hpc
    rw [if_neg (by have := hprompt m hx; omega)] at hact
    cases hact
    refine ⟨fun hc => hdir ?_, trivial⟩
    simpa [claims, hx] using hc
  | mkdir =>
    simp only [hx] at hact hpc
    split_ifs at hact with hif <;> cases hact
    · exact ⟨by simp, by simpa using hpc⟩
    · exact ⟨by simp [claims, hpc], trivial⟩
  | writeToken =>
    simp only [hx] at hact hpc
    split at hact <;> cases hact
    · exact ⟨by simp, trivial⟩
    · exact ⟨fun _ => hdir (by simp [claims, hx]), by simpa using hpc⟩
  | removeOwner why =>
    cases why with
    | takeover => simp [hx] at hpc
    | undo =>
      simp only [hx] at hact hpc
      split_ifs at hact
      · split at hact <;> cases hact
        · exact ⟨by simp [removed, claims, hpc], trivial⟩
        · exact ⟨by simp, hpc⟩
      · cases hact
        exact ⟨by simp [claims, hpc], trivial⟩
    | release =>
      simp only [hx] at hact hpc
      split_ifs at hact
      · split at hact <;> cases hact
        · exact ⟨by simp [removed, claims, hpc], trivial⟩
        · exact ⟨by simp, hpc⟩
      · cases hact
        exact ⟨fun hc => hdir (by simpa [claims, hx] using hc), trivial⟩
  | removeDir why =>
    cases why with
    | takeover => simp [hx] at hpc
    | undo | release =>
      simp only [hx] at hact hpc
      split at hact
      · cases hact
        exact ⟨by simp [removed, claims, hpc], trivial⟩
      split_ifs at hact <;> cases hact
      · exact ⟨by simp, hpc⟩
      · exact ⟨by simp [removed, claims, hpc], trivial⟩
      · exact ⟨by simp, trivial⟩
  | unlock =>
    simp only [hx] at hact hpc
    split_ifs at hact <;> cases hact
    · exact ⟨fun hc => hdir (by simpa [claims, hx] using hc), hpc⟩
    · exact ⟨by simp [claims, hpc], trivial⟩
  | heartbeat | isHeldByMe =>
    simp only [hx] at hact hpc
    split_ifs at hact <;> cases hact
    · exact ⟨fun hc => hdir (by simpa [claims, hx] using hc), trivial⟩
    refine ⟨fun hc => hdir ?_, trivial⟩
    have hinside : x.inside := by simpa [claims] using hc
    simp [claims, hinside]
  | chtimes =>
    simp only [hx] at hact hpc
    split_ifs at hact <;> cases hact
    · exact ⟨fun hc => by simpa using hdir (by simpa [claims, hx] using hc), trivial⟩
    · exact ⟨fun hc => hdir (by simpa [claims, hx] using hc), trivial⟩

lemma Knows.frame (h : x.Knows dir) (hclaims : x.claims = false) (hact : x.act threshold now dir a = some (dir', y)) :
    (dir ≠ none → dir' ≠ none) ∧ (y.claims → dir = none) := by
  simp only [claims, Bool.or_eq_false_iff, decide_eq_false_iff_not] at hclaims
  obtain ⟨⟨⟨⟨hheld, hinside⟩, hwrite⟩, hundoOwner⟩, hundoDir⟩ := hclaims
  have hpc := h.pc
  unfold Instance.act at hact
  cases hx : x.pc with
  | idle => simp [hx] at hact
  | stat =>
    simp only [hx] at hact
    split at hact <;> cases hact <;> simp [claims, hheld, hinside]
  | mkdir =>
    simp only [hx] at hact
    split_ifs at hact with hif <;> cases hact
    · exact ⟨by simp, fun _ => hif.1⟩
    · exact ⟨id, by simp [claims, hheld, hinside]⟩
  | writeToken => exact absurd hx hwrite
  | removeOwner why =>
    cases why with
    | takeover | release => simp [hx, hheld] at hpc
    | undo => exact absurd hx hundoOwner
  | removeDir why =>
    cases why with
    | takeover | release => simp [hx, hheld] at hpc
    | undo => exact absurd hx hundoDir
  | isStaleInfo | unlock | heartbeat | isHeldByMe | chtimes =>
    simp only [hx] at hact
    split_ifs at hact <;> cases hact <;> simp [claims, hheld, hinside]

lemma fenceToken_act (hact : x.act threshold now dir a = some (dir', y)) (hheld : y.isHeld) :
    x.isHeld ∧ y.fenceToken = x.fenceToken ∨ x.pc = .writeToken ∧ y.fenceToken = a.token := by
  have hremoved : ∀ why, (x.removed why).isHeld → x.isHeld ∧ (x.removed why).fenceToken = x.fenceToken := by
    intro why
    cases why <;> simp [removed]
  unfold act at hact
  cases hx : x.pc with
  | idle => simp [hx] at hact
  | stat =>
    simp only [hx] at hact
    split at hact <;> cases hact <;> exact .inl ⟨hheld, rfl⟩
  | isStaleInfo | mkdir | chtimes =>
    simp only [hx] at hact
    split_ifs at hact <;> cases hact <;> exact .inl ⟨hheld, rfl⟩
  | writeToken =>
    simp only [hx] at hact
    split at hact <;> cases hact
    · exact .inr ⟨rfl, rfl⟩
    · exact .inl ⟨hheld, rfl⟩
  | removeOwner why =>
    simp only [hx] at hact
    split_ifs at hact
    · split at hact <;> cases hact
      · exact .inl (hremoved why hheld)
      · exact .inl ⟨hheld, rfl⟩
    · cases hact
      exact .inl ⟨hheld, rfl⟩
  | removeDir why =>
    simp only [hx] at hact
    split at hact
    · cases hact
      exact .inl (hremoved why hheld)
    split_ifs at hact <;> cases hact
    · exact .inl ⟨hheld, rfl⟩
    · exact .inl (hremoved why hheld)
    · exact .inl ⟨hheld, rfl⟩
  | unlock | heartbeat | isHeldByMe =>
    simp only [hx] at hact
    split_ifs at hact <;> cases hact
    · exact .inl ⟨hheld, rfl⟩
    · cases hheld

lemma fenceToken_call (c : Call) : (x.call c).isHeld = x.isHeld ∧ (x.call c).fenceToken = x.fenceToken := by
  cases c <;> simp only [call] <;> split_ifs <;> exact ⟨rfl, rfl⟩

end Instance

/-! ### All instances -/

namespace State
variable {threshold : ℕ} {s t : State} {i : ℕ}

lemma step_act {a : Answer} (h : s.step threshold (.act i a) = some t) :
    ∃ x dir y, s.instances[i]? = some x ∧ x.act threshold s.now s.dir a = some (dir, y) ∧
      t.dir = dir ∧ t.instances = s.instances.set i y ∧
        (x.pc = .writeToken ∧ a.token ∉ s.tokens ∧ t.tokens = a.token::s.tokens ∨
          x.pc ≠ .writeToken ∧ t.tokens = s.tokens) := by
  obtain ⟨x, hx, hif⟩ := bind_eq_some_iff.mp h
  split_ifs at hif with hpc hfresh
  · obtain ⟨⟨dir, y⟩, hact, hsome⟩ := bind_eq_some_iff.mp hif
    cases hsome
    exact ⟨x, dir, y, hx, hact, rfl, rfl, .inl ⟨hpc, hfresh, rfl⟩⟩
  obtain ⟨⟨dir, y⟩, hact, hsome⟩ := bind_eq_some_iff.mp hif
  cases hsome
  exact ⟨x, dir, y, hx, hact, rfl, rfl, .inr ⟨hpc, rfl⟩⟩

lemma step_call {c} (h : s.step threshold (.call i c) = some t) :
    ∃ x, s.instances[i]? = some x ∧ x.pc = .idle ∧ t = {s with instances := s.instances.set i (x.call c)} := by
  obtain ⟨x, hx, hif⟩ := bind_eq_some_iff.mp h
  split_ifs at hif with hpc
  cases hif
  exact ⟨x, hx, hpc, rfl⟩

structure Sole (s : State) : Prop where
  knows : ∀ (i : ℕ) (x : Instance), s.instances[i]? = some x → x.Knows s.dir
  unique : ∀ (i j : ℕ) (x y : Instance), s.instances[i]? = some x → s.instances[j]? = some y →
    x.claims → y.claims → i = j

lemma sole_initial (n : ℕ) : (initial n).Sole := by
  have hget : ∀ (i : ℕ) (x : Instance), (initial n).instances[i]? = some x → x = ⟨false, 0, .idle, false⟩ := by
    intro i x hx
    exact eq_of_mem_replicate (mem_of_getElem? hx)
  constructor
  · intro i x hx
    rw [hget i x hx]
    exact ⟨by simp [claims], trivial⟩
  intro i j x y hx _ hclaims
  rw [hget i x hx] at hclaims
  simp [claims] at hclaims

variable {x y : Instance}

lemma Sole.set (h : s.Sole) (hx : s.instances[i]? = some x)
    (ht : t.instances = s.instances.set i y) (hy : y.Knows t.dir)
    (hframe : x.claims = false → (s.dir ≠ none → t.dir ≠ none) ∧ (y.claims → s.dir = none)) : t.Sole := by
  -- No other instance claims the directory when `i` does, before the step or after it.
  have hothers : ∀ (j : ℕ) (z : Instance), j ≠ i → s.instances[j]? = some z → z.claims →
      x.claims = false ∧ t.dir ≠ none ∧ y.claims = false := by
    intro j z hj hz hclaims
    have hxc : x.claims = false := by
      by_contra hxc
      exact hj (h.unique j i z x hz hx hclaims (by simpa using hxc))
    obtain ⟨hdir, hyc⟩ := hframe hxc
    have hsome := (h.knows j z hz).dir hclaims
    refine ⟨hxc, hdir hsome, ?_⟩
    by_contra hne
    exact hsome (hyc (by simpa using hne))
  constructor
  · intro j z hz
    rw [ht] at hz
    rcases getElem?_set_cases hz with ⟨rfl, rfl⟩ | ⟨hj, hz⟩
    · exact hy
    · exact ⟨fun hclaims => (hothers j z hj hz hclaims).2.1, (h.knows j z hz).pc⟩
  intro j k z w hz hw hzc hwc
  rw [ht] at hz hw
  rcases getElem?_set_cases hz with ⟨hj, hzy⟩ | ⟨hj, hz'⟩
  · rcases getElem?_set_cases hw with ⟨hk, -⟩ | ⟨hk, hw'⟩
    · exact hj.trans hk.symm
    · rw [hzy, (hothers k w hk hw' hwc).2.2] at hzc
      cases hzc
  rcases getElem?_set_cases hw with ⟨-, hwy⟩ | ⟨hk, hw'⟩
  · rw [hwy, (hothers j z hj hz' hzc).2.2] at hwc
    cases hwc
  · exact h.unique j k z w hz' hw' hzc hwc

lemma Sole.step {l} (h : s.Sole) (hprompt : s.prompt threshold l) (hstep : s.step threshold l = some t) : t.Sole := by
  cases l with
  | tick =>
    cases hstep
    exact ⟨h.knows, h.unique⟩
  | call j c =>
    obtain ⟨x, hx, hidle, rfl⟩ := step_call hstep
    obtain ⟨hknows, hclaims⟩ := (h.knows j x hx).call hidle c
    apply h.set (t := {s with instances := s.instances.set j (x.call c)}) hx rfl hknows
    intro hxc
    refine ⟨id, fun hyc => ?_⟩
    rw [hclaims hyc] at hxc
    cases hxc
  | act j a =>
    obtain ⟨x, dir, y, hx, hact, hdir, hset, -⟩ := step_act hstep
    have hknows := h.knows j x hx
    have hm : ∀ m, x.pc = .isStaleInfo m → s.now - m ≤ threshold := by
      intro m hm
      simpa [prompt, hx, hm] using hprompt
    subst hdir
    exact h.set hx hset (hknows.act hm hact) fun hxc => hknows.frame hxc hact

structure Fenced (s : State) : Prop where
  made : ∀ (i : ℕ) (x : Instance), s.instances[i]? = some x → x.isHeld → x.fenceToken ∈ s.tokens
  distinct : ∀ (i j : ℕ) (x y : Instance), i ≠ j → s.instances[i]? = some x → s.instances[j]? = some y →
    x.isHeld → y.isHeld → x.fenceToken ≠ y.fenceToken

lemma fenced_initial (n : ℕ) : (initial n).Fenced := by
  have hget : ∀ (i : ℕ) (x : Instance), (initial n).instances[i]? = some x → x.isHeld = false := by
    intro i x hx
    rw [eq_of_mem_replicate (mem_of_getElem? hx)]
  constructor
  · intro i x hx hheld
    simp [hget i x hx] at hheld
  · intro i j x y _ hx _ hheld
    simp [hget i x hx] at hheld

lemma Fenced.set (h : s.Fenced) (hx : s.instances[i]? = some x)
    (ht : t.instances = s.instances.set i y) (htokens : ∀ k ∈ s.tokens, k ∈ t.tokens)
    (hy : y.isHeld → x.isHeld ∧ y.fenceToken = x.fenceToken ∨
      y.fenceToken ∉ s.tokens ∧ y.fenceToken ∈ t.tokens) : t.Fenced := by
  have hother : ∀ (j : ℕ) (z : Instance), j ≠ i → s.instances[j]? = some z → z.isHeld →
      y.isHeld → z.fenceToken ≠ y.fenceToken := by
    intro j z hj hz hzh hyh
    rcases hy hyh with ⟨hxh, htoken⟩ | ⟨hnew, -⟩
    · rw [htoken]
      exact h.distinct j i z x hj hz hx hzh hxh
    · intro heq
      exact hnew (heq ▸ h.made j z hz hzh)
  constructor
  · intro j z hz hzh
    rw [ht] at hz
    rcases getElem?_set_cases hz with ⟨-, rfl⟩ | ⟨-, hz'⟩
    · rcases hy hzh with ⟨hxh, htoken⟩ | ⟨-, hmade⟩
      · rw [htoken]
        exact htokens _ (h.made i x hx hxh)
      · exact hmade
    · exact htokens _ (h.made j z hz' hzh)
  intro j k z w hjk hz hw hzh hwh
  rw [ht] at hz hw
  rcases getElem?_set_cases hz with ⟨hj, hzy⟩ | ⟨hj, hz'⟩
  · rcases getElem?_set_cases hw with ⟨hk, -⟩ | ⟨hk, hw'⟩
    · exact absurd (hj.trans hk.symm) hjk
    · rw [hzy] at hzh ⊢
      exact (hother k w hk hw' hwh hzh).symm
  rcases getElem?_set_cases hw with ⟨-, hwy⟩ | ⟨hk, hw'⟩
  · rw [hwy] at hwh ⊢
    exact hother j z hj hz' hzh hwh
  · exact h.distinct j k z w hjk hz' hw' hzh hwh

lemma Fenced.step {l} (h : s.Fenced) (hstep : s.step threshold l = some t) : t.Fenced := by
  cases l with
  | tick =>
    cases hstep
    exact ⟨h.made, h.distinct⟩
  | call j c =>
    obtain ⟨x, hx, -, rfl⟩ := step_call hstep
    obtain ⟨hheld, htoken⟩ := x.fenceToken_call c
    apply h.set (t := {s with instances := s.instances.set j (x.call c)}) hx rfl fun _ hk => hk
    intro hyh
    exact .inl ⟨hheld ▸ hyh, htoken⟩
  | act j a =>
    obtain ⟨x, dir, y, hx, hact, -, hset, htokens⟩ := step_act hstep
    rcases htokens with ⟨-, hfresh, htokens⟩ | ⟨hpc, htokens⟩
    · apply h.set hx hset (by simp +contextual [htokens])
      intro hyh
      rcases fenceToken_act hact hyh with hold | ⟨-, hnew⟩
      · exact .inl hold
      · exact .inr ⟨hnew ▸ hfresh, by simp [hnew, htokens]⟩
    apply h.set hx hset (by simp [htokens])
    intro hyh
    rcases fenceToken_act hact hyh with hold | ⟨hwrite, -⟩
    · exact .inl hold
    · exact absurd hwrite hpc

/-- While no lock directory gets older than the threshold and staleness is judged in time, at most one
instance is inside; and at no time at all would `IsHeldByMe` return true for two. -/
theorem lock_exclusive (threshold n : ℕ) :
    (∀ s, Reach (step threshold) (fun s l => s.young threshold l ∧ s.prompt threshold l)
        (initial n) s → ∀ i j, s.inside i → s.inside j → i = j) ∧
      ∀ s, Reach (step threshold) always (initial n) s → ∀ i j, s.isHeldByMe i → s.isHeldByMe j → i = j := by
  constructor
  · intro s h i j hi hj
    have hsole : s.Sole := by
      apply h.invariant (P := Sole) (sole_initial n)
      intro a l b _ ha hl hstep
      exact ha.step hl.2 hstep
    obtain ⟨x, hx, hxin⟩ := (Option.any_eq_true _ _).mp hi
    obtain ⟨y, hy, hyin⟩ := (Option.any_eq_true _ _).mp hj
    exact hsole.unique i j x y hx hy (by simp [claims, hxin]) (by simp [claims, hyin])
  intro s h i j hi hj
  have hfenced : s.Fenced := by
    apply h.invariant (P := Fenced) (fenced_initial n)
    intro a l b _ ha _ hstep
    exact ha.step hstep
  obtain ⟨x, hx, hxme⟩ := (Option.any_eq_true _ _).mp hi
  obtain ⟨y, hy, hyme⟩ := (Option.any_eq_true _ _).mp hj
  simp only [Bool.and_eq_true, owns, Option.any_eq_true, decide_eq_true_eq] at hxme hyme
  obtain ⟨hxh, d, hd, hxo⟩ := hxme
  obtain ⟨hyh, d', hd', hyo⟩ := hyme
  by_contra hij
  obtain rfl : d = d' := Option.some.inj (hd.symm.trans hd')
  exact hfenced.distinct i j x y hij hx hy hxh hyh (Option.some.inj (hxo.symm.trans hyo))

/-- Instance 1 reads the modification time of the lock directory of instance 0 and compares it with the clock
only when instance 0 has long unlocked and instance 2 has locked. -/
def delayed : List (Label × ℕ) :=
  [(.call 0 .tryLock, 1), (.act 0 ⟨0, true⟩, 3), (.call 1 .tryLock, 1), (.act 1 ⟨0, true⟩, 1),
    (.call 0 .unlock, 1), (.act 0 ⟨0, true⟩, 3), (.tick, 6), (.call 2 .tryLock, 1), (.act 2 ⟨1, true⟩, 3),
    (.act 1 ⟨2, true⟩, 5)]

/-- No lock directory is ever older than the threshold, and two instances are inside. -/
theorem two_inside : ∃ s, Reach (step 5) (fun s l => s.young 5 l) (initial 3) s ∧ s.inside 1 ∧ s.inside 2 :=
  ⟨follow (step 5) (young 5) (initial 3) delayed, reach_follow (fun _ _ h => h) _ _, by decide +kernel,
    by decide +kernel⟩

def waiting : List (Label × ℕ) :=
  [(.call 0 .tryLock, 1), (.act 0 ⟨0, true⟩, 3), (.tick, 3), (.call 0 .heartbeat, 1), (.act 0 ⟨0, true⟩, 2),
    (.tick, 3), (.call 1 .tryLock, 1), (.act 1 ⟨1, true⟩, 2), (.call 0 .unlock, 1), (.act 0 ⟨0, true⟩, 3),
    (.call 1 .tryLock, 1), (.act 1 ⟨1, true⟩, 3)]

theorem lock_exclusive_waiting : ∃ s : State, s.inside 1 ∧ s.isHeldByMe 1 ∧ (∀ i j, s.inside i → s.inside j → i = j) ∧
      ∀ i j, s.isHeldByMe i → s.isHeldByMe j → i = j := by
  refine ⟨follow (step 5) (fun s l => s.young 5 l && s.prompt 5 l) (initial 2) waiting, by decide +kernel,
    by decide +kernel, ?_, ?_⟩
  · exact (lock_exclusive 5 2).1 _ (reach_follow (fun _ _ h => by simpa using h) _ _)
  · exact (lock_exclusive 5 2).2 _ (reach_follow (fun _ _ _ => trivial) _ _)

end State
end Ayatsuri.DirLock
