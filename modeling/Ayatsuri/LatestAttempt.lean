import Ayatsuri.Compaction

/-! `DAGRun.LatestAttempt` followed by `ReadStatus` (`internal/persis/filedagrun/dagrun.go`, `attempt.go`),
while another process closes or compacts the newest attempt of the run, and perhaps crashes. -/
namespace Ayatsuri.LatestAttempt
open TransitionSystem StatusFile LineLog Option Handle
variable {S : Type}

inductive Reply (S : Type)
  | status (attempt : ℕ) (st : S)
  /-- `exec.ErrNoStatusData`. -/
  | noStatusData
  /-- `ErrReadFailed`. -/
  | readFailed
  /-- `exec.ErrCorruptedStatusFile`. -/
  | corrupted
  deriving DecidableEq

/-- The rest of the search and `ReadStatus`, from the attempt with the given number on. An older attempt may
be without a status file, or its file without a status. -/
def fallBack (attempt : ℕ) : List (Option (Option S)) → Reply S
  | [] => .noStatusData
  | none::older => fallBack (attempt+1) older
  | some none::_ => .corrupted
  | some (some st)::_ => .status attempt st

inductive Stage (S : Type)
  | idle
  /-- `LatestAttempt`: does the newest attempt have a status file? -/
  | lookup
  /-- `Cache.LoadLatest`: is the entry stale? -/
  | isStale
  /-- `Cache.LoadLatest`: open the file and read it, with what `os.Stat` said of it. -/
  | load (size modTime : ℕ)
  | loadFrom (size modTime ino : ℕ)
  /-- `ReadStatus` without the cache: open the file and read it. -/
  | direct
  | directFrom (ino : ℕ)
  | done (reply : Reply S)
  deriving DecidableEq

/-- The next file-system step of a reader, with the entry it stores in the cache; `cached` is `none` if the
process has no cache. -/
def Stage.act (length : S → ℕ) (d : Disk S) (older : List (Option (Option S)))
    (cached : Option (Option (Entry S))) : Stage S → Option (Stage S × Option (Entry S))
  | .idle | .done _ => none
  | .lookup =>
    match d.path, cached with
    | none, _ => some (.done (fallBack 1 older), none)
    | some _, none => some (.direct, none)
    | some _, some _ => some (.isStale, none)
  | .isStale =>
    match d.stat length, cached.join with
    | none, _ => some (.direct, none)
    | some st, none => some (.load st.1 st.2, none)
    | some st, some e =>
      if e.isStale st.1 st.2 then some (.load st.1 st.2, none) else some (.done (.status 0 e.data), none)
  | .load size modTime =>
    match d.path with
    | none => some (.direct, none)
    | some ino => some (.loadFrom size modTime ino, none)
  | .loadFrom size modTime ino =>
    match parse (d.text ino) with
    | none => some (.direct, none)
    | some st => some (.done (.status 0 st), some ⟨st, size, modTime⟩)
  | .direct =>
    match d.path with
    | none => some (.done .readFailed, none)
    | some ino => some (.directFrom ino, none)
  | .directFrom ino =>
    match parse (d.text ino) with
    | none => some (.done .corrupted, none)
    | some st => some (.done (.status 0 st), none)

structure Reader (S : Type) where
  proc : ℕ
  stage : Stage S
  deriving DecidableEq

structure State (S : Type) where
  disk : Disk S
  compactor : Option (Handle S)
  older : List (Option (Option S))
  caches : List (Option (Entry S))
  readers : List (Reader S)
  deriving DecidableEq

namespace State

inductive Label (S : Type)
  | start (now : ℕ) (op : Operation S)
  | act (a : Answer)
  | crash
  | evict (proc : ℕ)
  | begin (i : ℕ)
  | read (i : ℕ)

def put (s : State S) (o : Outcome S) : State S :=
  {s with
    disk := o.disk
    compactor := some o.handle
    caches := if o.invalidated then s.caches.set o.handle.proc none else s.caches}

def step (length : S → ℕ) (s : State S) : Label S → Option (State S)
  | .start now op => do
    let h ← s.compactor
    match h.pc, op with
    | .idle, .close => (h.start length s.disk now .close).map s.put
    | .idle, .compact => (h.start length s.disk now .compact).map s.put
    | _, _ => none
  | .act a => do
    let h ← s.compactor
    (h.act s.disk a).map s.put
  | .crash => some {s with compactor := none}
  | .evict proc => some {s with caches := s.caches.set proc none}
  | .begin i => do
    let r ← s.readers[i]?
    match r.stage with
    | .idle | .done _ => some {s with readers := s.readers.set i {r with stage := .lookup}}
    | _ => none
  | .read i => do
    let r ← s.readers[i]?
    let next ← r.stage.act length s.disk s.older s.caches[r.proc]?
    some {s with
      readers := s.readers.set i {r with stage := next.1}
      caches := next.2.elim s.caches fun e => s.caches.set r.proc (some e)}

def pc (s : State S) : Pc S := s.compactor.elim .idle Handle.pc

/-- Between the removal of the status file and the renaming of its replacement, `LatestAttempt` does not look
for the file, `ReadStatus` does not open it without the cache, the process does not crash, and the renaming
does not fail. `LoadLatest` does not find an entry that misleads it. -/
def careful [DecidableEq S] (length : S → ℕ) (s : State S) : Label S → Bool
  | .act a => !s.pc.inGap || a.ok
  | .crash => !s.pc.inGap
  | .read i =>
    (s.readers[i]?).all fun r =>
      match r.stage with
      | .lookup | .direct => !s.pc.inGap
      | .isStale => !((s.caches[r.proc]?).join.any fun e => e.misleads length s.disk)
      | _ => true
  | _ => true

structure Start (s : State S) (st : S) : Prop where
  compactor : ∃ h, s.compactor = some h ∧ h.pc = .idle
  disk : s.disk.Holds (some st)
  readers : ∀ r ∈ s.readers, r.stage = .idle

end State

/-! ### One reader -/

namespace Stage
variable {length : S → ℕ} {d : Disk S} {older : List (Option (Option S))}
  {cached : Option (Option (Entry S))} {stage : Stage S} {next : Stage S × Option (Entry S)} {st : S}

def remaining : Stage S → ℕ
  | .lookup => 6
  | .isStale => 5
  | .load _ _ => 4
  | .loadFrom _ _ _ => 3
  | .direct => 2
  | .directFrom _ => 1
  | .idle | .done _ => 0

lemma exists_act (length : S → ℕ) (d : Disk S) (older : List (Option (Option S)))
    (cached : Option (Option (Entry S))) (h : 0 < stage.remaining) :
    ∃ next, stage.act length d older cached = some next ∧ next.1.remaining < stage.remaining := by
  cases stage with
  | idle | done => simp [remaining] at h
  | lookup | load | loadFrom | direct | directFrom =>
    simp only [act]
    split <;> exact ⟨_, rfl, by simp [remaining]⟩
  | isStale =>
    simp only [act]
    split
    · exact ⟨_, rfl, by simp [remaining]⟩
    · exact ⟨_, rfl, by simp [remaining]⟩
    · split_ifs <;> exact ⟨_, rfl, by simp [remaining]⟩

def Sound (d : Disk S) (st : S) : Stage S → Prop
  | .loadFrom _ _ ino | .directFrom ino => d.Reads ino [] (some st)
  | .done reply => reply = .status 0 st
  | _ => True

lemma Sound.mono {d'} (h : stage.Sound d st)
    (hreads : ∀ ino, d.Reads ino [] (some st) → d'.Reads ino [] (some st)) : stage.Sound d' st := by
  cases stage with
  | loadFrom size modTime ino | directFrom ino => exact hreads ino h
  | done => exact h
  | idle | lookup | isStale | load | direct => trivial

lemma Sound.act [DecidableEq S] {pc : Pc S} (h : stage.Sound d st) (hkeeps : pc.Keeps d (some st))
    (hpc : pc = .idle ∨ pc.isCompacting) (hgap : stage = .lookup ∨ stage = .direct → pc.inGap = false)
    (hentry : stage = .isStale → ∀ e, cached.join = some e → e.misleads length d = false)
    (hact : stage.act length d older cached = some next) : next.1.Sound d st := by
  have hpath : pc.inGap = false → d.path ≠ none := by
    intro hgap hnone
    obtain ⟨ino, hino⟩ := (hkeeps.holds hpc hgap).path_of_some
    simp [hnone] at hino
  unfold Stage.act at hact
  cases stage with
  | idle | done => cases hact
  | lookup =>
    dsimp only at hact
    split at hact <;> cases hact
    · exact absurd ‹d.path = none› (hpath (hgap (.inl rfl)))
    · trivial
    · trivial
  | isStale =>
    dsimp only at hact
    split at hact
    · cases hact
      trivial
    · cases hact
      trivial
    next size e hstat hcached =>
    split_ifs at hact with hstale <;> cases hact
    · trivial
    -- The entry is used: the file is there, so it has the status.
    obtain ⟨ino, hino, -⟩ := bind_eq_some_iff.mp hstat
    have hreads := hkeeps.reads hpc hino
    have hdata := Entry.data_of_misleads (hentry rfl e hcached) hstat hstale
    rw [Disk.Holds.load (.inr ⟨ino, hino, hreads⟩)] at hdata
    exact congrArg _ (Option.some.inj hdata)
  | load size modTime =>
    dsimp only at hact
    split at hact <;> cases hact
    · trivial
    · exact hkeeps.reads hpc ‹_›
  | loadFrom size modTime ino | directFrom ino =>
    simp only [parse_of_scan h.2, some.injEq] at hact
    subst hact
    exact rfl
  | direct =>
    dsimp only at hact
    split at hact <;> cases hact
    · exact absurd ‹d.path = none› (hpath (hgap (.inr rfl)))
    · exact hkeeps.reads hpc ‹_›

end Stage

/-! ### The compaction and its readers -/

namespace State
variable {length : S → ℕ} {s t : State S} {st : S}

structure Inv (s : State S) (st : S) : Prop where
  pc : s.pc = .idle ∨ s.pc.isCompacting
  keeps : s.pc.Keeps s.disk (some st)
  readers : ∀ r ∈ s.readers, r.stage.Sound s.disk st

lemma Start.inv (h : s.Start st) : s.Inv st := by
  obtain ⟨g, hg, hidle⟩ := h.compactor
  have hpc : s.pc = .idle := by simp [State.pc, hg, hidle]
  refine ⟨.inl hpc, ?_, ?_⟩
  · rw [hpc]
    exact h.disk
  intro r hr
  rw [h.readers r hr]
  trivial

lemma Inv.set {i : ℕ} {r : Reader S} {caches : List (Option (Entry S))} (h : s.Inv st)
    (hr : r.stage.Sound s.disk st) : ({s with readers := s.readers.set i r, caches := caches} : State S).Inv st := by
  exact ⟨h.pc, h.keeps, forall_mem_set h.readers hr⟩

lemma Inv.put {o : Outcome S} (h : s.Inv st) (hpc : o.handle.pc = .idle ∨ o.handle.pc.isCompacting)
    (hkeeps : o.handle.pc.Keeps o.disk (some st))
    (hreads : ∀ ino, s.disk.Reads ino [] (some st) → o.disk.Reads ino [] (some st)) : (s.put o).Inv st :=
  ⟨hpc, hkeeps, fun r hr => (h.readers r hr).mono hreads⟩

lemma Inv.start {g : Handle S} {o op now} (h : s.Inv st)
    (hg : s.compactor = some g) (hidle : g.pc = .idle) (hop : op = .close ∨ op = .compact)
    (hstart : g.start length s.disk now op = some o) : (s.put o).Inv st := by
  have hd : s.disk.Holds (some st) := by
    have hkeeps := h.keeps
    simpa only [State.pc, hg, elim_some, hidle, Pc.Keeps] using hkeeps
  rcases hop with rfl | rfl
  · simp only [Handle.start] at hstart
    split at hstart <;> cases hstart
    exact h.put (.inr rfl) hd fun _ hreads => hreads
  · cases hstart
    exact h.put (.inr rfl) hd fun _ hreads => hreads

lemma step_read {i : ℕ} {r : Reader S} {next} (hr : s.readers[i]? = some r)
    (hact : r.stage.act length s.disk s.older s.caches[r.proc]? = some next) : s.step length (.read i) = some {s with
      readers := s.readers.set i {r with stage := next.1}
      caches := next.2.elim s.caches fun e => s.caches.set r.proc (some e)} := by simp [step, hr, hact]

variable [DecidableEq S]

lemma Inv.step {l} (h : s.Inv st) (hcareful : s.careful length l) (hstep : s.step length l = some t) : t.Inv st := by
  cases l with
  | start now op =>
    obtain ⟨g, hg, hmatch⟩ := bind_eq_some_iff.mp hstep
    split at hmatch
    · next hidle =>
      obtain ⟨o, ho, rfl⟩ := map_eq_some_iff.mp hmatch
      exact h.start hg hidle (.inl rfl) ho
    · next hidle =>
      obtain ⟨o, ho, rfl⟩ := map_eq_some_iff.mp hmatch
      exact h.start hg hidle (.inr rfl) ho
    · cases hmatch
  | act a =>
    obtain ⟨g, hg, hmap⟩ := bind_eq_some_iff.mp hstep
    obtain ⟨o, ho, rfl⟩ := map_eq_some_iff.mp hmap
    have hpc : s.pc = g.pc := by simp [State.pc, hg]
    have hc : g.pc.isCompacting := by
      rw [← hpc]
      apply h.pc.resolve_left
      intro hidle
      rw [hpc] at hidle
      simp [act, hidle] at ho
    have hok : g.pc.inGap → a.ok := by
      intro hgap
      simpa [careful, hpc, hgap] using hcareful
    have hkeeps := h.keeps
    rw [hpc] at hkeeps
    exact h.put (act_cases hc ho).1 (keeps_act hc hkeeps hok ho) fun _ hreads => reads_act hc ho hreads
  | crash =>
    cases hstep
    have hgap : s.pc.inGap = false := by simpa [careful] using hcareful
    exact ⟨.inl rfl, h.keeps.holds h.pc hgap, h.readers⟩
  | evict proc =>
    cases hstep
    exact {h with}
  | begin i =>
    obtain ⟨r, -, hmatch⟩ := bind_eq_some_iff.mp hstep
    split at hmatch <;> cases hmatch
    · exact h.set trivial
    · exact h.set trivial
  | read i =>
    obtain ⟨r, hr, hnext⟩ := bind_eq_some_iff.mp hstep
    obtain ⟨next, hact, hsome⟩ := bind_eq_some_iff.mp hnext
    cases hsome
    simp only [careful, hr, all_some] at hcareful
    refine h.set ((h.readers r (List.mem_of_getElem? hr)).act h.keeps h.pc ?_ ?_ hact)
    · rintro (hstage | hstage) <;> simpa [hstage] using hcareful
    · intro hstage e he
      simpa [hstage, he] using hcareful

/-- In careful runs every reader replies with the status of the newest attempt, and a reader that has begun
comes nearer to its reply with each step. -/
theorem latest_status_returned (hstart : s.Start st)
    (h : Reach (step length) (fun s l => s.careful length l) s t) {i : ℕ} {r : Reader S}
    (hr : t.readers[i]? = some r) : (∀ reply, r.stage = .done reply → reply = .status 0 st) ∧
      (0 < r.stage.remaining → ∃ u next, t.step length (.read i) = some u ∧ u.readers[i]? = some next ∧
        next.stage.remaining < r.stage.remaining) := by
  have hinv : t.Inv st := by
    apply h.invariant (P := fun s => s.Inv st) hstart.inv
    intro a l b _ ha hcareful hstep
    exact ha.step hcareful hstep
  constructor
  · intro reply hreply
    have hsound := hinv.readers r (List.mem_of_getElem? hr)
    rw [hreply] at hsound
    exact hsound
  intro hremaining
  obtain ⟨next, hact, hlt⟩ := Stage.exists_act length t.disk t.older t.caches[r.proc]? hremaining
  have hi : i < t.readers.length := lt_of_getElem? hr
  exact ⟨_, {r with stage := next.1}, step_read hr hact, List.getElem?_set_self hi, hlt⟩

def twoAttempts : State ℕ where
  disk := ⟨[⟨[some 8, none, some 9, none], 0⟩], some 0⟩
  compactor := some ⟨0, some 0, .idle⟩
  older := [some (some 7)]
  caches := [none, none]
  readers := [⟨1, .idle⟩, ⟨1, .idle⟩]

lemma twoAttempts_start : twoAttempts.Start 9 where
  compactor := ⟨_, rfl, rfl⟩
  disk := .inr ⟨0, rfl, by decide, rfl⟩
  readers := by decide

/-- One reader looks for the status file while it is removed and not yet replaced; then the process that
closes the attempt crashes, and another reader begins. -/
def fallingBack : List (Label ℕ × ℕ) :=
  [(.start 0 .close, 1), (.act ⟨1, true⟩, 5), (.begin 0, 1), (.read 0, 1), (.crash, 1), (.begin 1, 1), (.read 1, 1)]

/-- Both are told the status of the older attempt. -/
theorem older_status_returned : ∃ s t : State ℕ, s.Start 9 ∧ Reach (step fun _ => 10) always s t ∧
    t.readers.map Reader.stage = [.done (.status 1 7), .done (.status 1 7)] :=
  ⟨twoAttempts, play (step fun _ => 10) twoAttempts fallingBack, twoAttempts_start, reach_play _ _, by decide +kernel⟩

def overlapping : List (Label ℕ × ℕ) :=
  [(.begin 0, 1), (.read 0, 2), (.start 0 .close, 1), (.act ⟨1, true⟩, 4), (.read 0, 1), (.act ⟨1, true⟩, 1),
    (.read 0, 1), (.act ⟨1, true⟩, 1), (.begin 1, 1), (.read 1, 4), (.crash, 1)]

theorem latest_status_returned_overlapping : ∃ t : State ℕ, ∃ r : Reader ℕ,
    t.readers[1]? = some r ∧ r.stage = .done (.status 0 9) ∧ ((∀ reply, r.stage = .done reply → reply = .status 0 9) ∧
        (0 < r.stage.remaining → ∃ u next, t.step (fun _ => 10) (.read 1) = some u ∧
          u.readers[1]? = some next ∧ next.stage.remaining < r.stage.remaining)) :=
  ⟨follow (step fun _ => 10) (careful fun _ => 10) twoAttempts overlapping, ⟨1, .done (.status 0 9)⟩,
    by decide +kernel, rfl,
    latest_status_returned twoAttempts_start (reach_follow (fun _ _ h => h) _ _) (by decide +kernel)⟩

end State
end Ayatsuri.LatestAttempt
