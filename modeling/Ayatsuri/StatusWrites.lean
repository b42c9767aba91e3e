import Ayatsuri.Compaction

/-! Several handles on one status file, in one process or in several, and what `ReadStatus` returns while
they write, close and compact. -/
namespace Ayatsuri.StatusFile
open TransitionSystem LineLog List Option
variable {S : Type}

structure State (S : Type) where
  disk : Disk S
  handles : List (Handle S)
  caches : List (Option (Entry S))
  /-- The statuses whose `Write` returned nil, the last one at the end. -/
  acked : List S
  deriving DecidableEq

namespace State

inductive Label (S : Type)
  | start (i : ℕ) (now : ℕ) (op : Operation S)
  | act (i : ℕ) (a : Answer)
  | read (proc : ℕ)
  | evict (proc : ℕ)

/-- Handle `i` has taken a step. -/
def put (s : State S) (i : ℕ) (o : Outcome S) : State S where
  disk := o.disk
  handles := s.handles.set i o.handle
  caches := if o.invalidated then s.caches.set o.handle.proc none else s.caches
  acked := s.acked++o.acked.toList

def step (length : S → ℕ) (s : State S) : Label S → Option (State S)
  | .start i now op => do
    let h ← s.handles[i]?
    match h.pc with
    | .idle => (h.start length s.disk now op).map (s.put i)
    | _ => none
  | .act i a => do
    let h ← s.handles[i]?
    (h.act s.disk a).map (s.put i)
  | .read proc => do
    let cached ← s.caches[proc]?
    some {s with caches := s.caches.set proc (refresh length s.disk cached)}
  | .evict proc => some {s with caches := s.caches.set proc none}

/-- What `ReadStatus` returns in the given process. -/
def readStatus (length : S → ℕ) (s : State S) (proc : ℕ) : Option S :=
  StatusFile.readStatus length s.disk ((s.caches[proc]?).getD none)

def initial (procs : List ℕ) (caches : ℕ) : State S where
  disk := ⟨[], none⟩
  handles := procs.map fun proc => ⟨proc, none, .idle⟩
  caches := replicate caches none
  acked := []

end State

def Pc.isIdle : Pc S → Bool
  | .idle => true
  | _ => false

namespace State

/-- Apart from handle `i`, every handle has the property. -/
def othersAll (s : State S) (i : ℕ) (p : Handle S → Bool) : Bool := s.handles.zipIdx.all fun h => h.2 = i || p h.1

def misled [DecidableEq S] (length : S → ℕ) (s : State S) (proc : ℕ) : Bool :=
  ((s.caches[proc]?).getD none).any fun e => e.misleads length s.disk

/-- An operation starts only while no other handle is in the middle of one; `Close` compacts only while no
other handle is open, and `Compact` only while none is. The replacement is renamed once the status file is
removed. `ReadStatus` is not called in between, nor in a process that is misled by its cache. -/
def careful [DecidableEq S] (length : S → ℕ) (s : State S) : Label S → Bool
  | .start i _ op =>
    s.othersAll i (fun h => h.pc.isIdle) &&
      match op with
      | .openFile | .write _ => true
      | .close => s.othersAll i fun h => h.writer.isNone
      | .compact => s.handles.all fun h => h.writer.isNone
  | .act i a =>
    match (s.handles[i]?).map Handle.pc with
    | some (.rename _ _) => a.ok
    | _ => true
  | .read proc => (s.handles.all fun h => !h.pc.inGap) && !s.misled length proc
  | .evict _ => true

end State

open Handle

/-! ### One handle at work -/

namespace Handle
variable {d : Disk S} {last : Option S} {h : Handle S} {a : Answer} {o : Outcome S}

def Aligned (d : Disk S) (h : Handle S) : Prop :=
  match h.pc with
  | .idle => h.writer = none ∨ h.writer = d.path
  | .newline _ | .flushed _ => h.writer = d.path
  | .parse close | .parseFrom close _ | .temp close _ | .stat close _ | .remove close _
  | .rename close _ => close ∨ h.writer = none
  | .closing => True

lemma aligned_finish {close : Bool} (hclosed : close ∨ h.writer = none) : (h.finish close).Aligned d := by
  cases close with
  | true => trivial
  | false => exact .inl (hclosed.resolve_left (by simp))

lemma aligned_act (hc : h.pc.isCompacting) (haligned : h.Aligned d) (hact : h.act d a = some o) :
    o.acked = none ∧ o.handle.Aligned o.disk := by
  unfold Aligned at haligned
  unfold act at hact
  cases hpc : h.pc with
  | idle | newline | flushed => simp [hpc] at hc
  | parse close | parseFrom close ino =>
    simp only [hpc] at haligned hact
    split at hact <;> cases hact
    · exact ⟨rfl, aligned_finish haligned⟩
    · exact ⟨rfl, haligned⟩
  | stat close tmp =>
    simp only [hpc] at haligned hact
    split at hact <;> cases hact <;> exact ⟨rfl, haligned⟩
  | temp close st | remove close tmp =>
    simp only [hpc] at haligned hact
    split_ifs at hact <;> cases hact
    · exact ⟨rfl, haligned⟩
    · exact ⟨rfl, aligned_finish haligned⟩
  | rename close tmp =>
    simp only [hpc] at haligned hact
    split_ifs at hact <;> cases hact <;> exact ⟨rfl, aligned_finish haligned⟩
  | closing =>
    simp only [hpc, some.injEq] at hact
    subst hact
    exact ⟨rfl, .inl rfl⟩

/-- What a handle that is at work knows of the file, where `last` is the last acknowledged status. -/
structure Phase (d : Disk S) (last : Option S) (h : Handle S) : Prop where
  keeps : h.pc.Keeps d last
  aligned : h.Aligned d

lemma Phase.act (hphase : Phase d last h) (hok : h.pc.inGap → a.ok)
    (hact : h.act d a = some o) : Phase o.disk (o.acked <|> last) o.handle := by
  by_cases hc : h.pc.isCompacting
  · obtain ⟨hacked, haligned⟩ := aligned_act hc hphase.aligned hact
    rw [hacked]
    exact ⟨keeps_act hc hphase.keeps hok hact, haligned⟩
  obtain ⟨hkeeps, haligned⟩ := hphase
  unfold Aligned at haligned
  unfold Handle.act at hact
  cases hpc : h.pc with
  | idle => simp [hpc] at hact
  | newline st =>
    simp only [hpc] at hkeeps haligned hact
    obtain ⟨ino, hpath, hlt, hscan⟩ := hkeeps
    simp only [haligned, hpath, map_some, some.injEq] at hact
    subst hact
    refine ⟨⟨ino, hpath, by simpa using hlt, ?_⟩, hpath.symm⟩
    rw [Disk.text_append hlt]
    exact scan_end hscan
  | flushed st =>
    simp only [hpc, some.injEq] at hkeeps haligned hact
    obtain ⟨ino, hpath, hreads⟩ := hkeeps
    subst hact
    exact ⟨.inr ⟨ino, hpath, hreads⟩, .inr haligned⟩
  | parse | parseFrom | temp | stat | remove | rename | closing => simp [hpc] at hc

variable {length : S → ℕ}

lemma Phase.start {now op} (hphase : Phase d last h) (hpc : h.pc = .idle) (hcompact : op = .compact → h.writer = none)
    (hstart : h.start length d now op = some o) : o.acked = none ∧ Phase o.disk last o.handle := by
  obtain ⟨hd, hwriter⟩ := hphase
  simp only [Aligned, Pc.Keeps, hpc] at hd hwriter
  cases op with
  | openFile =>
    simp only [Handle.start] at hstart
    split at hstart <;> cases hstart
    · next hpath =>
      refine ⟨rfl, ?_, ?_⟩
      · simpa only [Pc.Keeps, hpc] using hd
      · simpa only [Aligned, hpc] using .inr hpath.symm
    next hpath =>
    have hlast : last = none := by
      rcases hd with ⟨-, hlast⟩ | ⟨ino, hsome, -⟩
      · exact hlast
      · simp [hpath] at hsome
    have htext : scan ((d.create [] now).text d.inodes.length) = ([], last) := by
      rw [Disk.text_create_self, hlast]
      rfl
    refine ⟨rfl, ?_, ?_⟩
    · simp only [Pc.Keeps, hpc]
      exact .inr ⟨d.inodes.length, rfl, by simp [Disk.create], htext⟩
    · simp [Aligned, hpc]
  | write st =>
    simp only [Handle.start] at hstart
    cases hw : h.writer with
    | none => simp [hw] at hstart
    | some ino =>
      have hpath : d.path = some ino := by simpa [hw, eq_comm] using hwriter
      rcases hd with ⟨hnone, -⟩ | ⟨ino', hpath', hlt, hscan⟩
      · simp [hnone] at hpath
      obtain rfl : ino = ino' := some.inj (hpath.symm.trans hpath')
      simp only [hw] at hstart
      split_ifs at hstart <;> cases hstart
      · refine ⟨rfl, ⟨ino, hpath, by simpa using hlt, ?_⟩, hpath.symm⟩
        rw [Disk.text_append hlt]
        exact scan_line hscan st
      refine ⟨rfl, ⟨ino, hpath, by simpa using hlt, ?_⟩, hpath.symm⟩
      rw [Disk.text_append hlt]
      exact scan_record hscan st
  | close =>
    simp only [Handle.start] at hstart
    split at hstart <;> cases hstart
    exact ⟨rfl, hd, .inl rfl⟩
  | compact =>
    cases hstart
    exact ⟨rfl, hd, .inr (hcompact rfl)⟩

lemma path_act (hact : h.act d a = some o) :
    h.pc.isCompacting ∨ o.handle.pc.isCompacting = false ∧ o.disk.path = d.path := by
  unfold act at hact
  cases hpc : h.pc with
  | idle => simp [hpc] at hact
  | newline st =>
    simp only [hpc] at hact
    obtain ⟨ino, -, rfl⟩ := map_eq_some_iff.mp hact
    exact .inr ⟨rfl, rfl⟩
  | flushed st =>
    simp only [hpc, some.injEq] at hact
    subst hact
    exact .inr ⟨rfl, rfl⟩
  | parse | parseFrom | temp | stat | remove | rename | closing => exact .inl rfl

lemma path_start {now op} (hpc : h.pc = .idle)
    (hstart : h.start length d now op = some o) : (op = .close ∨ op = .compact) ∨
      o.handle.pc.isCompacting = false ∧ (d.path = none ∨ o.disk.path = d.path) := by
  cases op with
  | close => exact .inl (.inl rfl)
  | compact => exact .inl (.inr rfl)
  | openFile =>
    simp only [start] at hstart
    split at hstart <;> cases hstart
    · exact .inr ⟨by simp [hpc], .inr rfl⟩
    · next hpath => exact .inr ⟨by simp [hpc], .inl hpath⟩
  | write st =>
    simp only [start] at hstart
    split at hstart
    · cases hstart
    split_ifs at hstart <;> cases hstart
    · exact .inr ⟨rfl, .inr rfl⟩
    · exact .inr ⟨rfl, .inr rfl⟩

def Beside (d : Disk S) (compacting : Bool) (h : Handle S) : Prop :=
  h.pc = .idle ∧ (h.writer = none ∨ compacting = false ∧ h.writer = d.path)

end Handle

namespace State
variable {s t : State S} {length : S → ℕ} {i : ℕ}

def handle (s : State S) (i : ℕ) : Handle S := (s.handles[i]?).getD ⟨0, none, .idle⟩

/-- At most handle `i` is in the middle of an operation. -/
structure ActiveAt (s : State S) (i : ℕ) : Prop where
  others : ∀ (j : ℕ) (h : Handle S), j ≠ i → s.handles[j]? = some h → h.Beside s.disk (s.handle i).pc.isCompacting
  phase : Handle.Phase s.disk s.acked.getLast? (s.handle i)

variable {h : Handle S}

lemma handle_of_some (hh : s.handles[i]? = some h) : s.handle i = h := by simp [handle, hh]

lemma handle_put (hh : s.handles[i]? = some h) (o : Outcome S) : (s.put i o).handle i = o.handle := by
  have hlt : i < s.handles.length := lt_of_getElem? hh
  simp [handle, put, getElem?_set_self hlt]

lemma getLast?_append_toList (l : List S) (x : Option S) : (l++x.toList).getLast? = (x <|> l.getLast?) := by
  cases x <;> simp

variable {g : Handle S} {o : Outcome S}

lemma activeAt_put (hg : s.handles[i]? = some g) (hphase : Handle.Phase o.disk (o.acked <|> s.acked.getLast?) o.handle)
    (hothers : ∀ (j : ℕ) (k : Handle S), j ≠ i → s.handles[j]? = some k →
      k.Beside o.disk o.handle.pc.isCompacting) : (s.put i o).ActiveAt i := by
  constructor
  · intro j k hj hk
    rw [handle_put hg]
    rcases getElem?_set_cases hk with ⟨hji, -⟩ | ⟨-, hk⟩
    · exact absurd hji hj
    · exact hothers j k hj hk
  · rw [handle_put hg]
    show Handle.Phase o.disk (s.acked++o.acked.toList).getLast? o.handle
    rw [getLast?_append_toList]
    exact hphase

variable {j : ℕ}

lemma ActiveAt.act (h : s.ActiveAt i) {a : Answer} (hg : s.handles[j]? = some g) (hok : g.pc.inGap → a.ok)
    (hact : g.act s.disk a = some o) : (s.put j o).ActiveAt i := by
  by_cases hj : j = i
  · subst hj
    have hphase := h.phase
    rw [handle_of_some hg] at hphase
    refine activeAt_put hg (hphase.act hok hact) ?_
    intro k other hk hother
    obtain ⟨hidle, hwriter⟩ := h.others k other hk hother
    refine ⟨hidle, ?_⟩
    rw [handle_of_some hg] at hwriter
    rcases hwriter with hnone | ⟨hcompacting, hwriter⟩
    · exact .inl hnone
    rcases Handle.path_act hact with hc | ⟨hc, hpath⟩
    · cases hc.symm.trans hcompacting
    · exact .inr ⟨hc, hwriter.trans hpath.symm⟩
  · -- Only handle `i` is in the middle of an operation.
    have hidle := (h.others j g hj hg).1
    simp [Handle.act, hidle] at hact

lemma ActiveAt.recenter (h : s.ActiveAt i) (hg : s.handles[j]? = some g)
    (hidle : g.pc = .idle) (hothers : ∀ (k : ℕ) (o : Handle S), k ≠ j → s.handles[k]? = some o →
      o.pc = .idle) : s.ActiveAt j := by
  by_cases hj : j = i
  · subst hj
    exact h
  have hi : (s.handle i).pc = .idle := by
    cases hget : s.handles[i]? with
    | none => simp [handle, hget]
    | some k =>
      rw [handle_of_some hget]
      exact hothers i k (Ne.symm hj) hget
  obtain ⟨hkeeps, haligned⟩ := h.phase
  simp only [Pc.Keeps, Handle.Aligned, hi] at hkeeps haligned
  have hcompacting : (s.handle j).pc.isCompacting = false := by
    rw [handle_of_some hg, hidle]
    rfl
  constructor
  · intro k o hk ho
    refine ⟨hothers k o hk ho, ?_⟩
    by_cases hki : k = i
    · subst hki
      rw [handle_of_some ho] at haligned
      rcases haligned with hnone | hpath
      · exact .inl hnone
      · exact .inr ⟨hcompacting, hpath⟩
    · rcases (h.others k o hki ho).2 with hnone | ⟨-, hpath⟩
      · exact .inl hnone
      · exact .inr ⟨hcompacting, hpath⟩
  · rw [handle_of_some hg]
    constructor
    · simpa only [Pc.Keeps, hidle] using hkeeps
    simp only [Handle.Aligned, hidle]
    rcases (h.others j g hj hg).2 with hnone | ⟨-, hpath⟩
    · exact .inl hnone
    · exact .inr hpath

lemma othersAll_iff {p : Handle S → Bool} :
    s.othersAll i p ↔ ∀ (j : ℕ) (h : Handle S), j ≠ i → s.handles[j]? = some h → p h := by
  simp only [othersAll, List.all_eq_true, Bool.or_eq_true, decide_eq_true_eq]
  constructor
  · intro hall j h hj hh
    rcases hall (h, j) (mem_zipIdx_iff_getElem?.mpr hh) with hji | hp
    · exact absurd hji hj
    · exact hp
  intro hall h hmem
  by_cases hj : h.2 = i
  · exact .inl hj
  · exact .inr (hall h.2 h.1 hj (mem_zipIdx_iff_getElem?.mp hmem))

lemma eq_idle {pc : Pc S} (h : pc.isIdle) : pc = .idle := by cases pc <;> simp_all [Pc.isIdle]

lemma activeAt_initial (procs : List ℕ) (caches : ℕ) : (initial procs caches : State S).ActiveAt procs.length := by
  have hhandle : (initial procs caches : State S).handle procs.length = ⟨0, none, .idle⟩ := by simp [handle, initial]
  constructor
  · intro j h hj hh
    simp only [initial, getElem?_map, map_eq_some_iff] at hh
    obtain ⟨proc, -, rfl⟩ := hh
    exact ⟨rfl, .inl rfl⟩
  · rw [hhandle]
    exact ⟨.inl ⟨rfl, rfl⟩, .inl rfl⟩

lemma ActiveAt.load (h : s.ActiveAt i) (hgap : ∀ g ∈ s.handles, g.pc.inGap = false) :
    s.disk.load = s.acked.getLast? ∨ ∃ st, s.disk.load = some st ∧ ∃ g ∈ s.handles, g.pc = .flushed st := by
  have hkeeps := h.phase.keeps
  cases hget : s.handles[i]? with
  | none =>
    simp only [handle, hget, getD_none] at hkeeps
    exact .inl (hkeeps.holds (.inl rfl) rfl).load
  | some g =>
    have hmem := mem_of_getElem? hget
    rw [handle_of_some hget] at hkeeps
    by_cases hc : g.pc = .idle ∨ g.pc.isCompacting
    · exact .inl (hkeeps.holds hc (hgap g hmem)).load
    cases hpc : g.pc with
    | newline st =>
      simp only [hpc] at hkeeps
      obtain ⟨ino, hpath, hreads⟩ := hkeeps
      exact .inl (by simp [Disk.load, hpath, parse_of_scan hreads.2])
    | flushed st =>
      simp only [hpc] at hkeeps
      obtain ⟨ino, hpath, hreads⟩ := hkeeps
      refine .inr ⟨st, ?_, g, hmem, hpc⟩
      simp [Disk.load, hpath, parse_of_scan hreads.2]
    | idle | parse | parseFrom | temp | stat | remove | rename | closing => simp [hpc] at hc

variable [DecidableEq S] {now : ℕ}

lemma others_of_careful {op} (h : s.careful length (.start i now op))
    (hj : j ≠ i) (hg : s.handles[j]? = some g) : g.pc = .idle ∧ (op = .close ∨ op = .compact → g.writer = none) := by
  simp only [careful, Bool.and_eq_true] at h
  refine ⟨eq_idle (othersAll_iff.mp h.1 j g hj hg), ?_⟩
  rintro (rfl | rfl)
  · simpa using othersAll_iff.mp h.2 j g hj hg
  · simpa using all_eq_true.mp h.2 g (mem_of_getElem? hg)

lemma closed_of_careful (h : s.careful length (.start i now .compact))
    (hg : s.handles[i]? = some g) : g.writer = none := by
  simp only [careful, Bool.and_eq_true] at h
  simpa using all_eq_true.mp h.2 g (mem_of_getElem? hg)

lemma ActiveAt.start {op} (h : s.ActiveAt i)
    (hcareful : s.careful length (.start i now op)) (hg : s.handles[i]? = some g)
    (hidle : g.pc = .idle) (hstart : g.start length s.disk now op = some o) : (s.put i o).ActiveAt i := by
  have hphase := h.phase
  rw [handle_of_some hg] at hphase
  obtain ⟨hacked, hphase⟩ := hphase.start hidle (fun hop => closed_of_careful (hop ▸ hcareful) hg) hstart
  apply activeAt_put hg
  · rw [hacked]
    exact hphase
  intro j k hj hk
  obtain ⟨hkidle, hclosed⟩ := others_of_careful hcareful hj hk
  refine ⟨hkidle, ?_⟩
  rcases path_start hidle hstart with hop | ⟨hcompacting, hpath⟩
  · exact .inl (hclosed hop)
  rcases (h.others j k hj hk).2 with hnone | ⟨-, hwriter⟩
  · exact .inl hnone
  rcases hpath with hnone | hpath
  · -- The file is created: no handle was open on it.
    exact .inl (hwriter.trans hnone)
  · exact .inr ⟨hcompacting, hwriter.trans hpath.symm⟩

lemma ActiveAt.step {l} (h : s.ActiveAt i) (hcareful : s.careful length l)
    (hstep : s.step length l = some t) : ∃ j, t.ActiveAt j := by
  cases l with
  | start j now op =>
    obtain ⟨g, hg, hmatch⟩ := bind_eq_some_iff.mp hstep
    split at hmatch
    · next hidle =>
      obtain ⟨o, ho, rfl⟩ := map_eq_some_iff.mp hmatch
      have hj := h.recenter hg hidle fun k _ hk hget => (others_of_careful hcareful hk hget).1
      exact ⟨j, hj.start hcareful hg hidle ho⟩
    · cases hmatch
  | act j a =>
    obtain ⟨g, hg, hmap⟩ := bind_eq_some_iff.mp hstep
    obtain ⟨o, ho, rfl⟩ := map_eq_some_iff.mp hmap
    refine ⟨i, h.act hg ?_ ho⟩
    intro hgap
    cases hpc : g.pc <;> simp_all [Pc.inGap, careful]
  | read proc =>
    obtain ⟨cached, -, hsome⟩ := bind_eq_some_iff.mp hstep
    cases hsome
    exact ⟨i, h.others, h.phase⟩
  | evict proc =>
    cases hstep
    exact ⟨i, h.others, h.phase⟩

lemma activeAt_of_reach {procs caches}
    (h : Reach (step length) (fun s l => s.careful length l) (initial procs caches) s) :
    ∃ i, s.ActiveAt i := by
  apply h.invariant (P := fun s => ∃ i, s.ActiveAt i)
  · exact ⟨procs.length, activeAt_initial procs caches⟩
  · intro a l b _ ⟨i, hi⟩ hcareful hstep
    exact hi.step hcareful hstep

/-- A handle keeps the file open while a second one opens it, writes 2 and closes; the first then writes 3
when the path is already that of the replacement. -/
def orphaned : List (Label ℕ × ℕ) :=
  [(.start 0 0 .openFile, 1), (.start 0 0 (.write 1), 1), (.act 0 ⟨0, true⟩, 1),
    (.start 1 1 .openFile, 1), (.start 1 1 (.write 2), 1), (.act 1 ⟨1, true⟩, 1),
    (.start 1 1 .close, 1), (.act 1 ⟨1, true⟩, 7),
    (.start 0 2 (.write 3), 1), (.act 0 ⟨2, true⟩, 1)]

def replaced : List (Label ℕ × ℕ) :=
  [(.start 0 0 .openFile, 1), (.start 0 0 (.write 1), 1), (.act 0 ⟨0, true⟩, 1), (.read 1, 1),
    (.start 0 1 .close, 1), (.act 0 ⟨1, true⟩, 7),
    (.start 1 2 .openFile, 1), (.start 1 2 (.write 2), 1), (.act 1 ⟨2, true⟩, 1),
    (.start 1 2 .close, 1), (.act 1 ⟨2, true⟩, 7), (.start 0 3 .openFile, 1),
    (.start 0 3 (.write 3), 1), (.act 0 ⟨3, true⟩, 1)]

end State
end Ayatsuri.StatusFile
