import Ayatsuri.TransitionSystem

/-! The state file of the scheduler (`internal/persis/filewatermark/store.go`). `Save` writes a temporary file, whose
name is the same for every call, and renames it; `Load` answers a file that is missing or damaged with an empty state.
A file is known by its inode: a descriptor stays with it when its name goes to another one, and writes where the
descriptor stands. -/
namespace Ayatsuri.FileWatermark
open TransitionSystem List Option Function

/-- `SchedulerState`. The store does not look into the watermarks of the DAGs; without the field there are none. -/
structure SchedulerState (D : Type) where
  (version lastTick : ℤ)
  dags : Option D
  deriving DecidableEq

def schedulerStateVersion : ℤ := 2

/-- What `Flush` saves. -/
structure Snapshot (D : Type) where
  lastTick : ℤ
  dags : D
  deriving DecidableEq

variable {D : Type} [Inhabited D]

def Snapshot.toState (snapshot : Snapshot D) : SchedulerState D :=
  ⟨schedulerStateVersion, snapshot.lastTick, some snapshot.dags⟩

/-- `MarshalIndent` and `Unmarshal`. Watermarks of no DAG (the default) are left out of the text. -/
structure Codec (D : Type) [Inhabited D] where
  encode : Snapshot D → List UInt8
  decode : List UInt8 → Option (SchedulerState D)
  decode_encode : ∀ snapshot, ∃ dags, decode (encode snapshot) = some ⟨schedulerStateVersion, snapshot.lastTick, dags⟩ ∧
    dags.getD default = snapshot.dags

def newEmptyState : SchedulerState D := ⟨schedulerStateVersion, 0, some default⟩

def migrateWatermarkState (version : ℤ) (state : SchedulerState D) : Option (SchedulerState D) :=
  if version = 0 ∨ version = 1 then some {state with version := schedulerStateVersion, dags := some (state.dags.getD default)}
  else none

variable (codec : Codec D)

def load (data : List UInt8) : SchedulerState D :=
  match codec.decode data with
  | none => newEmptyState
  | some state =>
    if state.version = schedulerStateVersion then {state with dags := some (state.dags.getD default)}
    else (migrateWatermarkState state.version state).getD newEmptyState

def writeAt (content : List UInt8) (offset : ℕ) (data : List UInt8) : List UInt8 :=
  content.take offset++replicate (offset - content.length) 0++data++content.drop (offset+data.length)

/-- Why a `Save` failed: the temporary file was gone when it was to be renamed, or the file system failed. -/
inductive Cause
  | gone | io
  deriving DecidableEq

inductive Result
  | ok
  | failed (cause : Cause)
  deriving DecidableEq

/-- Where a call of `Save` is. -/
inductive Pc
  | begin
  | write (inode offset : ℕ) (rest : List UInt8)
  | sync | close | rename
  | remove (cause : Cause)
  | done (result : Result)
  | lost
  deriving DecidableEq

def Pc.active : Pc → Bool
  | .write _ _ _ | .sync | .close | .rename | .remove _ => true
  | .begin | .done _ | .lost => false

def Pc.afterCrash : Pc → Pc
  | .done result => .done result
  | .begin | .write _ _ _ | .sync | .close | .rename | .remove _ | .lost => .lost

/-- A call of `Load` that has opened the file or has returned, and whether some `Save` had returned nil before. -/
inductive LoadPc (D : Type)
  | read (inode : ℕ) (saved : Bool)
  | done (state : SchedulerState D) (saved : Bool)
  deriving DecidableEq

def LoadPc.isDone : LoadPc D → Bool
  | .read _ _ => false
  | .done _ _ => true

structure State (D : Type) where
  files : ℕ → List UInt8
  inodes : ℕ
  (stateFile tmpFile : Option ℕ)
  saves : List (Snapshot D × Pc)
  loads : List (LoadPc D)
  saved : Bool

inductive Label (D : Type)
  | call (snapshot : Snapshot D)
  /-- A step of a `Save`, with the number of bytes of a write. -/
  | save (i size : ℕ) (fails : Bool)
  | load
  | read (i : ℕ)
  | crash
  deriving DecidableEq

namespace State
variable (s : State D)

@[simp] def setPc (i : ℕ) (snapshot : Snapshot D) (pc : Pc) : State D :=
  {s with saves := s.saves.set i (snapshot, pc)}

/-- `OpenFile` with `O_CREATE|O_TRUNC`. -/
def openTmp : State D × ℕ :=
  match s.tmpFile with
  | some inode => ({s with files := update s.files inode []}, inode)
  | none => ({s with files := update s.files s.inodes [], inodes := s.inodes+1, tmpFile := some s.inodes}, s.inodes)

/-- One step of `Save`. -/
def saveStep (codec : Codec D) (s : State D) (i : ℕ) (snapshot : Snapshot D) (size : ℕ) (fails : Bool) : Pc → Option (State D)
  | .begin =>
    if fails then some (s.setPc i snapshot (.remove .io))
    else some (s.openTmp.1.setPc i snapshot (.write s.openTmp.2 0 (codec.encode snapshot)))
  | .write inode offset rest =>
    if fails then some (s.setPc i snapshot (.remove .io))
    else if rest = [] then some (s.setPc i snapshot .sync)
    else if 0 < size then
      let files := update s.files inode (writeAt (s.files inode) offset (rest.take size))
      some ({s with files := files}.setPc i snapshot (.write inode (offset+(rest.take size).length) (rest.drop size)))
    else none
  | .sync => some (s.setPc i snapshot (if fails then .remove .io else .close))
  | .close => some (s.setPc i snapshot (if fails then .remove .io else .rename))
  | .rename =>
    if fails then some (s.setPc i snapshot (.remove .io))
    else
      match s.tmpFile with
      | none => some (s.setPc i snapshot (.remove .gone))
      | some inode => some ({s with stateFile := some inode, tmpFile := none, saved := true}.setPc i snapshot (.done .ok))
  | .remove cause => some ({s with tmpFile := none}.setPc i snapshot (.done (.failed cause)))
  | .done _ | .lost => none

def step (codec : Codec D) (s : State D) : Label D → Option (State D)
  | .call snapshot => some {s with saves := s.saves++[(snapshot, .begin)]}
  | .save i size fails =>
    match s.saves[i]? with
    | none => none
    | some (snapshot, pc) => s.saveStep codec i snapshot size fails pc
  | .load =>
    match s.stateFile with
    | none => some {s with loads := s.loads++[.done newEmptyState s.saved]}
    | some inode => some {s with loads := s.loads++[.read inode s.saved]}
  | .read i =>
    match s.loads[i]? with
    | some (.read inode saved) =>
      some {s with loads := s.loads.set i (.done (FileWatermark.load codec (s.files inode)) saved)}
    | _ => none
  | .crash =>
    some {s with
      saves := s.saves.map fun x => (x.1, x.2.afterCrash)
      loads := s.loads.filter LoadPc.isDone}

def start (stateFile tmpFile : Option (List UInt8)) : State D where
  files inode := (if inode = 0 then stateFile else tmpFile).getD []
  inodes := 2
  stateFile := stateFile.map fun _ => 0
  tmpFile := tmpFile.map fun _ => 1
  saves := []
  loads := []
  saved := false

/-- A `Save` begins only while no other one is under way. -/
def Alone : Label D → Prop
  | .save i _ _ => (∃ x ∈ s.saves[i]?, x.2 = .begin) → ∀ x ∈ s.saves, x.2.active = false
  | _ => True

instance (s : State D) (l : Label D) : Decidable (s.Alone l) := by
  unfold Alone
  split <;> infer_instance

end State

/-! ### One file -/

lemma load_encode (snapshot : Snapshot D) : load codec (codec.encode snapshot) = snapshot.toState := by
  obtain ⟨dags, hdecode, hdags⟩ := codec.decode_encode snapshot
  simp [load, hdecode, hdags, Snapshot.toState]

lemma writeAt_length (content data : List UInt8) : writeAt content content.length data = content++data := by
  simp [writeAt]

/-! ### Calls one after the other -/

variable (s : State D)

def State.passed : List (Snapshot D) := s.saves.map Prod.fst

/-- The file holds a snapshot that was passed to some `Save`. -/
def State.Holds (inode : ℕ) : Prop := ∃ snapshot ∈ s.passed, s.files inode = codec.encode snapshot

def Pc.Knows (snapshot : Snapshot D) : Pc → Prop
  | .write inode offset rest =>
    s.tmpFile = some inode ∧ s.files inode++rest = codec.encode snapshot ∧ offset = (s.files inode).length
  | .sync | .close | .rename => ∃ inode, s.tmpFile = some inode ∧ s.files inode = codec.encode snapshot
  | .remove .gone | .done (.failed .gone) => False
  | .begin | .remove .io | .done (.failed .io) | .done .ok | .lost => True

def LoadPc.Knows : LoadPc D → Prop
  | .read inode saved => saved → inode < s.inodes ∧ s.tmpFile ≠ some inode ∧ s.Holds codec inode
  | .done state saved => saved → ∃ snapshot ∈ s.passed, state = snapshot.toState

structure Inv : Prop where
  lone : ∀ (i j : ℕ) (x y : Snapshot D × Pc), s.saves[i]? = some x → s.saves[j]? = some y → x.2.active → y.2.active → i = j
  knows : ∀ x ∈ s.saves, x.2.Knows codec s x.1
  tmp : ∀ inode, s.tmpFile = some inode → inode < s.inodes ∧ s.stateFile ≠ some inode
  state : ∀ inode, s.stateFile = some inode → inode < s.inodes ∧ (s.saved → s.Holds codec inode)
  saved : s.saved → s.stateFile ≠ none
  loads : ∀ l ∈ s.loads, l.Knows codec s

open State

section
variable {codec : Codec D} {s t : State D}

lemma State.Holds.mono {inode : ℕ} (h : s.Holds codec inode) (hfile : t.files inode = s.files inode)
    (hpassed : s.passed ⊆ t.passed) : t.Holds codec inode := by
  obtain ⟨snapshot, hmem, hcontent⟩ := h
  exact ⟨snapshot, hpassed hmem, hfile.trans hcontent⟩

lemma Pc.Knows.of_inactive {snapshot} {pc : Pc} (h : pc.Knows codec s snapshot) (hpc : pc.active = false) :
    pc.Knows codec t snapshot := by
  cases pc with
  | begin | lost => trivial
  | done result =>
    rcases result with _ | _ | _
    · trivial
    · exact h
    · trivial
  | write inode offset rest | sync | close | rename | remove cause => cases hpc

namespace Inv
variable (h : Inv codec s)
include h

lemma save {i : ℕ} {snapshot pc pc'} (hget : s.saves[i]? = some (snapshot, pc))
    (hlone : ∀ j x, s.saves[j]? = some x → j ≠ i → x.2.active = false)
    (hsaves : t.saves = s.saves.set i (snapshot, pc')) (hloads : t.loads = s.loads) (hinodes : s.inodes ≤ t.inodes)
    (hfiles : ∀ inode < s.inodes, s.tmpFile ≠ some inode → t.files inode = s.files inode)
    (htmp : ∀ inode, t.tmpFile = some inode → inode < t.inodes ∧ (s.tmpFile = some inode ∨ inode = s.inodes))
    (hstate : t.stateFile = s.stateFile ∧ t.saved = s.saved ∨
      ∃ inode, s.tmpFile = some inode ∧ t.stateFile = some inode ∧ t.files inode = codec.encode snapshot ∧ t.tmpFile = none)
    (hknows : pc'.Knows codec t snapshot) : Inv codec t := by
  have hpassed : t.passed = s.passed := by
    rw [passed, hsaves]
    exact map_set_of_eq hget rfl
  have hcall {j : ℕ} {x : Snapshot D × Pc} (hj : t.saves[j]? = some x) :
      j = i ∧ x = (snapshot, pc') ∨ j ≠ i ∧ s.saves[j]? = some x := by
    rw [hsaves] at hj
    exact getElem?_set_cases hj
  have hold {inode : ℕ} (hlt : inode < s.inodes) (hne : s.tmpFile ≠ some inode) (hholds : s.Holds codec inode) :
      t.Holds codec inode := hholds.mono (hfiles inode hlt hne) (by rw [hpassed]; exact List.Subset.refl _)
  have hother {inode : ℕ} (hlt : inode < s.inodes) (hne : s.tmpFile ≠ some inode) : t.tmpFile ≠ some inode := by
    intro heq
    rcases (htmp inode heq).2 with htmp' | rfl
    · exact hne htmp'
    · exact lt_irrefl _ hlt
  refine ⟨fun a b x y ha hb hx hy => ?_, fun x hx => ?_, fun inode hinode => ⟨(htmp inode hinode).1, fun heq => ?_⟩,
    fun inode hinode => ?_, fun hsaved => ?_, fun l hl => ?_⟩
  · rcases hcall ha with ⟨rfl, -⟩ | ⟨hne, ha'⟩
    · rcases hcall hb with ⟨rfl, -⟩ | ⟨hne, hb'⟩
      · rfl
      · rw [hlone b y hb' hne] at hy
        cases hy
    · rw [hlone a x ha' hne] at hx
      cases hx
  · obtain ⟨j, hj⟩ := mem_iff_getElem?.mp hx
    rcases hcall hj with ⟨-, rfl⟩ | ⟨hne, hj'⟩
    · exact hknows
    · exact (h.knows x (mem_of_getElem? hj')).of_inactive (hlone j x hj' hne)
  · rcases hstate with ⟨hsame, -⟩ | ⟨_, _, _, _, hnone⟩
    · rw [hsame] at heq
      exact hother (h.state inode heq).1 (fun htmp' => (h.tmp inode htmp').2 heq) hinode
    · rw [hnone] at hinode
      cases hinode
  · rcases hstate with ⟨hsame, hsaved⟩ | ⟨published, htmp', hnew, hcontent, -⟩
    · rw [hsame] at hinode
      obtain ⟨hlt, hholds⟩ := h.state inode hinode
      refine ⟨lt_of_lt_of_le hlt hinodes, fun hs => hold hlt (fun htmp' => (h.tmp inode htmp').2 hinode) (hholds ?_)⟩
      rwa [← hsaved]
    · obtain rfl : published = inode := by simpa [hnew] using hinode
      exact ⟨lt_of_lt_of_le (h.tmp _ htmp').1 hinodes, fun _ => ⟨snapshot, by
        rw [hpassed]; exact mem_map_of_mem (mem_of_getElem? hget), hcontent⟩⟩
  · rcases hstate with ⟨hsame, hsaved'⟩ | ⟨_, _, hnew, _, _⟩
    · rw [hsame]
      exact h.saved (by rwa [← hsaved'])
    · rw [hnew]
      exact some_ne_none _
  · rw [hloads] at hl
    have hl' := h.loads l hl
    cases l with
    | read inode saved =>
      intro hsaved
      obtain ⟨hlt, hne, hholds⟩ := hl' hsaved
      exact ⟨lt_of_lt_of_le hlt hinodes, hother hlt hne, hold hlt hne hholds⟩
    | done state saved =>
      intro hsaved
      rw [hpassed]
      exact hl' hsaved

/-- Of the files, a step of `Save` only writes the temporary one, if it writes at all. -/
lemma saveStep {i size : ℕ} {fails snapshot pc}
    (hget : s.saves[i]? = some (snapshot, pc)) (hl : s.Alone (.save i size fails))
    (hstep : s.saveStep codec i snapshot size fails pc = some t) : Inv codec t := by
  have hpc := h.knows _ (mem_of_getElem? hget)
  have hlone (hactive : pc.active ∨ pc = .begin) (j : ℕ) (x : Snapshot D × Pc) (hj : s.saves[j]? = some x)
      (hne : j ≠ i) : x.2.active = false := by
    rcases hactive with hactive | hbegin
    · by_contra hx
      exact hne (h.lone j i x _ hj hget (by simpa using hx) hactive)
    · exact hl ⟨_, hget, hbegin⟩ x (mem_of_getElem? hj)
  -- A step that leaves the files alone.
  have hstay {pc' : Pc} (hactive : pc.active ∨ pc = .begin) (hknows : pc'.Knows codec (s.setPc i snapshot pc') snapshot) :
      Inv codec (s.setPc i snapshot pc') :=
    h.save hget (hlone hactive) rfl rfl (le_refl _) (fun _ _ _ => rfl) (fun inode hinode => ⟨(h.tmp inode hinode).1, .inl hinode⟩)
      (.inl ⟨rfl, rfl⟩) hknows
  cases pc with
  | done result | lost => cases hstep
  | begin =>
    simp only [State.saveStep] at hstep
    split_ifs at hstep
    · cases hstep
      exact hstay (.inr rfl) trivial
    cases hstep
    cases htmp : s.tmpFile with
    | some inode =>
      have hopen : s.openTmp = ({s with files := update s.files inode []}, inode) := by simp [State.openTmp, htmp]
      rw [hopen]
      refine h.save hget (hlone (.inr rfl)) rfl rfl (le_refl _) (fun other _ hne => ?_)
        (fun other hother => ⟨(h.tmp other hother).1, .inl hother⟩) (.inl ⟨rfl, rfl⟩) ⟨htmp, ?_, ?_⟩
      · have hother : other ≠ inode := fun heq => hne (heq ▸ htmp)
        exact update_of_ne hother ..
      · simp
      · simp
    | none =>
      have hopen : s.openTmp = ({s with
          files := update s.files s.inodes []
          inodes := s.inodes+1
          tmpFile := some s.inodes}, s.inodes) := by simp [State.openTmp, htmp]
      rw [hopen]
      refine h.save hget (hlone (.inr rfl)) rfl rfl (Nat.le_succ _) (fun other hlt _ => ?_) (fun other hother => ?_)
        (.inl ⟨rfl, rfl⟩) ⟨rfl, ?_, ?_⟩
      · exact update_of_ne (Nat.ne_of_lt hlt) ..
      · cases hother
        exact ⟨Nat.lt_succ_self _, .inr rfl⟩
      · simp
      · simp
  | write inode offset rest =>
    obtain ⟨htmp, hcontent, rfl⟩ := hpc
    simp only [State.saveStep] at hstep
    split_ifs at hstep with hfails hrest hsize
    · cases hstep
      exact hstay (.inl rfl) trivial
    · cases hstep
      rw [hrest, append_nil] at hcontent
      exact hstay (.inl rfl) ⟨inode, htmp, hcontent⟩
    cases hstep
    rw [writeAt_length]
    refine h.save hget (hlone (.inl rfl)) rfl rfl (le_refl _) (fun other _ hne => ?_)
      (fun other hother => ⟨(h.tmp other hother).1, .inl hother⟩) (.inl ⟨rfl, rfl⟩) ⟨htmp, ?_, ?_⟩
    · have hother : other ≠ inode := fun heq => hne (heq ▸ htmp)
      exact update_of_ne hother ..
    · simp only [State.setPc, update_self, append_assoc, take_append_drop]
      exact hcontent
    · simp only [State.setPc, update_self, List.length_append]
  | sync | close =>
    simp only [State.saveStep] at hstep
    cases hstep
    split_ifs
    · exact hstay (.inl rfl) trivial
    · exact hstay (.inl rfl) hpc
  | rename =>
    obtain ⟨inode, htmp, hcontent⟩ := hpc
    simp only [State.saveStep, htmp] at hstep
    split_ifs at hstep
    · cases hstep
      exact hstay (.inl rfl) trivial
    cases hstep
    exact h.save hget (hlone (.inl rfl)) rfl rfl (le_refl _) (fun _ _ _ => rfl) (fun _ hnone => by cases hnone)
      (.inr ⟨inode, htmp, rfl, hcontent, rfl⟩) trivial
  | remove cause =>
    simp only [State.saveStep] at hstep
    cases hstep
    refine h.save hget (hlone (.inl rfl)) rfl rfl (le_refl _) (fun _ _ _ => rfl) (fun _ hnone => by cases hnone)
      (.inl ⟨rfl, rfl⟩) ?_
    cases cause with
    | gone => exact hpc
    | io => trivial

lemma calls (hfiles : t.files = s.files) (hinodes : t.inodes = s.inodes)
    (hstate : t.stateFile = s.stateFile) (htmp : t.tmpFile = s.tmpFile) (hsaved : t.saved = s.saved)
    (hpassed : s.passed ⊆ t.passed)
    (hlone : ∀ (i j : ℕ) (x y : Snapshot D × Pc), t.saves[i]? = some x → t.saves[j]? = some y → x.2.active → y.2.active → i = j)
    (hknows : ∀ x ∈ t.saves, x.2.Knows codec t x.1) (hloads : ∀ l ∈ t.loads, l ∈ s.loads ∨ l.Knows codec t) : Inv codec t := by
  have hold {inode : ℕ} (hholds : s.Holds codec inode) : t.Holds codec inode := hholds.mono (by rw [hfiles]) hpassed
  refine ⟨hlone, hknows, ?_, ?_, ?_, fun l hl => ?_⟩
  · rw [htmp, hinodes, hstate]
    exact h.tmp
  · rw [hinodes, hstate, hsaved]
    exact fun inode hinode => ⟨(h.state inode hinode).1, fun hs => hold ((h.state inode hinode).2 hs)⟩
  · rw [hstate, hsaved]
    exact h.saved
  · rcases hloads l hl with hl' | hl'
    · have hknown := h.loads l hl'
      cases l with
      | read inode saved =>
        intro hs
        obtain ⟨hlt, hne, hholds⟩ := hknown hs
        exact ⟨by rwa [hinodes], by rwa [htmp], hold hholds⟩
      | done state saved =>
        intro hs
        obtain ⟨snapshot, hmem, heq⟩ := hknown hs
        exact ⟨snapshot, hpassed hmem, heq⟩
    · exact hl'

lemma step {l} (hl : s.Alone l) (hstep : s.step codec l = some t) : Inv codec t := by
  cases l with
  | call snapshot =>
    cases hstep
    have hcall {i : ℕ} {x : Snapshot D × Pc} (hx : (s.saves++[(snapshot, Pc.begin)])[i]? = some x) (hactive : x.2.active) :
        s.saves[i]? = some x := by
      rcases getElem?_concat_cases hx with hx | ⟨-, rfl⟩
      · exact hx
      · cases hactive
    refine h.calls rfl rfl rfl rfl rfl (by simp [State.passed]) (fun i j x y hi hj hx hy => ?_) (fun x hx => ?_)
      (fun _ hmem => .inl hmem)
    · exact h.lone i j x y (hcall hi hx) (hcall hj hy) hx hy
    rcases mem_append.mp hx with hx | hx
    · exact h.knows x hx
    · obtain rfl := mem_singleton.mp hx
      trivial
  | save i size fails =>
    simp only [State.step] at hstep
    split at hstep
    · cases hstep
    · next snapshot pc hget => exact h.saveStep hget hl hstep
  | load =>
    have hload {l : LoadPc D} (hknows : l.Knows codec s) : Inv codec {s with loads := s.loads++[l]} := by
      refine h.calls rfl rfl rfl rfl rfl (List.Subset.refl _) h.lone h.knows fun l' hl => ?_
      rcases mem_append.mp hl with hl | hl
      · exact .inl hl
      · obtain rfl := mem_singleton.mp hl
        exact .inr hknows
    simp only [State.step] at hstep
    split at hstep
    · next hnone =>
      cases hstep
      exact hload fun hsaved => absurd hnone (h.saved hsaved)
    next inode hsome =>
    cases hstep
    obtain ⟨hlt, hholds⟩ := h.state inode hsome
    exact hload fun hsaved => ⟨hlt, fun htmp => (h.tmp inode htmp).2 hsome, hholds hsaved⟩
  | read i =>
    simp only [State.step] at hstep
    split at hstep
    · next inode saved hget =>
      cases hstep
      refine h.calls rfl rfl rfl rfl rfl (List.Subset.refl _) h.lone h.knows fun l hl => ?_
      rcases mem_or_eq_of_mem_set hl with hl | rfl
      · exact .inl hl
      refine .inr fun hsaved => ?_
      obtain ⟨-, -, snapshot, hmem, hcontent⟩ := h.loads _ (mem_of_getElem? hget) hsaved
      exact ⟨snapshot, hmem, by rw [hcontent, load_encode]⟩
    · cases hstep
  | crash =>
    cases hstep
    have hinactive {x : Snapshot D × Pc} (hx : x ∈ s.saves.map fun x => (x.1, x.2.afterCrash)) :
        x.2.active = false ∧ x.2.Knows codec s x.1 := by
      obtain ⟨⟨snapshot, pc⟩, hmem, rfl⟩ := List.mem_map.mp hx
      cases pc with
      | done result => exact ⟨rfl, h.knows _ hmem⟩
      | begin | write inode offset rest | sync | close | rename | remove cause | lost => exact ⟨rfl, trivial⟩
    have hpassed : s.passed ⊆ (s.saves.map fun x => (x.1, x.2.afterCrash)).map Prod.fst := by
      rw [List.map_map]
      exact List.Subset.refl _
    refine h.calls rfl rfl rfl rfl rfl hpassed (fun i j x y hi hj hx hy => ?_) (fun x hx => ?_)
      (fun l hl => .inl (mem_of_mem_filter hl))
    · rw [(hinactive (mem_of_getElem? hi)).1] at hx
      cases hx
    · exact (hinactive hx).2.of_inactive (hinactive hx).1

end Inv

lemma inv_start (stateFile tmpFile : Option (List UInt8)) : Inv codec (start stateFile tmpFile) := by
  refine ⟨by simp [start], by simp [start], fun inode hinode => ?_, fun inode hinode => ?_, ?_, by simp [start]⟩
  · obtain ⟨content, -, rfl⟩ := map_eq_some_iff.mp hinode
    exact ⟨Nat.one_lt_two, by simp [start]⟩
  · obtain ⟨content, -, rfl⟩ := map_eq_some_iff.mp hinode
    exact ⟨Nat.two_pos, by simp [start]⟩
  · simp [start]

end

namespace Example

def unary : Codec Unit where
  encode snapshot :=
    match snapshot.lastTick with
    | .ofNat n => 1::replicate n 0
    | .negSucc n => 2::replicate n 0
  decode
    | 1::rest => some ⟨schedulerStateVersion, .ofNat rest.length, none⟩
    | 2::rest => some ⟨schedulerStateVersion, .negSucc rest.length, none⟩
    | _ => none
  decode_encode snapshot := by obtain ⟨n | n, _⟩ := snapshot <;> exact ⟨none, by simp, rfl⟩

def snapshot (lastTick : ℤ) : Snapshot Unit := ⟨lastTick, ()⟩

/-- One `Save` after the other, the second of which crashes; then a `Load`. -/
def loaded : State Unit :=
  follow (step unary) (fun s l => decide (s.Alone l)) (start none none)
    [(.call (snapshot 1), 1), (.save 0 1 false, 7), (.call (snapshot 2), 1), (.save 1 1 false, 3), (.crash, 1), (.load, 1),
      (.read 0, 1)]

/-- The second `Save` truncates the file that the first one then renames. -/
def truncated : State Unit :=
  play (step unary) (start none none)
    [(.call (snapshot 1), 1), (.call (snapshot 2), 1), (.save 0 1 false, 6), (.save 1 1 false, 1), (.save 0 1 false, 1),
      (.load, 1), (.read 0, 1), (.save 1 1 false, 8)]

end Example

end Ayatsuri.FileWatermark
