import Ayatsuri.TickPlannerEffects

/-! The scheduler's view of the DAG directory: `Init` lists the directory, loads the files one by
one and only then adds the watcher; afterwards every report is handled by loading the file anew or by
dropping its entry. The registry is keyed by file name, the events are keyed by DAG name. -/
namespace Ayatsuri.EntryReader
open TransitionSystem List Function AList

def isYAMLFile (file : String) : Bool := ".yaml".toList.isSuffixOf file.toList || ".yml".toList.isSuffixOf file.toList

/-- `spec.Load` on a file's content. A DAG without a name of its own is named after its file. -/
structure Loader (C D : Type) where
  load : String → C → Option D
  name : D → String

inductive Op
  | create | write | rename | remove
  deriving DecidableEq

def Op.loads : Op → Bool
  | .create | .write => true
  | .rename | .remove => false

inductive DAGChangeType
  | added | updated | deleted
  deriving DecidableEq

structure DAGChangeEvent (D : Type) where
  type : DAGChangeType
  dag : Option D
  dagName : String

/-- Where the reader is: before `Init`, in its loop over the listed files, or past the watcher. -/
inductive Phase
  | idle
  | loading (rest : List String)
  | watching
  deriving DecidableEq

structure State (C D : Type) where
  dir : AList fun _ : String => C
  phase : Phase
  registry : AList fun _ : String => D
  reports : String → List Op
  /-- The names the planner knows when `Init` has returned. -/
  names : String → Bool
  events : List (DAGChangeEvent D)
  version : String → Option D

inductive Label (C : Type)
  | write (file : String) (content : C)
  | delete (file : String)
  | rename (file target : String)
  | list | load | watch
  | handle (file : String)

def applyEvent {D : Type} (known : String → Bool) (e : DAGChangeEvent D) : String → Bool :=
  match e.type with
  | .added | .updated => if e.dag.isNone then known else update known e.dagName true
  | .deleted => update known e.dagName false

def Registered {C D : Type} (ld : Loader C D) (registry : AList fun _ : String => D) (name : String) : Prop :=
  ∃ file dag, registry.lookup file = some dag ∧ ld.name dag = name

namespace State
variable {C D : Type} (ld : Loader C D)

def load (s : State C D) (file : String) : Option D := (s.dir.lookup file).bind (ld.load file)

variable (s : State C D) (file : String)

def report (op : Op) : State C D :=
  if s.phase = .watching then
    {s with reports := update s.reports file (s.reports file++[op])}
  else s

def putFile (content : C) : State C D :=
  {s with
    dir := s.dir.insert file content
    version := update s.version file ((ld.load file content).or (s.version file))}

def removeFile : State C D :=
  {s with
    dir := s.dir.erase file
    version := update s.version file none}

/-- One turn of the loop in `initialize`. -/
def loadEntry : State C D :=
  if isYAMLFile file then
    match s.load ld file with
    | none => s
    | some dag => {s with registry := s.registry.insert file dag}
  else s

def handleFSEvent (op : Op) : State C D :=
  if op.loads then
    match s.load ld file with
    | none => s
    | some dag =>
      let oldDAG := s.registry.lookup file
      let oldDAGName :=
        match oldDAG with
        | some old => if ld.name old ≠ ld.name dag then ld.name old else ""
        | none => ""
      let changeType := if oldDAG.isSome ∧ oldDAGName = "" then .updated else .added
      {s with
        registry := s.registry.insert file dag
        events := s.events++(if oldDAGName ≠ "" then [⟨.deleted, none, oldDAGName⟩] else []) ++
          [⟨changeType, some dag, ld.name dag⟩]}
  else
    {s with
      registry := s.registry.erase file
      events := s.events ++ match s.registry.lookup file with
        | some dag => [⟨.deleted, none, ld.name dag⟩]
        | none => []}

/-- The changes of the directory, the steps of `Init` and the loop in `Start`. -/
def step : Label C → Option (State C D)
  | .write file content => some ((s.putFile ld file content).report file (if file ∈ s.dir then .write else .create))
  | .delete file => if file ∈ s.dir then some ((s.removeFile file).report file .remove) else none
  | .rename file target =>
    match s.dir.lookup file with
    | none => none
    | some content =>
      if file = target then none
      else
        some ((((s.removeFile file).report file .rename).putFile ld target content).report target .create)
  | .list =>
    match s.phase with
    | .idle => some {s with phase := .loading s.dir.keys}
    | _ => none
  | .load =>
    match s.phase with
    | .loading (file::rest) => some {s.loadEntry ld file with phase := .loading rest}
    | _ => none
  | .watch =>
    match s.phase with
    | .loading [] =>
      some {s with
        phase := .watching
        names := fun name => s.registry.entries.any fun e => ld.name e.2 = name}
    | _ => none
  | .handle file =>
    match s.reports file with
    | [] => none
    | op::rest =>
      let s := {s with reports := update s.reports file rest}
      if isYAMLFile file then some (s.handleFSEvent ld file op) else some s

/-- The reader before `Init`, on any directory. -/
def start (dir : AList fun _ : String => C) : State C D :=
  ⟨dir, .idle, ∅, fun _ => [], fun _ => false, [], fun file => (dir.lookup file).bind (ld.load file)⟩

/-! ### The condition -/

def sole (file name : String) : Bool := s.registry.entries.all fun e => e.1 = file || ld.name e.2 ≠ name

/-- `Init` is not between its listing and the watcher. -/
def outsideInit : Bool :=
  match s.phase with
  | .loading _ => false
  | _ => true

def settledBreak (content : C) : Bool :=
  (s.load ld file).isNone || (ld.load file content).isSome || (s.reports file).isEmpty

/-- The report does not make the reader give up a name that another file defines, and the empty
name is given up only with its file. -/
def soleName : Bool :=
  match s.reports file, s.registry.lookup file with
  | op::_, some old =>
    if op.loads then
      match s.load ld file with
      | none => true
      | some dag => ld.name old = ld.name dag || (ld.name old ≠ "" && s.sole ld file (ld.name old))
    else s.sole ld file (ld.name old)
  | _, _ => true

def quiet : Label C → Bool
  | .write file content => !isYAMLFile file || (s.outsideInit && s.settledBreak ld file content)
  | .delete file => !isYAMLFile file || s.outsideInit
  | .rename file target =>
    match s.dir.lookup file with
    | none => true
    | some content =>
      (!isYAMLFile file || s.outsideInit) &&
        (!isYAMLFile target || (s.outsideInit && s.settledBreak ld target content))
  | .handle file => s.soleName ld file
  | _ => true

end State

/-! ### One file -/

structure View (C D : Type) where
  content : Option C
  entry : Option D
  reports : List Op
  version : Option D

open View

namespace View
variable {C D : Type} {load : C → Option D} {v : View C D}

structure Sound (load : C → Option D) (v : View C D) : Prop where
  absent : v.content = none → v.version = none
  newest : ∀ dag, v.content.bind load = some dag → v.version = some dag

structure Tracks (load : C → Option D) (v : View C D) : Prop where
  kept : v.content.bind load = none →
    (∃ op ∈ v.reports, op.loads = false) ∨ ∀ dag, v.entry = some dag → v.version = some dag
  current : ∀ dag, v.content.bind load = some dag →
    (∃ op ∈ v.reports.getLast?, op.loads) ∨ v.reports = [] ∧ v.entry = some dag

def put (load : C → Option D) (v : View C D) (content : C) : View C D :=
  {v with content := some content, version := (load content).or v.version}

def remove (v : View C D) : View C D := {v with content := none, version := none}

def report (v : View C D) (op : Op) : View C D := {v with reports := v.reports++[op]}

def handle (load : C → Option D) (v : View C D) (op : Op) (rest : List Op) : View C D :=
  {v with
    entry := if op.loads then (v.content.bind load).or v.entry else none
    reports := rest}

lemma sound_put (content : C) : Sound load (v.put load content) where
  absent := by simp [put]
  newest dag hdag := by
    have hload : load content = some dag := hdag
    simp [put, hload]

lemma sound_remove : Sound load v.remove := ⟨fun _ => rfl, by simp [remove]⟩

lemma Tracks.put {content} {op : Op} (h : Tracks load v) (hs : Sound load v) (hop : op.loads)
    (hbreak : (v.content.bind load).isNone ∨ (load content).isSome ∨ v.reports = []) :
    Tracks load ((v.put load content).report op) where
  kept hnone := by
    have hload : load content = none := hnone
    have hsame : (v.put load content).version = v.version := by simp [View.put, hload]
    cases hold : v.content.bind load with
    | none =>
      obtain ⟨op', hmem, hop'⟩ | hentry := h.kept hold
      · exact .inl ⟨op', mem_append_left _ hmem, hop'⟩
      · exact .inr fun dag hdag => hsame.trans (hentry dag hdag)
    | some old =>
      have hreports : v.reports = [] := by simpa [hold, hload] using hbreak
      obtain ⟨op', hmem, -⟩ | ⟨-, hentry⟩ := h.current old hold
      · simp [hreports] at hmem
      right
      intro dag hdag
      have heq : v.entry = some dag := hdag
      rw [hentry] at heq
      exact hsame.trans ((hs.newest old hold).trans heq)
  current dag _ := .inl ⟨op, by simp [report], hop⟩

lemma tracks_remove {op : Op} (hop : op.loads = false) : Tracks load (v.remove.report op) where
  kept _ := .inl ⟨op, by simp [report], hop⟩
  current dag hdag := by simp [remove, report] at hdag

lemma Tracks.handle {op rest} (h : Tracks load v)
    (hreports : v.reports = op::rest) : Tracks load (v.handle load op rest) where
  kept hnone := by
    have hcontent : v.content.bind load = none := hnone
    by_cases hop : op.loads
    · -- The file does not load: the entry stays, and so does a pending removal.
      have hentry : (v.handle load op rest).entry = v.entry := by simp [View.handle, hop, hcontent]
      obtain ⟨op', hmem, hop'⟩ | hkept := h.kept hcontent
      · refine .inl ⟨op', ?_, hop'⟩
        rw [hreports] at hmem
        refine (mem_cons.mp hmem).resolve_left ?_
        rintro rfl
        simp [hop] at hop'
      · exact .inr fun dag hdag => hkept dag (hentry.symm.trans hdag)
    · exact .inr (by simp [View.handle, hop])
  current dag hdag := by
    have hcontent : v.content.bind load = some dag := hdag
    cases rest with
    | nil =>
      obtain ⟨op', hlast, hop'⟩ | ⟨hnil, -⟩ := h.current dag hcontent
      · obtain rfl : op = op' := by simpa [hreports] using hlast
        exact .inr ⟨rfl, by simp [View.handle, hop', hcontent]⟩
      · simp [hreports] at hnil
    | cons next rest =>
      obtain ⟨op', hlast, hop'⟩ | ⟨hnil, -⟩ := h.current dag hcontent
      · exact .inl ⟨op', by simpa [hreports, View.handle] using hlast, hop'⟩
      · simp [hreports] at hnil

end View

namespace State
variable {C D : Type} {ld : Loader C D} {s t : State C D} {file other : String}

def view (s : State C D) (file : String) : View C D :=
  ⟨s.dir.lookup file, s.registry.lookup file, s.reports file, s.version file⟩

variable (content : C)

@[simp]
lemma view_putFile_self :
    (s.putFile ld file content).view file = (s.view file).put (ld.load file) content := by simp [view, putFile, put]

lemma view_putFile_of_ne (h : other ≠ file) : (s.putFile ld file content).view other = s.view other := by
  simp [view, putFile, lookup_insert_ne h, update_of_ne h]

@[simp]
lemma view_removeFile_self : (s.removeFile file).view file = (s.view file).remove := by simp [view, removeFile, remove]

lemma view_removeFile_of_ne (h : other ≠ file) : (s.removeFile file).view other = s.view other := by
  simp [view, removeFile, lookup_erase_ne h, update_of_ne h]

@[simp]
lemma putFile_phase : (s.putFile ld file content).phase = s.phase := rfl

@[simp]
lemma removeFile_phase : (s.removeFile file).phase = s.phase := rfl

@[simp]
lemma report_phase (op : Op) : (s.report file op).phase = s.phase := by
  unfold report
  split_ifs <;> rfl

lemma view_report_self (op : Op) : (s.report file op).view file =
      if s.phase = .watching then (s.view file).report op else s.view file := by
  unfold report
  split_ifs with h
  · simp [view, View.report]
  · rfl

variable {op : Op}

lemma view_report_of_ne (h : other ≠ file) : (s.report file op).view other = s.view other := by
  unfold report
  split_ifs
  · simp [view, update_of_ne h]
  · rfl

@[simp]
lemma handleFSEvent_phase (op : Op) : (s.handleFSEvent ld file op).phase = s.phase := by
  unfold handleFSEvent
  split_ifs
  · cases s.load ld file <;> rfl
  · rfl

lemma view_handleFSEvent_self (op : Op) (rest : List Op) :
    (({s with reports := update s.reports file rest} : State C D).handleFSEvent ld file
      op).view file = (s.view file).handle (ld.load file) op rest := by
  unfold handleFSEvent
  split_ifs with hop
  · cases hload : s.load ld file with
    | none =>
      have hnone : (s.dir.lookup file).bind (ld.load file) = none := hload
      simp [view, handle, load, hop, hnone]
    | some dag =>
      have hsome : (s.dir.lookup file).bind (ld.load file) = some dag := hload
      simp [view, handle, load, hop, hsome]
  · simp [view, handle, hop]

lemma view_handleFSEvent_of_ne (h : other ≠ file) : (s.handleFSEvent ld file op).view other = s.view other := by
  unfold handleFSEvent
  split_ifs
  · cases s.load ld file with
    | none => rfl
    | some dag => simp [view, lookup_insert_ne h]
  · simp [view, lookup_erase_ne h]

/-! ### Every file -/

def Follows (ld : Loader C D) (s : State C D) (file : String) : Prop :=
  match s.phase with
  | .idle => (s.view file).reports = [] ∧ (s.view file).entry = none
  | .loading rest =>
    (s.view file).reports = [] ∧
      ((s.view file).entry = (s.view file).content.bind (ld.load file) ∨ file ∈ rest ∧ (s.view file).entry = none)
  | .watching => (s.view file).Tracks (ld.load file)

structure Good (ld : Loader C D) (s : State C D) (file : String) : Prop where
  sound : (s.view file).Sound (ld.load file)
  other : isYAMLFile file = false → (s.view file).entry = none
  follows : isYAMLFile file → s.Follows ld file

lemma Good.congr (h : s.Good ld file) (hview : t.view file = s.view file)
    (hphase : t.phase = s.phase) : t.Good ld file where
  sound := hview ▸ h.sound
  other hyaml := hview ▸ h.other hyaml
  follows hyaml := by
    have hfollows := h.follows hyaml
    simp only [Follows, hview, hphase] at hfollows ⊢
    exact hfollows

lemma Good.change (h : s.Good ld file) (hphase : t.phase = s.phase)
    (hentry : (t.view file).entry = (s.view file).entry) (hreports : (t.view file).reports = (s.view file).reports)
    (hsound : (t.view file).Sound (ld.load file)) (houtside : isYAMLFile file → s.outsideInit)
    (htracks : isYAMLFile file → (s.view file).Tracks (ld.load file) →
      ((t.view file).report op).Tracks (ld.load file)) : (t.report file op).Good ld file where
  sound := by
    rw [view_report_self]
    split_ifs
    · exact ⟨hsound.absent, hsound.newest⟩
    · exact hsound
  other hyaml := by
    rw [view_report_self, ← h.other hyaml, ← hentry]
    split_ifs <;> rfl
  follows hyaml := by
    have hfollows := h.follows hyaml
    have hinit := houtside hyaml
    unfold Follows
    rw [report_phase, view_report_self, hphase]
    cases hs : s.phase with
    | idle =>
      simp only [Follows, hs] at hfollows
      simpa [hentry, hreports] using hfollows
    | loading rest => simp [outsideInit, hs] at hinit
    | watching =>
      simp only [Follows, hs] at hfollows
      simpa using htracks hyaml hfollows

variable {content : C}

lemma Good.put (h : s.Good ld file) (hop : op.loads) (hquiet : isYAMLFile file →
      s.outsideInit ∧ s.settledBreak ld file content) :
    ((s.putFile ld file content).report file op).Good ld file := by
  refine h.change rfl ?_ ?_ ?_ (fun hyaml => (hquiet hyaml).1) ?_
  · simp [View.put]
  · simp [View.put]
  · rw [view_putFile_self]
    exact View.sound_put content
  · intro hyaml htracks
    rw [view_putFile_self]
    refine htracks.put h.sound hop ?_
    have hbreak := (hquiet hyaml).2
    simpa [settledBreak, view, load, or_assoc] using hbreak

lemma Good.remove (h : s.Good ld file) (hop : op.loads = false) (houtside : isYAMLFile file → s.outsideInit) :
    ((s.removeFile file).report file op).Good ld file := by
  refine h.change rfl ?_ ?_ ?_ houtside ?_
  · simp [View.remove]
  · simp [View.remove]
  · rw [view_removeFile_self]
    exact View.sound_remove
  · intro _ _
    rw [view_removeFile_self]
    exact View.tracks_remove hop

lemma good_putFile_of_ne (h : s.Good ld other) (hne : other ≠ file) :
    ((s.putFile ld file content).report file op).Good ld other :=
  h.congr ((view_report_of_ne hne).trans (view_putFile_of_ne content hne)) (by simp)

lemma good_removeFile_of_ne (h : s.Good ld other) (hne : other ≠ file) :
    ((s.removeFile file).report file op).Good ld other :=
  h.congr ((view_report_of_ne hne).trans (view_removeFile_of_ne hne)) (by simp)

lemma view_loadEntry_of_ne (h : other ≠ file) : (s.loadEntry ld file).view other = s.view other := by
  unfold loadEntry
  split_ifs
  · cases s.load ld file with
    | none => rfl
    | some dag => simp [view, lookup_insert_ne h]
  · rfl

lemma view_loadEntry_self (h : isYAMLFile file) : (s.loadEntry ld file).view file =
      {s.view file with entry := (s.load ld file).or (s.view file).entry} := by
  unfold loadEntry
  cases hload : s.load ld file with
  | none => simp [h, view]
  | some dag => simp [h, view]

section
variable (h : ∀ file, s.Good ld file)
include h

lemma good_write (hquiet : s.quiet ld (.write file content))
    (hstep : s.step ld (.write file content) = some t) (other : String) : t.Good ld other := by
  cases hstep
  by_cases hne : other = file
  · subst hne
    refine (h other).put (by split_ifs <;> rfl) fun hyaml => ?_
    simpa [quiet, hyaml] using hquiet
  · exact good_putFile_of_ne (h other) hne

lemma good_delete (hquiet : s.quiet ld (.delete file))
    (hstep : s.step ld (.delete file) = some t) (other : String) : t.Good ld other := by
  obtain ⟨-, rfl⟩ := of_guarded hstep
  by_cases hne : other = file
  · subst hne
    exact (h other).remove rfl fun hyaml => by simpa [quiet, hyaml] using hquiet
  · exact good_removeFile_of_ne (h other) hne

lemma good_rename {target} (hquiet : s.quiet ld (.rename file target))
    (hstep : s.step ld (.rename file target) = some t) (other : String) : t.Good ld other := by
  simp only [step] at hstep
  cases hcontent : s.dir.lookup file with
  | none => simp [hcontent] at hstep
  | some content =>
    simp only [hcontent] at hstep
    split_ifs at hstep with hne
    cases hstep
    obtain ⟨hfile, htarget⟩ : (isYAMLFile file → s.outsideInit) ∧
        (isYAMLFile target → s.outsideInit ∧ s.settledBreak ld target content) := by
      simp only [quiet, hcontent, Bool.and_eq_true, Bool.or_eq_true, Bool.not_eq_true'] at hquiet
      grind
    have hremoved : ∀ other, ((s.removeFile file).report file .rename).Good ld other := by
      intro other
      by_cases hother : other = file
      · subst hother
        exact (h other).remove rfl hfile
      · exact good_removeFile_of_ne (h other) hother
    by_cases hother : other = target
    · subst hother
      refine (hremoved other).put rfl fun hyaml => ?_
      -- The removal of `file` leaves the target's content and reports alone.
      have hview : ((s.removeFile file).report file .rename).view other = s.view other :=
        (view_report_of_ne (Ne.symm hne)).trans (view_removeFile_of_ne (Ne.symm hne))
      obtain ⟨houtside, hbreak⟩ := htarget hyaml
      refine ⟨by simpa [outsideInit] using houtside, ?_⟩
      have hdir := congrArg View.content hview
      have hreports := congrArg View.reports hview
      simp only [view] at hdir hreports
      simpa [settledBreak, load, hdir, hreports] using hbreak
    · exact good_putFile_of_ne (hremoved other) hother

/-! #### `Init` and `Start` -/

lemma good_list (hstep : s.step ld .list = some t) (file : String) : t.Good ld file := by
  simp only [step] at hstep
  split at hstep
  · next hphase =>
    cases hstep
    refine ⟨(h file).sound, (h file).other, fun hyaml => ?_⟩
    have hidle := (h file).follows hyaml
    simp only [Follows, hphase] at hidle
    refine ⟨hidle.1, ?_⟩
    by_cases hmem : file ∈ s.dir.keys
    · exact .inr ⟨hmem, hidle.2⟩
    left
    have habsent : s.dir.lookup file = none := lookup_eq_none.mpr hmem
    exact hidle.2.trans (by simp [view, habsent])
  · simp at hstep

lemma good_load (hstep : s.step ld .load = some t) (file : String) : t.Good ld file := by
  simp only [step] at hstep
  split at hstep
  · next first rest hphase =>
    cases hstep
    by_cases hfirst : file = first ∧ isYAMLFile file
    · obtain ⟨rfl, hyaml⟩ := hfirst
      have hview : ({s.loadEntry ld file with phase := .loading rest} : State C D).view file =
          {s.view file with entry := (s.load ld file).or (s.view file).entry} := view_loadEntry_self hyaml
      refine ⟨?_, by simp [hyaml], fun _ => ?_⟩
      · rw [hview]
        exact ⟨(h file).sound.absent, (h file).sound.newest⟩
      have hbefore := (h file).follows hyaml
      simp only [Follows, hphase] at hbefore
      simp only [Follows, hview]
      refine ⟨hbefore.1, .inl ?_⟩
      have hentry : (s.view file).entry = s.load ld file ∨ (s.view file).entry = none := hbefore.2.imp_right And.right
      change (s.load ld file).or (s.view file).entry = s.load ld file
      obtain hentry | hentry := hentry <;> simp [hentry]
    · have hview : ({s.loadEntry ld first with phase := .loading rest} : State C D).view file = s.view file := by
        by_cases hne : file = first
        · subst hne
          have hother : isYAMLFile file = false := by simpa using hfirst
          change (s.loadEntry ld file).view file = s.view file
          simp [loadEntry, hother]
        · exact view_loadEntry_of_ne hne
      refine ⟨hview ▸ (h file).sound, fun hyaml => hview ▸ (h file).other hyaml, fun hyaml => ?_⟩
      have hbefore := (h file).follows hyaml
      have hne : file ≠ first := fun heq => hfirst ⟨heq, hyaml⟩
      simp only [Follows, hphase, mem_cons, hne, false_or] at hbefore
      simp only [Follows, hview]
      exact hbefore
  · simp at hstep

lemma good_watch (hstep : s.step ld .watch = some t) (file : String) : t.Good ld file := by
  simp only [step] at hstep
  split at hstep
  · next hphase =>
    cases hstep
    refine ⟨(h file).sound, (h file).other, fun hyaml => ?_⟩
    have hloaded := (h file).follows hyaml
    simp only [Follows, hphase, not_mem_nil, false_and, or_false] at hloaded
    obtain ⟨hreports, hentry⟩ := hloaded
    refine ⟨fun hnone => .inr fun dag hdag => ?_, fun dag hdag => .inr ⟨hreports, hentry.trans hdag⟩⟩
    have hempty : (s.view file).entry = none := hentry.trans hnone
    exact absurd (hempty.symm.trans hdag) (by simp)
  · simp at hstep

lemma good_handle (hstep : s.step ld (.handle file) = some t) (other : String) : t.Good ld other := by
  simp only [step] at hstep
  cases hreports : s.reports file with
  | nil => simp [hreports] at hstep
  | cons op rest =>
    simp only [hreports] at hstep
    have hpopped : ∀ other, other ≠ file →
        ({s with reports := update s.reports file rest} : State C D).view other = s.view other := by
      intro other hne
      simp [view, update_of_ne hne]
    split_ifs at hstep with hyaml
    · cases hstep
      by_cases hne : other = file
      · subst hne
        have hbefore := (h other).follows hyaml
        refine ⟨?_, by simp [hyaml], fun _ => ?_⟩
        · rw [view_handleFSEvent_self]
          exact ⟨(h other).sound.absent, (h other).sound.newest⟩
        unfold Follows at hbefore ⊢
        rw [handleFSEvent_phase, view_handleFSEvent_self]
        have hpending : (s.view other).reports ≠ [] := by simp [view, hreports]
        cases hphase : s.phase with
        | idle | loading rest =>
          simp only [hphase] at hbefore
          exact absurd hbefore.1 hpending
        | watching =>
          simp only [hphase] at hbefore
          exact hbefore.handle hreports
      · exact (h other).congr ((view_handleFSEvent_of_ne hne).trans (hpopped other hne)) (by simp)
    · cases hstep
      by_cases hne : other = file
      · subst hne
        exact ⟨⟨(h other).sound.absent, (h other).sound.newest⟩, (h other).other, fun hyes => absurd hyes hyaml⟩
      · exact (h other).congr (hpopped other hne) rfl

lemma good_step {l} (hquiet : s.quiet ld l) (hstep : s.step ld l = some t) (file : String) : t.Good ld file := by
  cases l with
  | write file content => exact good_write h hquiet hstep _
  | delete file => exact good_delete h hquiet hstep _
  | rename file target => exact good_rename h hquiet hstep _
  | list => exact good_list h hstep _
  | load => exact good_load h hstep _
  | watch => exact good_watch h hstep _
  | handle file => exact good_handle h hstep _

end

lemma good_start (dir : AList fun _ : String => C) (file : String) : (start ld dir : State C D).Good ld file where
  sound :=
    { absent := fun habsent => by
        have hnone : dir.lookup file = none := habsent
        simp [view, start, hnone]
      newest := fun _ hdag => hdag}
  other _ := rfl
  follows _ := ⟨rfl, rfl⟩

/-! ### The names -/

section
variable {registry : AList fun _ : String => D} {name : String} {dag old : D}

lemma registered_iff_erase (registry : AList fun _ : String => D) (file name : String) : Registered ld registry name ↔
      (∃ dag, registry.lookup file = some dag ∧ ld.name dag = name) ∨ Registered ld (registry.erase file) name := by
  constructor
  · rintro ⟨other, dag, hlookup, hname⟩
    by_cases hne : other = file
    · exact .inl ⟨dag, hne ▸ hlookup, hname⟩
    · exact .inr ⟨other, dag, (lookup_erase_ne hne).trans hlookup, hname⟩
  rintro (⟨dag, hlookup, hname⟩ | ⟨other, dag, hlookup, hname⟩)
  · exact ⟨file, dag, hlookup, hname⟩
  by_cases hne : other = file
  · subst hne
    simp at hlookup
  · exact ⟨other, dag, (lookup_erase_ne hne).symm.trans hlookup, hname⟩

lemma registered_insert : Registered ld (registry.insert file dag) name ↔
      ld.name dag = name ∨ Registered ld (registry.erase file) name := by
  rw [registered_iff_erase _ file]
  have herase : ∀ other, ((registry.insert file dag).erase file).lookup other = (registry.erase file).lookup other := by
    intro other
    by_cases hne : other = file
    · subst hne
      simp
    · rw [lookup_erase_ne hne, lookup_insert_ne hne, lookup_erase_ne hne]
  simp [Registered, herase]

lemma registered_erase_of_none (h : registry.lookup file = none) :
    Registered ld (registry.erase file) name ↔ Registered ld registry name := by
  rw [registered_iff_erase registry file]
  simp [h]

lemma registered_erase_of_sole (h : s.registry.lookup file = some old) (hsole : s.sole ld file (ld.name old)) :
    Registered ld (s.registry.erase file) name ↔ name ≠ ld.name old ∧ Registered ld s.registry name := by
  have hgone : ¬ Registered ld (s.registry.erase file) (ld.name old) := by
    rintro ⟨other, dag, hlookup, hname⟩
    by_cases hne : other = file
    · subst hne
      simp at hlookup
    rw [lookup_erase_ne hne] at hlookup
    have hmem : ⟨other, dag⟩ ∈ s.registry.entries := mem_lookup_iff.mp hlookup
    have hother := List.all_eq_true.mp hsole _ hmem
    simp [hne, hname] at hother
  rw [registered_iff_erase s.registry file]
  simp only [h, Option.some.injEq, exists_eq_left']
  by_cases hname : name = ld.name old
  · subst hname
    simp [hgone]
  · simp [hname, Ne.symm hname]

end

def known (s : State C D) : String → Bool := s.events.foldl applyEvent s.names

structure Named (ld : Loader C D) (s : State C D) : Prop where
  silent : s.phase ≠ .watching → s.events = []
  names : s.phase = .watching → ∀ name, s.known name ↔ Registered ld s.registry name

lemma Named.congr (h : s.Named ld) (hphase : t.phase = s.phase) (hregistry : t.registry = s.registry)
    (hevents : t.events = s.events) (hnames : t.names = s.names) : t.Named ld where
  silent := by
    rw [hphase, hevents]
    exact h.silent
  names := by
    simp only [known, hphase, hregistry, hevents, hnames]
    exact h.names

variable {known : String → Bool}

lemma applyEvent_changed {type : DAGChangeType} {dag : D} {name other : String} (htype : type ≠ .deleted) :
    applyEvent known ⟨type, some dag, name⟩ other ↔ name = other ∨ known other := by
  have hupdate : applyEvent known ⟨type, some dag, name⟩ = update known name true := by
    cases type <;> simp_all [applyEvent]
  rw [hupdate, update_apply]
  by_cases hname : other = name
  · simp [hname]
  · simp [hname, Ne.symm hname]

lemma applyEvent_deleted {name other} :
    applyEvent known (⟨.deleted, none, name⟩ : DAGChangeEvent D) other ↔ other ≠ name ∧ known other := by
  by_cases hname : other = name
  · simp [applyEvent, hname]
  · simp [applyEvent, hname]

lemma named_loads {dag : D} (h : ∀ name, s.known name ↔ Registered ld s.registry name)
    (hload : s.load ld file = some dag) (hsole : ∀ old, s.registry.lookup file = some old →
      ld.name old = ld.name dag ∨ ld.name old ≠ "" ∧ s.sole ld file (ld.name old))
    (hop : op.loads) (name : String) : (s.handleFSEvent ld file op).known name ↔
      Registered ld (s.handleFSEvent ld file op).registry name := by
  have hregistry : (s.handleFSEvent ld file op).registry = s.registry.insert file dag := by
    simp [handleFSEvent, hop, hload]
  rw [hregistry, registered_insert]
  cases hold : s.registry.lookup file with
  | none =>
    have hknown : (s.handleFSEvent ld file op).known = applyEvent s.known ⟨.added, some dag, ld.name dag⟩ := by
      simp [known, handleFSEvent, hop, hload, hold]
    rw [hknown, applyEvent_changed (by simp), h, registered_erase_of_none hold]
  | some old =>
    by_cases hsame : ld.name old = ld.name dag
    · have hknown : (s.handleFSEvent ld file op).known = applyEvent s.known ⟨.updated, some dag, ld.name dag⟩ := by
        simp [known, handleFSEvent, hop, hload, hold, hsame]
      rw [hknown, applyEvent_changed (by simp), h, registered_iff_erase s.registry file]
      simp [hold, hsame]
    obtain ⟨hne, hsole⟩ := (hsole old hold).resolve_left hsame
    have hknown : (s.handleFSEvent ld file op).known =
        applyEvent (applyEvent s.known (⟨.deleted, none, ld.name old⟩ : DAGChangeEvent D))
          ⟨.added, some dag, ld.name dag⟩ := by simp [known, handleFSEvent, hop, hload, hold, hsame, hne]
    rw [hknown, applyEvent_changed (by simp), applyEvent_deleted, h, registered_erase_of_sole hold hsole]

lemma named_removes (h : ∀ name, s.known name ↔ Registered ld s.registry name)
    (hsole : ∀ old, s.registry.lookup file = some old → s.sole ld file (ld.name old))
    (hop : op.loads = false) (name : String) : (s.handleFSEvent ld file op).known name ↔
      Registered ld (s.handleFSEvent ld file op).registry name := by
  have hregistry : (s.handleFSEvent ld file op).registry = s.registry.erase file := by simp [handleFSEvent, hop]
  rw [hregistry]
  cases hold : s.registry.lookup file with
  | none =>
    have hknown : (s.handleFSEvent ld file op).known = s.known := by simp [known, handleFSEvent, hop, hold]
    rw [hknown, h, registered_erase_of_none hold]
  | some old =>
    have hknown : (s.handleFSEvent ld file op).known =
        applyEvent s.known (⟨.deleted, none, ld.name old⟩ : DAGChangeEvent D) := by simp [known, handleFSEvent, hop, hold]
    rw [hknown, applyEvent_deleted, h, registered_erase_of_sole hold (hsole old hold)]

lemma handleFSEvent_reports (reports : String → List Op) (op : Op) :
    ({s with reports := reports} : State C D).handleFSEvent ld file op =
      {s.handleFSEvent ld file op with reports := reports} := by
  have hload : ({s with reports := reports} : State C D).load ld file = s.load ld file := rfl
  unfold handleFSEvent
  rw [hload]
  split_ifs
  · cases s.load ld file <;> rfl
  · rfl

lemma named_handle (hgood : ∀ file, s.Good ld file) (h : s.Named ld)
    (hquiet : s.quiet ld (.handle file)) (hstep : s.step ld (.handle file) = some t) : t.Named ld := by
  simp only [step] at hstep
  cases hreports : s.reports file with
  | nil => simp [hreports] at hstep
  | cons op rest =>
    simp only [hreports] at hstep
    split_ifs at hstep with hyaml
    · cases hstep
      -- A report of a YAML file is pending, so the watcher is there.
      have hphase : s.phase = .watching := by
        have hfollows := (hgood file).follows hyaml
        have hpending : (s.view file).reports ≠ [] := by simp [view, hreports]
        unfold Follows at hfollows
        split at hfollows
        · exact absurd hfollows.1 hpending
        · exact absurd hfollows.1 hpending
        · assumption
      rw [handleFSEvent_reports]
      refine ⟨by simp [hphase], fun _ => ?_⟩
      have hnames := h.names hphase
      simp only [quiet, soleName, hreports] at hquiet
      cases hop : op.loads with
      | false =>
        refine named_removes hnames (fun old hold => ?_) hop
        simpa [hold, hop] using hquiet
      | true =>
        cases hload : s.load ld file with
        | none =>
          have hsame : s.handleFSEvent ld file op = s := by simp [handleFSEvent, hop, hload]
          rw [hsame]
          exact hnames
        | some dag =>
          refine named_loads hnames hload (fun old hold => ?_) hop
          simpa [hold, hop, hload] using hquiet
    · cases hstep
      exact h.congr rfl rfl rfl rfl

@[simp]
lemma report_registry (op : Op) : (s.report file op).registry = s.registry := by
  unfold report
  split_ifs <;> rfl

@[simp]
lemma report_events (op : Op) : (s.report file op).events = s.events := by
  unfold report
  split_ifs <;> rfl

@[simp]
lemma report_names (op : Op) : (s.report file op).names = s.names := by
  unfold report
  split_ifs <;> rfl

lemma named_watch (h : s.Named ld) (hstep : s.step ld .watch = some t) : t.Named ld := by
  simp only [step] at hstep
  split at hstep
  · next hphase =>
    cases hstep
    refine ⟨by simp, fun _ name => ?_⟩
    have hevents : s.events = [] := h.silent (by simp [hphase])
    simp only [known, hevents, foldl_nil, List.any_eq_true, decide_eq_true_eq]
    constructor
    · rintro ⟨⟨file, dag⟩, hmem, hname⟩
      exact ⟨file, dag, mem_lookup_iff.mpr hmem, hname⟩
    · rintro ⟨file, dag, hlookup, hname⟩
      exact ⟨⟨file, dag⟩, mem_lookup_iff.mp hlookup, hname⟩
  · simp at hstep

lemma named_step {l} (hgood : ∀ file, s.Good ld file) (h : s.Named ld)
    (hquiet : s.quiet ld l) (hstep : s.step ld l = some t) : t.Named ld := by
  cases l with
  | write file content =>
    cases hstep
    exact h.congr (by simp) (by simp [putFile]) (by simp [putFile]) (by simp [putFile])
  | delete file =>
    obtain ⟨-, rfl⟩ := of_guarded hstep
    exact h.congr (by simp) (by simp [removeFile]) (by simp [removeFile]) (by simp [removeFile])
  | rename file target =>
    simp only [step] at hstep
    split at hstep
    · simp at hstep
    split_ifs at hstep
    cases hstep
    exact h.congr (by simp) (by simp [putFile, removeFile]) (by simp [putFile, removeFile])
      (by simp [putFile, removeFile])
  | list =>
    simp only [step] at hstep
    split at hstep
    · next hphase =>
      cases hstep
      exact ⟨fun _ => h.silent (by simp [hphase]), by simp⟩
    · simp at hstep
  | load =>
    simp only [step] at hstep
    split at hstep
    · next file rest hphase =>
      cases hstep
      have hevents : (s.loadEntry ld file).events = s.events := by
        unfold loadEntry
        split_ifs
        · cases s.load ld file <;> rfl
        · rfl
      exact ⟨fun _ => hevents.trans (h.silent (by simp [hphase])), by simp⟩
    · simp at hstep
  | watch => exact named_watch h hstep
  | handle file => exact named_handle hgood h hquiet hstep

/-! ### The registry follows the directory -/

/-- The registry agrees with the directory about a file: a file that is gone has no entry, one that
loads has its current content, and any entry is the last content of the file that loads. -/
structure UpToDate (ld : Loader C D) (s : State C D) (file : String) : Prop where
  gone : s.dir.lookup file = none → s.registry.lookup file = none
  current : ∀ dag, s.load ld file = some dag → s.registry.lookup file = some dag
  kept : ∀ dag, s.registry.lookup file = some dag → s.version file = some dag

lemma upToDate_of_good (h : s.Good ld file) (hyaml : isYAMLFile file)
    (hphase : s.phase = .watching) (hreports : s.reports file = []) : s.UpToDate ld file := by
  have htracks : (s.view file).Tracks (ld.load file) := by
    have hfollows := h.follows hyaml
    simpa only [Follows, hphase] using hfollows
  have hnone : (s.view file).reports = [] := hreports
  have hcurrent : ∀ dag, s.load ld file = some dag → s.registry.lookup file = some dag := by
    intro dag hdag
    exact ((htracks.current dag hdag).resolve_left (by simp [hnone])).2
  have hkept : ∀ dag, s.registry.lookup file = some dag → s.version file = some dag := by
    intro dag hdag
    cases hload : s.load ld file with
    | none =>
      have hentry := htracks.kept hload
      simp only [hnone, not_mem_nil, false_and, exists_false, false_or] at hentry
      exact hentry dag hdag
    | some current =>
      have hentry := hcurrent current hload
      rw [hdag] at hentry
      exact (h.sound.newest current hload).trans hentry.symm
  refine ⟨fun hgone => ?_, hcurrent, hkept⟩
  cases hentry : s.registry.lookup file with
  | none => rfl
  | some dag =>
    have hversion : s.version file = none := h.sound.absent hgone
    rw [hkept dag hentry] at hversion
    cases hversion

/-- Once the watcher is there and every report is handled, each YAML file is up to date in the
registry, the registry has nothing else, and the emitted events turn the names known after `Init` into
those of the registry. -/
theorem registry_follows_directory (ld : Loader C D) (dir : AList fun _ : String => C)
    (h : Reach (step ld) (fun s l => s.quiet ld l) (start ld dir) s)
    (hphase : s.phase = .watching) (hreports : ∀ file, s.reports file = []) :
    (∀ file, isYAMLFile file → s.UpToDate ld file) ∧ (∀ file, isYAMLFile file = false → s.registry.lookup file = none) ∧
      ∀ name, s.events.foldl applyEvent s.names name ↔ Registered ld s.registry name := by
  have hinv : (∀ file, s.Good ld file) ∧ s.Named ld := by
    refine h.invariant (P := fun s => (∀ file, s.Good ld file) ∧ s.Named ld)
      ⟨good_start dir, fun _ => rfl, by simp [start]⟩ ?_
    intro a l b _ ha hquiet hstep
    exact ⟨good_step ha.1 hquiet hstep, named_step ha.1 ha.2 hquiet hstep⟩
  exact ⟨fun file hyaml => upToDate_of_good (hinv.1 file) hyaml hphase (hreports file),
    fun file hother => (hinv.1 file).other hother, hinv.2.names hphase⟩

def nameOnly : Loader (Option String) String := ⟨fun _ content => content, id⟩

def single (file : String) (content : Option String) : AList fun _ : String => Option String :=
  AList.singleton file content

def initLabels : List (Label (Option String) × ℕ) := [(.list, 1), (.load, 2), (.watch, 1)]

def replaced : State (Option String) String :=
  follow (step nameOnly) (quiet nameOnly) (start nameOnly (single "a.yaml" (some "job")))
    (initLabels++[(.write "b.yaml" (some "task"), 1), (.handle "b.yaml", 1), (.delete "a.yaml", 1), (.handle "a.yaml", 1)])

theorem registry_follows_replacement : replaced.registry.lookup "b.yaml" = some "task" ∧
      (∀ file, isYAMLFile file → replaced.UpToDate nameOnly file) ∧
      (∀ file, isYAMLFile file = false → replaced.registry.lookup file = none) ∧
      ∀ name, replaced.events.foldl applyEvent replaced.names name ↔ Registered nameOnly replaced.registry name := by
  have hreports : replaced.reports = update (update (update
      (update (fun _ => []) "b.yaml" [.create]) "b.yaml" []) "a.yaml" [.remove]) "a.yaml" [] := rfl
  exact ⟨by decide +kernel, registry_follows_directory nameOnly _
    (reach_follow (fun _ _ h => h) _ _) rfl fun file => by simp [hreports, update_apply]⟩

/-- `a.yaml` is copied to `b.yaml` and then deleted. -/
def copied : State (Option String) String :=
  play (step nameOnly) (start nameOnly (single "a.yaml" (some "job")))
    (initLabels++[(.write "b.yaml" (some "job"), 1), (.handle "b.yaml", 1), (.delete "a.yaml", 1), (.handle "a.yaml", 1)])

/-- `a.yaml` is created after the listing and before the watcher. -/
def createdInInit : State (Option String) String :=
  play (step nameOnly) (start nameOnly ∅) [(.list, 1), (.write "a.yaml" (some "job"), 1), (.load, 1), (.watch, 1)]

/-- The DAG in `.yaml`, which has no name, is given one. -/
def named : State (Option String) String :=
  play (step nameOnly) (start nameOnly (single ".yaml" (some "")))
    (initLabels++[(.write ".yaml" (some "job"), 1), (.handle ".yaml", 1)])

/-- `a.yaml` is edited and then broken before the first report is handled. -/
def broken : State (Option String) String :=
  play (step nameOnly) (start nameOnly (single "a.yaml" (some "job")))
    (initLabels++[(.write "a.yaml" (some "task"), 1), (.write "a.yaml" none, 1), (.handle "a.yaml", 2)])

/-- The name of a copied DAG is lost with the original, a file created during `Init` has no entry,
the empty name is never deleted, and a broken file keeps a version older than its last one. -/
theorem registry_loses_directory :
    (Reach (step nameOnly) always (start nameOnly (single "a.yaml" (some "job"))) copied ∧
      copied.phase = .watching ∧ (∀ file, copied.reports file = []) ∧ copied.registry.lookup "b.yaml" = some "job" ∧
      copied.events.foldl applyEvent copied.names "job" = false) ∧
    (Reach (step nameOnly) always (start nameOnly ∅) createdInInit ∧
      createdInInit.phase = .watching ∧ (∀ file, createdInInit.reports file = []) ∧
      createdInInit.load nameOnly "a.yaml" = some "job" ∧ createdInInit.registry.lookup "a.yaml" = none) ∧
    (Reach (step nameOnly) always (start nameOnly (single ".yaml" (some ""))) named ∧
      named.phase = .watching ∧ (∀ file, named.reports file = []) ∧
      named.registry.entries.map (fun e => nameOnly.name e.2) = ["job"] ∧
      named.events.foldl applyEvent named.names "") ∧
    (Reach (step nameOnly) always (start nameOnly (single "a.yaml" (some "job"))) broken ∧
      broken.phase = .watching ∧ (∀ file, broken.reports file = []) ∧
      broken.version "a.yaml" = some "task" ∧ broken.registry.lookup "a.yaml" = some "job") := by
  have hcopied : copied.reports = update (update (update
      (update (fun _ => []) "b.yaml" [.create]) "b.yaml" []) "a.yaml" [.remove]) "a.yaml" [] := rfl
  have hnamed : named.reports = update (update (fun _ => []) ".yaml" [.write]) ".yaml" [] := rfl
  have hbroken : broken.reports = update (update (update (update
      (fun _ => []) "a.yaml" [.write]) "a.yaml" [.write, .write]) "a.yaml" [.write]) "a.yaml" [] := rfl
  refine ⟨⟨reach_play _ _, rfl, fun file => ?_, by decide +kernel⟩, ⟨reach_play _ _, rfl, fun _ => rfl, by decide +kernel⟩,
    ⟨reach_play _ _, rfl, fun file => ?_, by decide +kernel⟩,
    ⟨reach_play _ _, rfl, fun file => ?_, by decide +kernel⟩⟩
  · simp [hcopied, update_apply]
  · simp [hnamed, update_apply]
  · simp [hbroken, update_apply]

end State
end Ayatsuri.EntryReader

/-! ### The planner's side -/

namespace Ayatsuri.Scheduler.Planner
open EntryReader

/-- `handleEvent` for the DAG that the planner model follows; `now` and `observedAt` are the two
readings of the clock. -/
def handleEvent (cfg : Config) (p : Planner) (e : DAGChangeEvent Dag) (now observedAt : ℤ) : Planner :=
  match e.type, e.dag with
  | .added, some dag => (p.handleAdded dag now observedAt).1
  | .updated, some dag => (p.handleUpdated cfg dag now observedAt).1
  | .deleted, _ => p.handleDeleted
  | _, none => p

end Ayatsuri.Scheduler.Planner
