import Ayatsuri.LineLog
import Ayatsuri.TransitionSystem

/-! The status file of an attempt (`internal/persis/filedagrun/attempt.go`, `writer.go`): handles append
lines to the file they have opened, and closing a handle replaces the file by one with its last status. An
open file is an inode, which stays what it is when the path is given to another one. `S` is the type of
the statuses. -/
namespace Ayatsuri.StatusFile
open TransitionSystem LineLog
variable {S : Type}

/-- The buffer of a `Writer`: a status with a longer text is written separately from its end of line. -/
def bufferSize : ℕ := 4096

structure Inode (S : Type) where
  text : List (Option S)
  modTime : ℕ
  deriving DecidableEq

structure Disk (S : Type) where
  inodes : List (Inode S)
  path : Option ℕ
  deriving DecidableEq

namespace Disk

def text (d : Disk S) (ino : ℕ) : List (Option S) := ((d.inodes[ino]?).map Inode.text).getD []

variable (d : Disk S)

def append (ino : ℕ) (pieces : List (Option S)) (now : ℕ) : Disk S :=
  {d with inodes := d.inodes.modify ino fun n => ⟨n.text++pieces, now⟩}

def create (text : List (Option S)) (now : ℕ) : Disk S := {d with inodes := d.inodes++[⟨text, now⟩]}

/-- `parseStatusFileWithContext` on the path; `none` is an error or a file without a status. -/
def load : Option S := d.path.bind fun ino => parse (d.text ino)

def stat (length : S → ℕ) (d : Disk S) : Option (ℕ × ℕ) :=
  d.path.bind fun ino => (d.inodes[ino]?).map fun n => ((n.text.map fun piece => piece.elim 1 length).sum, n.modTime)

end Disk

/-! ### Reading -/

structure Entry (S : Type) where
  data : S
  (size lastModified : ℕ)
  deriving DecidableEq

def Entry.isStale (e : Entry S) (size modTime : ℕ) : Bool := e.lastModified < modTime || e.size ≠ size

def Entry.misleads [DecidableEq S] (length : S → ℕ) (d : Disk S) (e : Entry S) : Bool :=
  ((d.stat length).any fun st => !e.isStale st.1 st.2) && some e.data ≠ d.load

variable (length : S → ℕ)

/-- `ReadStatus` in a process with the given cache entry for the file; `none` is an error. -/
def readStatus (d : Disk S) (cached : Option (Entry S)) : Option S :=
  match d.stat length, cached with
  | some (size, modTime), some e => if e.isStale size modTime then d.load else some e.data
  | _, _ => d.load

/-- The cache entry after `ReadStatus`. -/
def refresh (d : Disk S) (cached : Option (Entry S)) : Option (Entry S) :=
  match d.stat length with
  | none => cached
  | some (size, modTime) =>
    if cached.all fun e => e.isStale size modTime then
      match d.load with
      | some st => some ⟨st, size, modTime⟩
      | none => cached
    else cached

/-! ### Writing and closing -/

/-- Where an operation of a handle is. In a compaction the flag says that it is part of `Close`. -/
inductive Pc (S : Type)
  | idle
  /-- `Write`: the text is in the file, the end of its line is not. -/
  | newline (st : S)
  /-- `Write`: the line is in the file and will be acknowledged. -/
  | flushed (st : S)
  /-- `compactLocked`: open the status file and read it. -/
  | parse (close : Bool)
  | parseFrom (close : Bool) (ino : ℕ)
  | temp (close : Bool) (st : S)
  /-- `safeRename`, with the temporary file. -/
  | stat (close : Bool) (tmp : ℕ)
  | remove (close : Bool) (tmp : ℕ)
  | rename (close : Bool) (tmp : ℕ)
  | closing
  deriving DecidableEq

structure Handle (S : Type) where
  proc : ℕ
  writer : Option ℕ
  pc : Pc S
  deriving DecidableEq

inductive Operation (S : Type)
  | openFile
  | write (st : S)
  | close | compact
  deriving DecidableEq

structure Answer where
  now : ℕ
  ok : Bool
  deriving DecidableEq

structure Outcome (S : Type) where
  disk : Disk S
  handle : Handle S
  /-- The status whose `Write` returns nil. -/
  acked : Option S
  invalidated : Bool
  deriving DecidableEq

namespace Handle

def finish (h : Handle S) (close : Bool) : Handle S := {h with pc := if close then .closing else .idle}

def start (length : S → ℕ) (d : Disk S) (now : ℕ) (h : Handle S) : Operation S → Option (Outcome S)
  | .openFile =>
    match h.writer, d.path with
    | some _, _ => none
    | none, some ino => some ⟨d, {h with writer := some ino}, none, false⟩
    | none, none =>
      some ⟨{d.create [] now with path := some d.inodes.length}, {h with writer := some d.inodes.length}, none, false⟩
  | .write st =>
    match h.writer with
    | none => none
    | some ino =>
      if length st < bufferSize then
        some ⟨d.append ino [some st, none] now, {h with pc := .flushed st}, none, false⟩
      else some ⟨d.append ino [some st] now, {h with pc := .newline st}, none, false⟩
  | .close =>
    match h.writer with
    | none => none
    | some _ => some ⟨d, {h with pc := .parse true}, none, false⟩
  | .compact => some ⟨d, {h with pc := .parse false}, none, false⟩

def act (d : Disk S) (a : Answer) (h : Handle S) : Option (Outcome S) :=
  match h.pc with
  | .idle => none
  | .newline st => h.writer.map fun ino => ⟨d.append ino [none] a.now, {h with pc := .flushed st}, none, false⟩
  | .flushed st => some ⟨d, {h with pc := .idle}, some st, true⟩
  | .parse close =>
    match d.path with
    | none => some ⟨d, h.finish close, none, false⟩
    | some ino => some ⟨d, {h with pc := .parseFrom close ino}, none, false⟩
  | .parseFrom close ino =>
    match LineLog.parse (d.text ino) with
    | none => some ⟨d, h.finish close, none, false⟩
    | some st => some ⟨d, {h with pc := .temp close st}, none, false⟩
  | .temp close st =>
    if a.ok then
      some ⟨d.create [some st, none] a.now, {h with pc := .stat close d.inodes.length}, none, false⟩
    else some ⟨d, h.finish close, none, false⟩
  | .stat close tmp =>
    match d.path with
    | none => some ⟨d, {h with pc := .rename close tmp}, none, false⟩
    | some _ => some ⟨d, {h with pc := .remove close tmp}, none, false⟩
  | .remove close tmp =>
    if a.ok ∧ d.path ≠ none then
      some ⟨{d with path := none}, {h with pc := .rename close tmp}, none, false⟩
    else some ⟨d, h.finish close, none, false⟩
  | .rename close tmp =>
    if a.ok then some ⟨{d with path := some tmp}, h.finish close, none, true⟩
    else some ⟨d, h.finish close, none, false⟩
  | .closing => some ⟨d, {h with writer := none, pc := .idle}, none, true⟩

end Handle

open Disk

/-! What a compaction keeps when its handle is the only one that is writing: at each step of `Close` and
`Compact`, the status file or the replacement has the last status. -/

/-! ### The text of the file -/

namespace Disk
variable {d : Disk S} {ino : ℕ} (pieces : List (Option S))

@[simp] lemma path_append (now : ℕ) : (d.append ino pieces now).path = d.path := rfl

@[simp] lemma length_append (now : ℕ) :
    (d.append ino pieces now).inodes.length = d.inodes.length := by simp [append]

variable (text : List (Option S))

@[simp] lemma length_create (now : ℕ) :
    (d.create text now).inodes.length = d.inodes.length+1 := by simp [create]

lemma text_append (h : ino < d.inodes.length) (pieces : List (Option S)) (now : ℕ) :
    (d.append ino pieces now).text ino = d.text ino++pieces := by simp [text, append, h]

lemma text_create_of_lt (h : ino < d.inodes.length) (text : List (Option S)) (now : ℕ) :
    (d.create text now).text ino = d.text ino := by simp [Disk.text, create, List.getElem?_append_left h]

lemma text_create_self (now : ℕ) : (d.create text now).text d.inodes.length = text := by simp [Disk.text, create]

def Reads (d : Disk S) (ino : ℕ) (line : List S) (last : Option S) : Prop :=
  ino < d.inodes.length ∧ scan (d.text ino) = (line, last)

def Holds (d : Disk S) (last : Option S) : Prop :=
  d.path = none ∧ last = none ∨ ∃ ino, d.path = some ino ∧ d.Reads ino [] last

variable {last : Option S}

lemma Reads.create {line} (h : d.Reads ino line last) (text : List (Option S))
    (now : ℕ) : (d.create text now).Reads ino line last := by
  refine ⟨?_, ?_⟩
  · rw [length_create]
    exact Nat.lt_succ_of_lt h.1
  · rw [text_create_of_lt h.1]
    exact h.2

lemma Holds.create (h : d.Holds last) (text : List (Option S)) (now : ℕ) : (d.create text now).Holds last := by
  rcases h with h | ⟨ino, hpath, hreads⟩
  · exact .inl h
  · exact .inr ⟨ino, hpath, hreads.create text now⟩

lemma Holds.load (h : d.Holds last) : d.load = last := by
  rcases h with ⟨hpath, rfl⟩ | ⟨ino, hpath, hreads⟩
  · simp [Disk.load, hpath]
  · simp [Disk.load, hpath, parse_of_scan hreads.2]

lemma Holds.path_of_some {st} (h : d.Holds (some st)) : ∃ ino, d.path = some ino := by
  rcases h with ⟨-, hnone⟩ | ⟨ino, hpath, -⟩
  · cases hnone
  · exact ⟨ino, hpath⟩

end Disk

variable {d : Disk S}

lemma Entry.data_of_misleads [DecidableEq S] {length : S → ℕ} {e : Entry S} {st : ℕ × ℕ}
    (h : e.misleads length d = false) (hstat : d.stat length = some st) (hstale : ¬ e.isStale st.1 st.2) :
    some e.data = d.load := by simpa [Entry.misleads, hstat, hstale] using h

lemma readStatus_eq_load_iff [DecidableEq S] {length : S → ℕ} {cached : Option (Entry S)} :
    readStatus length d cached = d.load ↔ (cached.any fun e => e.misleads length d) = false := by
  unfold readStatus
  cases hstat : d.stat length with
  | none => cases cached <;> simp [Entry.misleads, hstat]
  | some st =>
    cases cached with
    | none => simp
    | some e => by_cases hstale : e.isStale st.1 st.2 = true <;> simp [Entry.misleads, hstat, hstale]

/-! ### The steps of a compaction -/

def Pc.inGap : Pc S → Bool
  | .rename _ _ => true
  | _ => false

/-- In `Close` or `Compact`. -/
@[simp] def Pc.isCompacting : Pc S → Bool
  | .idle | .newline _ | .flushed _ => false
  | _ => true

def Pc.Keeps (d : Disk S) (last : Option S) : Pc S → Prop
  | .idle | .parse _ | .closing => d.Holds last
  | .newline st => ∃ ino, d.path = some ino ∧ d.Reads ino [st] last
  | .flushed st => ∃ ino, d.path = some ino ∧ d.Reads ino [] (some st)
  | .parseFrom _ ino => d.path = some ino ∧ d.Reads ino [] last
  | .temp _ st => last = some st ∧ d.Holds last
  | .stat _ tmp | .remove _ tmp => (∃ st, last = some st) ∧ d.Holds last ∧ d.Reads tmp [] last
  | .rename _ tmp => d.path = none ∧ d.Reads tmp [] last

lemma Pc.Keeps.holds {last} {pc : Pc S} (h : pc.Keeps d last)
    (hc : pc = .idle ∨ pc.isCompacting) (hgap : pc.inGap = false) : d.Holds last := by
  cases pc with
  | idle | parse | closing => exact h
  | newline | flushed => simp [isCompacting] at hc
  | parseFrom close ino => exact .inr ⟨ino, h⟩
  | temp => exact h.2
  | stat | remove => exact h.2.1
  | rename => cases hgap

lemma Pc.Keeps.reads {last} {pc : Pc S} {ino} (h : pc.Keeps d last)
    (hc : pc = .idle ∨ pc.isCompacting) (hpath : d.path = some ino) : d.Reads ino [] last := by
  have hgap : pc.inGap = false := by
    cases pc with
    | rename => simp [h.1] at hpath
    | idle | newline | flushed | parse | parseFrom | temp | stat | remove | closing => rfl
  rcases h.holds hc hgap with ⟨hnone, -⟩ | ⟨ino', hpath', hreads⟩
  · simp [hnone] at hpath
  · rwa [Option.some.inj (hpath.symm.trans hpath')]

namespace Handle
variable {d : Disk S} {last : Option S} {h : Handle S} {a : Answer} {o : Outcome S}

lemma keeps_finish (hd : d.Holds last) (close : Bool) : (h.finish close).pc.Keeps d last := by cases close <;> exact hd

variable (hc : h.pc.isCompacting)
include hc

lemma keeps_act (hkeeps : h.pc.Keeps d last)
    (hok : h.pc.inGap → a.ok) (hact : h.act d a = some o) : o.handle.pc.Keeps o.disk last := by
  unfold Handle.act at hact
  cases hpc : h.pc with
  | idle | newline | flushed => simp [hpc] at hc
  | parse close =>
    simp only [hpc] at hkeeps hact
    rcases hkeeps with ⟨hpath, hlast⟩ | ⟨ino, hpath, hreads⟩
    · simp only [hpath, Option.some.injEq] at hact
      subst hact
      exact keeps_finish (.inl ⟨hpath, hlast⟩) close
    simp only [hpath, Option.some.injEq] at hact
    subst hact
    exact ⟨hpath, hreads⟩
  | parseFrom close ino =>
    simp only [hpc] at hkeeps hact
    obtain ⟨hpath, hreads⟩ := hkeeps
    have hd : d.Holds last := .inr ⟨ino, hpath, hreads⟩
    rw [parse_of_scan hreads.2] at hact
    cases hlast : last with
    | none =>
      simp only [hlast, Option.some.injEq] at hact
      subst hact
      rw [hlast] at hd
      exact keeps_finish hd close
    | some st =>
      simp only [hlast, Option.some.injEq] at hact
      subst hact
      rw [hlast] at hd
      exact ⟨rfl, hd⟩
  | temp close st =>
    simp only [hpc] at hkeeps hact
    obtain ⟨hlast, hd⟩ := hkeeps
    split_ifs at hact <;> cases hact
    · refine ⟨⟨st, hlast⟩, hd.create _ _, by simp, ?_⟩
      rw [Disk.text_create_self, hlast]
      exact scan_single st
    · exact keeps_finish hd close
  | stat close tmp =>
    simp only [hpc] at hkeeps hact
    obtain ⟨⟨st, hlast⟩, hd, htmp⟩ := hkeeps
    obtain ⟨ino, hpath⟩ := Disk.Holds.path_of_some (hlast ▸ hd)
    simp only [hpath, Option.some.injEq] at hact
    subst hact
    exact ⟨⟨st, hlast⟩, hd, htmp⟩
  | remove close tmp =>
    simp only [hpc] at hkeeps hact
    obtain ⟨-, hd, htmp⟩ := hkeeps
    split_ifs at hact <;> cases hact
    · exact ⟨rfl, htmp⟩
    · exact keeps_finish hd close
  | rename close tmp =>
    simp only [hpc, hok (by rw [hpc]; rfl), if_true, Option.some.injEq] at hkeeps hact
    subst hact
    exact keeps_finish (d := {d with path := some tmp}) (.inr ⟨tmp, rfl, hkeeps.2⟩) close
  | closing =>
    simp only [hpc, Option.some.injEq] at hkeeps hact
    subst hact
    exact hkeeps

lemma act_cases (hact : h.act d a = some o) : (o.handle.pc = .idle ∨ o.handle.pc.isCompacting) ∧
      ((∃ text now, o.disk = d.create text now) ∨ ∃ path, o.disk = {d with path := path}) := by
  have hfinish : ∀ close, (h.finish close).pc = .idle ∨ (h.finish close).pc.isCompacting := by
    intro close
    cases close <;> simp [Handle.finish]
  unfold Handle.act at hact
  cases hpc : h.pc with
  | idle | newline | flushed => simp [hpc] at hc
  | parse close | parseFrom close ino =>
    simp only [hpc] at hact
    split at hact <;> cases hact
    · exact ⟨hfinish close, .inr ⟨_, rfl⟩⟩
    · exact ⟨.inr rfl, .inr ⟨_, rfl⟩⟩
  | temp close st =>
    simp only [hpc] at hact
    split_ifs at hact <;> cases hact
    · exact ⟨.inr rfl, .inl ⟨_, _, rfl⟩⟩
    · exact ⟨hfinish close, .inr ⟨_, rfl⟩⟩
  | stat close tmp =>
    simp only [hpc] at hact
    split at hact <;> cases hact <;> exact ⟨.inr rfl, .inr ⟨_, rfl⟩⟩
  | remove close tmp =>
    simp only [hpc] at hact
    split_ifs at hact <;> cases hact
    · exact ⟨.inr rfl, .inr ⟨_, rfl⟩⟩
    · exact ⟨hfinish close, .inr ⟨_, rfl⟩⟩
  | rename close tmp =>
    simp only [hpc] at hact
    split_ifs at hact <;> cases hact <;> exact ⟨hfinish close, .inr ⟨_, rfl⟩⟩
  | closing =>
    simp only [hpc, Option.some.injEq] at hact
    subst hact
    exact ⟨.inl rfl, .inr ⟨_, rfl⟩⟩

lemma reads_act {ino line} (hact : h.act d a = some o)
    (hreads : d.Reads ino line last) : o.disk.Reads ino line last := by
  rcases (act_cases hc hact).2 with ⟨text, now, hdisk⟩ | ⟨path, hdisk⟩
  · rw [hdisk]
    exact hreads.create text now
  · rw [hdisk]
    exact hreads

end Handle

/-! `CompareAndSwapLatestAttemptStatus` (`internal/persis/filedagrun/store.go`) on the status file of the latest
attempt, through the cache of the store. The mutation works on the object that the cache holds; closing the
attempt drops the entry and compacts the file. -/

/-- How the compaction of `Close` ends: before it removes the file, with the file replaced, or with the file
removed and the rename failing. -/
inductive Compacted
  | skipped | replaced | lost
  deriving DecidableEq

structure Swap (S : Type) where
  /-- The status has the expected attempt ID and state. -/
  expected : S → Bool
  opens : Bool
  mutate : S → S
  (mutates writes : Bool)
  compacted : Compacted
  now : ℕ

structure Swapped (S : Type) where
  disk : Disk S
  cached : Option (Entry S)
  status : Option S
  swapped : Bool

def Disk.close (d : Disk S) (c : Swap S) : Disk S :=
  match d.load, c.compacted with
  | none, _ | _, .skipped => d
  | some st, .replaced => {d.create [some st, none] c.now with path := some d.inodes.length}
  | some st, .lost => {d.create [some st, none] c.now with path := none}

def Disk.write (d : Disk S) (st : S) (now : ℕ) : Disk S := d.path.elim d fun ino => d.append ino [some st, none] now

def compareAndSwap (d : Disk S) (cached : Option (Entry S)) (c : Swap S) : Swapped S :=
  match readStatus length d cached with
  | none => ⟨d, refresh length d cached, none, false⟩
  | some st =>
    if !c.expected st then ⟨d, refresh length d cached, some st, false⟩
    else if !c.opens then ⟨d, refresh length d cached, none, false⟩
    else if !c.mutates || !c.writes then ⟨d.close c, none, none, false⟩
    else ⟨(d.write (c.mutate st) c.now).close c, none, some (c.mutate st), true⟩

variable {length : S → ℕ} {d : Disk S} {cached : Option (Entry S)} {c : Swap S}

lemma readStatus_none : readStatus length d none = d.load := by
  unfold readStatus
  cases d.stat length <;> rfl

lemma readStatus_refresh : readStatus length d (refresh length d cached) = readStatus length d cached := by
  unfold readStatus refresh
  cases hstat : d.stat length with
  | none => rfl
  | some st =>
    cases hload : d.load with
    | none => simp
    | some last =>
      have hfresh : (⟨last, st.1, st.2⟩ : Entry S).isStale st.1 st.2 = false := by simp [Entry.isStale]
      cases cached with
      | none => simp [hfresh]
      | some e => by_cases hstale : e.isStale st.1 st.2 = true <;> simp [hstale, hfresh]

lemma load_close (h : c.compacted ≠ .lost) : (d.close c).load = d.load := by
  unfold close
  split
  · rfl
  · rfl
  · next st hload _ =>
    rw [hload]
    simp [load, text, create, LineLog.parse, LineLog.scan_single]
  · next hlost => exact absurd hlost h

lemma load_close_lost (h : c.compacted = .lost) : (d.close c).load = none := by
  unfold close
  cases hload : d.load with
  | none => simpa [h] using hload
  | some st => simp [h, load]

/-- A call that does not swap is without an effect if it ends before the mutation or else reads what the file
holds and does not lose the file. -/
theorem failed_swap_without_effect_iff [DecidableEq S] (length : S → ℕ) (d : Disk S) (cached : Option (Entry S))
    (c : Swap S) (h : (compareAndSwap length d cached c).swapped = false) :
    readStatus length (compareAndSwap length d cached c).disk (compareAndSwap length d cached c).cached =
        readStatus length d cached ↔
      (∀ st, readStatus length d cached = some st → c.expected st → c.opens = false) ∨
        (cached.any fun e => e.misleads length d) = false ∧ c.compacted ≠ .lost := by
  unfold compareAndSwap at h ⊢
  cases hread : readStatus length d cached with
  | none => simp [readStatus_refresh, hread]
  | some st =>
    by_cases hexpected : c.expected st
    · by_cases hopens : c.opens
      · have hfails : (!c.mutates || !c.writes) := by
          by_contra hdone
          simp [hread, hexpected, hopens, hdone] at h
        have hbegins : ¬ ∀ st', some st = some st' → c.expected st' → c.opens = false := by
          intro hearly
          simpa [hopens] using hearly st rfl hexpected
        rw [or_iff_right hbegins, ← readStatus_eq_load_iff, hread]
        simp only [hexpected, hopens, hfails, Bool.not_true, Bool.false_eq_true, if_false, if_true, readStatus_none]
        by_cases hlost : c.compacted = .lost
        · simp [load_close_lost hlost, hlost]
        · simp only [load_close hlost, hlost, ne_eq, not_false_eq_true, and_true]
          exact eq_comm
      · simp [hexpected, hopens, readStatus_refresh, hread]
    · simp [hexpected, readStatus_refresh, hread]

def stored : Disk ℕ := ⟨[⟨[some 1, none], 0⟩], some 0⟩

/-- A call whose mutation fails. -/
def failing (cached : Option (Entry ℕ)) (compacted : Compacted) : Swapped ℕ :=
  compareAndSwap (fun _ => 10) stored cached ⟨fun _ => true, true, fun _ => 2, false, true, compacted, 5⟩

def Swapped.reads (r : Swapped ℕ) : Option ℕ := readStatus (fun _ => 10) r.disk r.cached

theorem failed_swap_without_effect_stored : (failing none .replaced).reads = some 1 :=
  (failed_swap_without_effect_iff (fun _ => 10) stored none _ (by decide)).mpr (.inr ⟨rfl, by decide⟩)

/-- Dropping the entry brings up what another process has written, and closing the attempt loses the file if
the rename fails. -/
theorem failed_swap_changes_status :
    (readStatus (fun _ => 10) stored (some ⟨7, 11, 0⟩) = some 7 ∧ (failing (some ⟨7, 11, 0⟩) .replaced).swapped = false ∧
        (failing (some ⟨7, 11, 0⟩) .replaced).reads = some 1) ∧
      readStatus (fun _ => 10) stored none = some 1 ∧ (failing none .lost).swapped = false ∧
        (failing none .lost).reads = none := by decide

end Ayatsuri.StatusFile
