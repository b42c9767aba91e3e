import Ayatsuri.DispatchClaims

/-! What a step of a call does to the dispatch directory, and what it leaves to the other calls. -/
namespace Ayatsuri.Distributed
open SortedMerge TransitionSystem List Option Dir

def AtMostOnce : List Outcome → Prop
  | [] => True
  | o::log => .accepted o.task ∉ log ∧ AtMostOnce log

instance : DecidablePred AtMostOnce
  | [] => inferInstanceAs (Decidable True)
  | o::log =>
    have := instDecidablePredListOutcomeAtMostOnce log
    inferInstanceAs (Decidable (.accepted o.task ∉ log ∧ AtMostOnce log))

lemma FileName.temp_temps_ne {f : FileName} {suffix} : (f.temp suffix).temps ≠ [] := by simp [FileName.temp]

/-! ### Writing a file -/

namespace Write

def temp? (target : FileName) : Write → Option FileName
  | .create => none
  | .fill suffix | .move suffix => some (target.temp suffix)

variable {α : Type} {d d' : Dir FileName (File α)} {target : FileName} {value : α} {a : Answer} {w : Write}
  {written : Written}

def Knows (d : Dir FileName (File α)) (target : FileName) (value : α) : Write → Prop
  | .create => True
  | .fill suffix => ∃ time, d.get? (target.temp suffix) = some ⟨.fragment, time⟩
  | .move suffix => ∃ time, d.get? (target.temp suffix) = some ⟨.whole value, time⟩

/-- The steps of `writeJSONAtomic`. -/
inductive Move (d : Dir FileName (File α)) (target : FileName) (value : α) (a : Answer) :
    Write → Dir FileName (File α) → Written → Prop
  | created (fresh : d.get? (target.temp a.suffix) = none) :
      Move d target value a .create (d.put (target.temp a.suffix) ⟨.fragment, a.now⟩) (.next (.fill a.suffix))
  | refused : Move d target value a .create d .failed
  | filled (suffix : String) (present : d.get? (target.temp suffix) ≠ none) : Move d target value a (.fill suffix)
      (d.put (target.temp suffix) ⟨.whole value, a.now⟩) (.next (.move suffix))
  | missed (suffix : String) (missing : d.get? (target.temp suffix) = none) :
      Move d target value a (.fill suffix) d (.next (.move suffix))
  | moved (suffix : String) (f : File α) (found : d.get? (target.temp suffix) = some f) :
      Move d target value a (.move suffix) ((d.remove (target.temp suffix)).put target f) .done
  | lost (suffix : String) (missing : d.get? (target.temp suffix) = none) :
      Move d target value a (.move suffix) d .failed
  | dropped (w : Write) (suffix : String) (temp : w.temp? target = some (target.temp suffix)) :
      Move d target value a w (d.remove (target.temp suffix)) .failed

lemma move_of_act (h : w.act d target value a = some (d', written)) : Move d target value a w d' written := by
  cases w with
  | create =>
    simp only [act] at h
    split_ifs at h with hok hfresh
    · cases h
      exact .created (get?_eq_none.mpr hfresh)
    · cases h
      exact .refused
  | fill suffix =>
    simp only [act] at h
    split_ifs at h with hok hmem
    · cases h
      exact .filled suffix fun hnone => get?_eq_none.mp hnone hmem
    · cases h
      exact .missed suffix (get?_eq_none.mpr hmem)
    · cases h
      exact .dropped _ suffix rfl
  | move suffix =>
    simp only [act] at h
    cases hget : d.get? (target.temp suffix) with
    | none =>
      rw [hget] at h
      cases h
      exact .lost suffix hget
    | some f =>
      rw [hget] at h
      dsimp only at h
      split_ifs at h
      · cases h
        exact .moved suffix f hget
      · cases h
        exact .dropped _ suffix rfl

end Write

def Written.temp? (target : FileName) : Written → Option FileName
  | .next w => w.temp? target
  | _ => none

namespace Write
variable {α : Type} {d d' : Dir FileName (File α)} {target f : FileName} {value : α} {a : Answer} {w : Write}
  {written : Written}

structure Effect (d : Dir FileName (File α)) (target : FileName) (value : α) (w : Write) (d' : Dir FileName (File α))
    (written : Written) : Prop where
  frame : ∀ f, f ≠ target → w.temp? target ≠ some f → written.temp? target ≠ some f → d'.get? f = d.get? f
  fresh : ∀ f, written.temp? target = some f → w.temp? target = some f ∨ d.get? f = none
  temps : ∀ f, f.temps ≠ [] → d'.get? f ≠ none →
    written.temp? target = some f ∨ d.get? f ≠ none ∧ w.temp? target ≠ some f
  plain : ∀ f, f.temps = [] → (f ≠ target ∨ written ≠ .done) → d'.get? f = d.get? f
  next : ∀ w', written = .next w' → w'.Knows d' target value
  done : written = .done → ∃ time, d'.get? target = some ⟨.whole value, time⟩

variable {suffix : String}

lemma temp_ne_of_plain (hf : f.temps = []) : f ≠ target.temp suffix := by
  rintro rfl
  exact FileName.temp_temps_ne hf

lemma Effect.put {g} {w' : Write} (hw' : w'.temp? target = some (target.temp suffix))
    (hw : w.temp? target = some (target.temp suffix) ∨ w.temp? target = none ∧ d.get? (target.temp suffix) = none)
    (hknows : w'.Knows (d.put (target.temp suffix) g) target value) :
    Effect d target value w (d.put (target.temp suffix) g) (.next w') where
  frame f _ _ hf := by
    have hne : f ≠ target.temp suffix := fun heq => hf (heq ▸ hw')
    rw [get?_put, if_neg hne]
  fresh f hf := by
    obtain rfl : target.temp suffix = f := by simpa [Written.temp?, hw'] using hf
    exact hw.imp_right And.right
  temps f _ hget := by
    by_cases hne : f = target.temp suffix
    · exact .inl (hne ▸ hw')
    rw [get?_put, if_neg hne] at hget
    refine .inr ⟨hget, ?_⟩
    rcases hw with hw | ⟨hw, -⟩
    · simpa [hw] using Ne.symm hne
    · simp [hw]
  plain f hf _ := by rw [get?_put, if_neg (temp_ne_of_plain hf)]
  next w'' heq := by
    cases heq
    exact hknows
  done heq := by cases heq

lemma Effect.dropped (hw : w.temp? target = some (target.temp suffix)) :
    Effect d target value w (d.remove (target.temp suffix)) .failed where
  frame f _ hf _ := by
    have hne : f ≠ target.temp suffix := fun heq => hf (heq ▸ hw)
    rw [get?_remove, if_neg hne]
  fresh f hf := by cases hf
  temps f _ hget := by
    rw [get?_remove] at hget
    split_ifs at hget with hne
    · exact absurd rfl hget
    · exact .inr ⟨hget, by simpa [hw] using Ne.symm hne⟩
  plain f hf _ := by rw [get?_remove, if_neg (temp_ne_of_plain hf)]
  next w' heq := by cases heq
  done heq := by cases heq

lemma Effect.moved {time} (htarget : target.temps = []) :
    Effect d target value (.move suffix) ((d.remove (target.temp suffix)).put target ⟨.whole value, time⟩) .done where
  frame f hne hf _ := by
    have hne' : f ≠ target.temp suffix := fun heq => hf (heq ▸ rfl)
    rw [get?_put, if_neg hne, get?_remove, if_neg hne']
  fresh f hf := by cases hf
  temps f hf hget := by
    have hne : f ≠ target := fun heq => hf (heq ▸ htarget)
    rw [get?_put, if_neg hne, get?_remove] at hget
    split_ifs at hget with hne'
    · exact absurd rfl hget
    · exact .inr ⟨hget, by simpa [temp?] using Ne.symm hne'⟩
  plain f hf hor := by
    have hne : f ≠ target := hor.resolve_right (by simp)
    rw [get?_put, if_neg hne, get?_remove, if_neg (temp_ne_of_plain hf)]
  next w' heq := by cases heq
  done _ := ⟨time, by rw [get?_put, if_pos rfl]⟩

lemma Effect.refused (hw : w.temp? target = none) : Effect d target value w d .failed where
  frame _ _ _ _ := rfl
  fresh f hf := by cases hf
  temps f _ hget := .inr ⟨hget, by simp [hw]⟩
  plain _ _ _ := rfl
  next w' heq := by cases heq
  done heq := by cases heq

lemma effect_of_move (h : Move d target value a w d' written) (hknows : w.Knows d target value)
    (htarget : target.temps = []) : Effect d target value w d' written := by
  cases h with
  | created hfresh => exact .put rfl (.inr ⟨rfl, hfresh⟩) ⟨a.now, by rw [get?_put, if_pos rfl]⟩
  | refused => exact .refused rfl
  | filled suffix _ => exact .put rfl (.inl rfl) ⟨a.now, by rw [get?_put, if_pos rfl]⟩
  | missed suffix hmissing | lost suffix hmissing =>
    obtain ⟨time, hget⟩ := hknows
    simp [hmissing] at hget
  | moved suffix g hfound =>
    obtain ⟨time, hget⟩ := hknows
    obtain rfl : ⟨.whole value, time⟩ = g := by simpa [hfound] using hget.symm
    exact .moved htarget
  | dropped w suffix htemp => exact .dropped htemp

end Write

/-! ### Where the tasks are -/

inductive Place
  | pending (f : FileName)
  | claim (f : FileName)

namespace Dispatch
variable {s t : Dispatch} {f file : FileName} {r r' : DispatchTaskFile} {n : String} {p q : Place}

def Claimed (s : Dispatch) (f : FileName) (r : DispatchTaskFile) : Prop :=
  ∃ time, s.claims.get? f = some ⟨.whole r, time⟩

def Holds (s : Dispatch) (n : String) : Place → Prop
  | .pending f => s.pending.get? f ≠ none ∧ f.base = n
  | .claim f => f.temps = [] ∧ ∃ r, s.Claimed f r ∧ r.taskFileName = n

structure Sound (s : Dispatch) : Prop where
  named : ∀ f r time, s.pending.get? f = some ⟨.whole r, time⟩ → r.taskFileName = f.base
  known : ∀ n p, s.Holds n p → .enqueue n ∈ s.log
  unique : ∀ n p q, s.Holds n p → s.Holds n q → p = q
  gone : ∀ n, .accepted n ∈ s.log → .enqueue n ∈ s.log ∧ ∀ p, ¬ s.Holds n p
  once : AtMostOnce s.log

lemma Claimed.inj (h : s.Claimed f r) (h' : s.Claimed f r') : r = r' := by
  obtain ⟨time, h⟩ := h
  obtain ⟨time', h'⟩ := h'
  rw [h] at h'
  cases h'
  rfl

section
variable (h : s.Sound) (hlog : t.log = s.log)
  (hnamed : ∀ f r time, t.pending.get? f = some ⟨.whole r, time⟩ → r.taskFileName = f.base)
include h hlog hnamed

lemma Sound.shrink (hholds : ∀ n p, t.Holds n p → s.Holds n p) : t.Sound where
  named := hnamed
  known n p hp := hlog ▸ h.known n p (hholds n p hp)
  unique n p q hp hq := h.unique n p q (hholds n p hp) (hholds n q hq)
  gone n hn := by
    rw [hlog] at hn ⊢
    exact ⟨(h.gone n hn).1, fun p hp => (h.gone n hn).2 p (hholds n p hp)⟩
  once := hlog ▸ h.once

lemma Sound.relocate
    (hfrom : s.Holds n p) (hholds : ∀ n' p', t.Holds n' p' → s.Holds n' p' ∧ p' ≠ p ∨ n' = n ∧ p' = q) : t.Sound where
  named := hnamed
  known n' p' hp' := by
    rw [hlog]
    rcases hholds n' p' hp' with ⟨hp', -⟩ | ⟨rfl, -⟩
    · exact h.known n' p' hp'
    · exact h.known _ p hfrom
  unique n' p₁ p₂ h₁ h₂ := by
    rcases hholds n' p₁ h₁ with ⟨h₁, hne₁⟩ | ⟨rfl, rfl⟩ <;> rcases hholds n' p₂ h₂ with ⟨h₂, hne₂⟩ | ⟨hn, rfl⟩
    · exact h.unique n' p₁ p₂ h₁ h₂
    · exact absurd (h.unique n' p₁ p h₁ (hn ▸ hfrom)) hne₁
    · exact absurd (h.unique n' p₂ p h₂ hfrom) hne₂
    · rfl
  gone n' hn' := by
    rw [hlog] at hn' ⊢
    refine ⟨(h.gone n' hn').1, fun p' hp' => ?_⟩
    rcases hholds n' p' hp' with ⟨hp', -⟩ | ⟨rfl, -⟩
    · exact (h.gone n' hn').2 p' hp'
    · exact (h.gone _ hn').2 p hfrom
  once := hlog ▸ h.once

end

lemma Sound.handOut (h : s.Sound) (hp : s.Holds n p) : ({s with log := .handedOut n::s.log} : Dispatch).Sound where
  named := h.named
  known n' p' hp' := mem_cons_of_mem _ (h.known n' p' hp')
  unique := h.unique
  gone n' hn' := by
    have hmem : .accepted n' ∈ s.log := by simpa using hn'
    exact ⟨mem_cons_of_mem _ (h.gone n' hmem).1, (h.gone n' hmem).2⟩
  once := ⟨fun hn => (h.gone n hn).2 p hp, h.once⟩

lemma Sound.accept (h : s.Sound) (hfile : file.temps = []) (hr : s.Claimed file r) :
    ({s with claims := s.claims.remove file, log := .accepted r.taskFileName::s.log} : Dispatch).Sound := by
  have hfrom : s.Holds r.taskFileName (.claim file) := ⟨hfile, r, hr, rfl⟩
  have hholds : ∀ n p, Holds {s with claims := s.claims.remove file, log := .accepted r.taskFileName::s.log} n p →
      s.Holds n p ∧ p ≠ .claim file := by
    intro n p hp
    cases p with
    | pending f => exact ⟨hp, by simp⟩
    | claim f =>
      obtain ⟨hf, r', ⟨time, hr'⟩, hn⟩ := hp
      by_cases hne : f = file
      · simp [get?_remove, hne] at hr'
      · simp only [get?_remove, hne, if_false] at hr'
        exact ⟨⟨hf, r', ⟨time, hr'⟩, hn⟩, by simpa using hne⟩
  constructor
  · exact h.named
  · exact fun n p hp => mem_cons_of_mem _ (h.known n p (hholds n p hp).1)
  · exact fun n p q hp hq => h.unique n p q (hholds n p hp).1 (hholds n q hq).1
  · intro n hn
    rcases mem_cons.mp hn with heq | hn
    · obtain rfl : n = r.taskFileName := by simpa using heq
      refine ⟨mem_cons_of_mem _ (h.known _ _ hfrom), fun p hp => ?_⟩
      exact (hholds _ p hp).2 (h.unique _ _ _ (hholds _ p hp).1 hfrom)
    · exact ⟨mem_cons_of_mem _ (h.gone n hn).1, fun p hp => (h.gone n hn).2 p (hholds n p hp).1⟩
  · exact ⟨fun hn => (h.gone _ hn).2 _ hfrom, h.once⟩

/-! ### What a call knows -/

variable (encodeKey : String → String)

def Ripe (s : Dispatch) (f : FileName) : Prop := ∀ file, s.pending.get? f = some file → ∃ r, file.content = .whole r

def Knows (s : Dispatch) : Pc → Prop
  | .take _ _ file r _ => r.taskFileName = file.base ∧ .enqueue file.base ∈ s.log ∧ s.Ripe file
  | .rewrite _ _ file r w => file.temps = [] ∧ s.Claimed file r ∧ w.Knows s.claims file r.cleared
  | .requeue _ _ file r => file.temps = [] ∧ s.Claimed file r.cleared
  | .stamp _ claimToken _ file r _ => r.taskFileName = file.base ∧
      ∃ r', s.Claimed (claimFile encodeKey claimToken) r' ∧ r'.taskFileName = file.base
  | .writeClaim claim claimToken claimedAt file r task w => r.taskFileName = file.base ∧
      (∃ r', s.Claimed (claimFile encodeKey claimToken) r' ∧ r'.taskFileName = file.base) ∧
      w.Knows s.claims (claimFile encodeKey claimToken)
        (r.claimedBy task claim.workerID claim.pollerID claim.owner claimToken claimedAt)
  | .giveBack claimToken file => ∃ r', s.Claimed (claimFile encodeKey claimToken) r' ∧ r'.taskFileName = file.base
  | .upsertLease claimToken r | .deleteClaim claimToken r => s.Claimed (claimFile encodeKey claimToken) r
  | .enqueue record (.fill _) => .enqueue record.taskFileName ∈ s.log
  | .enqueue record (.move suffix) => .enqueue record.taskFileName ∈ s.log ∧
      s.Ripe ((FileName.ofTask record.taskFileName).temp suffix)
  | _ => True

end Dispatch

namespace Pc
variable (encodeKey : String → String)

/-- The claim file that a call is at work on, from the step that creates or reads it to the step that gives
it up. -/
def target : Pc → Option FileName
  | .rewrite _ _ file _ _ | .requeue _ _ file _ => some file
  | .stamp _ claimToken _ _ _ _ | .writeClaim _ claimToken _ _ _ _ _ | .giveBack claimToken _
  | .upsertLease claimToken _ | .deleteClaim claimToken _ => some (Dispatch.claimFile encodeKey claimToken)
  | _ => none

def temp : Pc → Option FileName
  | .rewrite _ _ file _ w => w.temp? file
  | .writeClaim _ claimToken _ _ _ _ w => w.temp? (Dispatch.claimFile encodeKey claimToken)
  | _ => none

def Busy (pc : Pc) (f : FileName) : Prop := pc.target encodeKey = some f ∨ pc.temp encodeKey = some f

/-- The claim file that a step reads in order to change it: one that has expired, or one that a worker
acknowledges. -/
def takes (a : Answer) : Pc → Option FileName
  | .recycle _ (file::_) => if a.expired then some file else none
  | .getClaim claimToken _ => some (Dispatch.claimFile encodeKey claimToken)
  | _ => none

end Pc

open Write

namespace Dispatch
variable {encodeKey : String → String} {s t : Dispatch} {a : Answer} {pc pc' : Pc} {f file : FileName}
  {r r' : DispatchTaskFile} {n : String} {p q : Place}

variable (encodeKey) in
structure Progress (s : Dispatch) (a : Answer) (pc : Pc) (t : Dispatch) (pc' : Pc) : Prop where
  sound : t.Sound
  knows : t.Knows encodeKey pc'
  frame : ∀ f, ¬ pc.Busy encodeKey f → ¬ pc'.Busy encodeKey f → t.claims.get? f = s.claims.get? f
  busy : ∀ f, pc'.Busy encodeKey f →
    pc.Busy encodeKey f ∨ s.claims.get? f = none ∨ pc.takes encodeKey a = some f ∧ s.claims.get? f ≠ none
  ripe : ∀ f, .enqueue f.base ∈ s.log → s.Ripe f → t.Ripe f
  log : s.log ⊆ t.log
  temps : ∀ f, f.temps ≠ [] → t.claims.get? f ≠ none →
    pc'.temp encodeKey = some f ∨ s.claims.get? f ≠ none ∧ pc.temp encodeKey ≠ some f

lemma Progress.still (h : s.Sound) (hknows : s.Knows encodeKey pc') (htemp : pc.temp encodeKey = none)
    (hbusy : ∀ f, pc'.Busy encodeKey f → pc.Busy encodeKey f ∨ pc.takes encodeKey a = some f ∧ s.claims.get? f ≠ none) :
    s.Progress encodeKey a pc s pc' where
  sound := h
  knows := hknows
  frame _ _ _ := rfl
  busy f hf := (hbusy f hf).imp_right .inr
  ripe _ _ hf := hf
  log := List.Subset.refl _
  temps f _ hf := .inr ⟨hf, by simp [htemp]⟩

lemma Progress.quiet (h : s.Sound) (hknows : s.Knows encodeKey pc') (htemp : pc.temp encodeKey = none)
    (htarget' : pc'.target encodeKey = none) (htemp' : pc'.temp encodeKey = none) : s.Progress encodeKey a pc s pc' :=
  .still h hknows htemp fun f hf => absurd hf (by simp [Pc.Busy, htarget', htemp'])

variable {files : List FileName}

lemma progress_recycle (h : s.Sound) {call}
    (hplain : ∀ f, (Pc.recycle call files).takes encodeKey a = some f → s.claims.get? f ≠ none → f.temps = []) :
    s.Progress encodeKey a (.recycle call files) (s.recycle a call files).1 (s.recycle a call files).2 := by
  cases files with
  | nil => cases call <;> exact .quiet h trivial rfl rfl rfl
  | cons file files =>
    simp only [recycle]
    cases hget : s.claims.get? file with
    | none => exact .quiet h trivial rfl rfl rfl
    | some g =>
      obtain ⟨content, time⟩ := g
      cases content with
      | fragment => exact .quiet h trivial rfl rfl rfl
      | whole r =>
        cases hexpired : a.expired with
        | false => exact .quiet h trivial rfl rfl rfl
        | true =>
          have htakes : (Pc.recycle call (file::files)).takes encodeKey a = some file := by simp [Pc.takes, hexpired]
          have hfile : file.temps = [] := hplain file htakes (by simp [hget])
          refine .still h ⟨hfile, ⟨time, hget⟩, trivial⟩ rfl fun f hf => .inr ?_
          obtain rfl : file = f := by simpa [Pc.Busy, Pc.target, Pc.temp, temp?] using hf
          exact ⟨htakes, by simp [hget]⟩

lemma progress_search (h : s.Sound) {claim} :
    s.Progress encodeKey a (.search claim files) (s.search claim files).1 (s.search claim files).2 := by
  cases files with
  | nil => exact .quiet h trivial rfl rfl rfl
  | cons file files =>
    simp only [search]
    cases hget : s.pending.get? file with
    | none => exact .quiet h trivial rfl rfl rfl
    | some g =>
      obtain ⟨content, time⟩ := g
      cases content with
      | fragment => exact .quiet h trivial rfl rfl rfl
      | whole r =>
        cases htask : r.task with
        | none =>
          simp only [htask]
          exact .quiet h trivial rfl rfl rfl
        | some task =>
          simp only [htask]
          split_ifs
          · refine .quiet h ⟨h.named _ _ _ hget, h.known _ (.pending file) ⟨by simp [hget], rfl⟩, ?_⟩ rfl rfl rfl
            intro g hg
            rw [hget] at hg
            cases hg
            exact ⟨r, rfl⟩
          · exact .quiet h trivial rfl rfl rfl

variable {claimToken : String}

lemma progress_getClaim (h : s.Sound) {workerID} :
    s.Progress encodeKey a (.getClaim claimToken workerID) (s.getClaim encodeKey claimToken workerID).1
      (s.getClaim encodeKey claimToken workerID).2 := by
  simp only [getClaim]
  split_ifs
  · exact .quiet h trivial rfl rfl rfl
  cases hget : s.claims.get? (claimFile encodeKey claimToken) with
  | none => exact .quiet h trivial rfl rfl rfl
  | some g =>
    obtain ⟨content, time⟩ := g
    cases content with
    | fragment => exact .quiet h trivial rfl rfl rfl
    | whole r =>
      dsimp only
      split_ifs
      · exact .quiet h trivial rfl rfl rfl
      · exact .quiet h trivial rfl rfl rfl
      · refine .still h ⟨time, hget⟩ rfl fun f hf => .inr ?_
        obtain rfl : claimFile encodeKey claimToken = f := by simpa [Pc.Busy, Pc.target, Pc.temp] using hf
        exact ⟨rfl, by simp [hget]⟩

lemma Progress.ofClaims {claims} (hsound : ({s with claims := claims} : Dispatch).Sound)
    (hknows : ({s with claims := claims} : Dispatch).Knows encodeKey pc')
    (hframe : ∀ f, ¬ pc.Busy encodeKey f → ¬ pc'.Busy encodeKey f → claims.get? f = s.claims.get? f)
    (hbusy : ∀ f, pc'.Busy encodeKey f → pc.Busy encodeKey f ∨ s.claims.get? f = none)
    (htemps : ∀ f, f.temps ≠ [] → claims.get? f ≠ none →
      pc'.temp encodeKey = some f ∨ s.claims.get? f ≠ none ∧ pc.temp encodeKey ≠ some f) :
    s.Progress encodeKey a pc {s with claims := claims} pc' where
  sound := hsound
  knows := hknows
  frame := hframe
  busy f hf := (hbusy f hf).imp_right .inl
  ripe _ _ hf := hf
  log := List.Subset.refl _
  temps := htemps

section
variable {claims : Dir FileName (File DispatchTaskFile)} {w : Write} {written : Written}

lemma Claimed.of_get (hr : s.Claimed file r) (hget : claims.get? file = s.claims.get? file) :
    ({s with claims := claims} : Dispatch).Claimed file r := by
  obtain ⟨time, hr⟩ := hr
  exact ⟨time, hget.trans hr⟩

lemma Sound.write (h : s.Sound) (hfile : file.temps = []) (hr : s.Claimed file r)
    (heffect : w.Effect s.claims file r' claims written) (hname : r'.taskFileName = r.taskFileName) :
    ({s with claims := claims} : Dispatch).Sound := by
  have hfrom : s.Holds r.taskFileName (.claim file) := ⟨hfile, r, hr, rfl⟩
  refine h.relocate rfl h.named hfrom (q := .claim file) fun n p hp => ?_
  cases p with
  | pending f => exact .inl ⟨hp, by simp⟩
  | claim f =>
    obtain ⟨hf, r₁, ⟨time, hr₁⟩, hn⟩ := hp
    by_cases hne : f = file
    · subst hne
      refine .inr ⟨?_, rfl⟩
      by_cases hdone : written = .done
      · obtain ⟨time', hget⟩ := heffect.done hdone
        obtain ⟨rfl, -⟩ : r₁ = r' ∧ time = time' := by simpa [hget, eq_comm] using hr₁
        exact hn.symm.trans hname
      have hsame := heffect.plain f hf (.inr hdone)
      obtain rfl : r₁ = r := Claimed.inj ⟨time, hsame.symm.trans hr₁⟩ hr
      exact hn.symm
    · have hsame := heffect.plain f hf (.inl hne)
      exact .inl ⟨⟨hf, r₁, ⟨time, hsame.symm.trans hr₁⟩, hn⟩, by simpa using hne⟩

lemma Progress.ofWrite (hsound : ({s with claims := claims} : Dispatch).Sound)
    (heffect : w.Effect s.claims file r claims written)
    (hknows : ({s with claims := claims} : Dispatch).Knows encodeKey pc')
    (htarget : pc.target encodeKey = some file) (htemp : pc.temp encodeKey = w.temp? file)
    (htarget' : ∀ f, pc'.target encodeKey = some f → f = file) (htemp' : pc'.temp encodeKey = written.temp? file) :
    s.Progress encodeKey a pc {s with claims := claims} pc' := by
  refine .ofClaims hsound hknows ?_ ?_ ?_
  · intro f hf hf'
    simp only [Pc.Busy, htarget, htemp, htemp', some.injEq, not_or] at hf hf'
    exact heffect.frame f (Ne.symm hf.1) hf.2 hf'.2
  · rintro f (hf | hf)
    · exact .inl (.inl (htarget' f hf ▸ htarget))
    · exact (heffect.fresh f (htemp' ▸ hf)).imp_left fun hf => .inr (htemp.trans hf)
  · rw [htemp, htemp']
    exact heffect.temps

lemma progress_rewrite (h : s.Sound) {call files} (hknows : s.Knows encodeKey (.rewrite call files file r w))
    (hact : s.rewrite a call files file r w = some (t, pc')) :
    s.Progress encodeKey a (.rewrite call files file r w) t pc' := by
  obtain ⟨hfile, hr, hw⟩ := hknows
  obtain ⟨⟨claims, written⟩, hwrite, heq⟩ := map_eq_some_iff.mp hact
  cases heq
  have heffect := effect_of_move (move_of_act hwrite) hw hfile
  have hsound := h.write hfile hr heffect rfl
  cases written with
  | next w' =>
    have hkept := hr.of_get (heffect.plain file hfile (.inr (by simp)))
    exact .ofWrite hsound heffect ⟨hfile, hkept, heffect.next w' rfl⟩ rfl rfl (by simp [Pc.target]) rfl
  | done => exact .ofWrite hsound heffect ⟨hfile, heffect.done rfl⟩ rfl rfl (by simp [Pc.target]) rfl
  | failed => exact .ofWrite hsound heffect trivial rfl rfl (by simp [Pc.target]) rfl

lemma Progress.handOut (h : s.Progress encodeKey a pc t .idle) (hp : t.Holds n p) :
    s.Progress encodeKey a pc {t with log := .handedOut n::t.log} .idle :=
  {h with
    sound := h.sound.handOut hp
    knows := trivial
    log := List.Subset.trans h.log (subset_cons_self _ _)}

lemma progress_writeClaim (h : s.Sound) {claim claimToken claimedAt task}
    (hknows : s.Knows encodeKey (.writeClaim claim claimToken claimedAt file r task w))
    (hact : s.writeClaim encodeKey a claim claimToken claimedAt file r task w = some (t, pc')) :
    s.Progress encodeKey a (.writeClaim claim claimToken claimedAt file r task w) t pc' := by
  obtain ⟨hname, ⟨r', hr', hname'⟩, hw⟩ := hknows
  obtain ⟨⟨claims, written⟩, hwrite, heq⟩ := map_eq_some_iff.mp hact
  have heffect := effect_of_move (move_of_act hwrite) hw rfl
  have hsound := h.write rfl hr' heffect (hname.trans hname'.symm)
  cases written with
  | next w' =>
    cases heq
    have hkept := hr'.of_get (heffect.plain _ rfl (.inr (by simp)))
    exact .ofWrite hsound heffect ⟨hname, ⟨r', hkept, hname'⟩, heffect.next w' rfl⟩ rfl rfl (by simp [Pc.target]) rfl
  | done =>
    cases heq
    have hheld : Holds {s with claims := claims} r.taskFileName (.claim (claimFile encodeKey claimToken)) :=
      ⟨rfl, _, heffect.done rfl, rfl⟩
    exact Progress.handOut (.ofWrite hsound heffect trivial rfl rfl (by simp [Pc.target]) rfl) hheld
  | failed =>
    cases heq
    have hkept := hr'.of_get (heffect.plain _ rfl (.inr (by simp)))
    exact .ofWrite hsound heffect ⟨r', hkept, hname'⟩ rfl rfl (by simp [Pc.target]) rfl

end

/-! ### Files that go from one directory to the other -/

variable {time : ℤ}

section
variable (h : s.Sound)
include h
variable {claimed : FileName}

lemma Sound.giveBack (hclaimed : claimed.temps = [])
    (hr : s.claims.get? claimed = some ⟨.whole r, time⟩) (hname : r.taskFileName = file.base) :
    ({s with claims := s.claims.remove claimed, pending := s.pending.put file ⟨.whole r, time⟩} : Dispatch).Sound := by
  have hfrom : s.Holds file.base (.claim claimed) := ⟨hclaimed, r, ⟨time, hr⟩, hname⟩
  refine h.relocate rfl ?_ hfrom (q := .pending file) fun n p hp => ?_
  · intro f r' time' hget
    rw [get?_put] at hget
    split_ifs at hget with hne
    · cases hget
      exact hne ▸ hname
    · exact h.named f r' time' hget
  cases p with
  | pending f =>
    obtain ⟨hget, hn⟩ := hp
    by_cases hne : f = file
    · subst hne
      exact .inr ⟨hn.symm, rfl⟩
    · simp only [get?_put, hne, if_false] at hget
      exact .inl ⟨⟨hget, hn⟩, by simp⟩
  | claim f =>
    obtain ⟨hf, r', ⟨time', hr'⟩, hn⟩ := hp
    rw [get?_remove] at hr'
    split_ifs at hr' with hne
    exact .inl ⟨⟨hf, r', ⟨time', hr'⟩, hn⟩, by simpa using hne⟩

lemma Sound.take (claimed : FileName) (hget : s.pending.get? file = some ⟨.whole r, time⟩) :
    ({s with pending := s.pending.remove file, claims := s.claims.put claimed ⟨.whole r, time⟩} : Dispatch).Sound := by
  have hfrom : s.Holds file.base (.pending file) := ⟨by simp [hget], rfl⟩
  refine h.relocate rfl ?_ hfrom (q := .claim claimed) fun n p hp => ?_
  · intro f r' time' hget'
    rw [get?_remove] at hget'
    split_ifs at hget' with hne
    exact h.named f r' time' hget'
  cases p with
  | pending f =>
    obtain ⟨hget', hn⟩ := hp
    rw [get?_remove] at hget'
    split_ifs at hget' with hne
    · exact absurd rfl hget'
    · exact .inl ⟨⟨hget', hn⟩, by simpa using hne⟩
  | claim f =>
    obtain ⟨hf, r', ⟨time', hr'⟩, hn⟩ := hp
    rw [get?_put] at hr'
    split_ifs at hr' with hne
    · cases hr'
      exact .inr ⟨hn.symm.trans (h.named _ _ _ hget), by rw [hne]⟩
    · exact .inl ⟨⟨hf, r', ⟨time', hr'⟩, hn⟩, by simp⟩

lemma Progress.giveBack (hclaimed : claimed.temps = [])
    (hr : s.claims.get? claimed = some ⟨.whole r, time⟩) (hname : r.taskFileName = file.base)
    (hknows : ∀ u : Dispatch, u.Knows encodeKey pc') (htarget : pc.target encodeKey = some claimed)
    (htemp : pc.temp encodeKey = none) (htarget' : pc'.target encodeKey = none) (htemp' : pc'.temp encodeKey = none) :
    s.Progress encodeKey a pc
      {s with claims := s.claims.remove claimed, pending := s.pending.put file ⟨.whole r, time⟩} pc' where
  sound := h.giveBack hclaimed hr hname
  knows := hknows _
  frame f hf _ := by
    have hne : f ≠ claimed := fun heq => hf (.inl (heq ▸ htarget))
    exact get?_remove.trans (if_neg hne)
  busy f hf := by simp [Pc.Busy, htarget', htemp'] at hf
  ripe f _ hf g hg := by
    rw [get?_put] at hg
    split_ifs at hg
    · cases hg
      exact ⟨r, rfl⟩
    · exact hf g hg
  log := List.Subset.refl _
  temps f hf hget := by
    rw [get?_remove] at hget
    split_ifs at hget
    · exact absurd rfl hget
    · exact .inr ⟨hget, by simp [htemp]⟩

lemma progress_requeue {call} (hknows : s.Knows encodeKey (.requeue call files file r)) :
    s.Progress encodeKey a (.requeue call files file r) (s.requeue a call files file r).1
      (s.requeue a call files file r).2 := by
  obtain ⟨hfile, time, hr⟩ := hknows
  simp only [requeue, hr]
  split_ifs
  · exact .giveBack h hfile hr rfl (fun _ => trivial) rfl rfl rfl rfl
  · exact .quiet h trivial rfl rfl rfl

lemma progress_giveBack (hknows : s.Knows encodeKey (.giveBack claimToken file)) :
    s.Progress encodeKey a (.giveBack claimToken file) (s.giveBack encodeKey a claimToken file).1
      (s.giveBack encodeKey a claimToken file).2 := by
  obtain ⟨r, ⟨time, hr⟩, hname⟩ := hknows
  simp only [giveBack, hr]
  split_ifs
  · exact .giveBack h rfl hr hname (fun _ => trivial) rfl rfl rfl rfl
  · exact .quiet h trivial rfl rfl rfl

variable {claim : DispatchTaskClaim}

lemma progress_take {task} (hknows : s.Knows encodeKey (.take claim files file r task))
    (hact : s.take encodeKey a claim files file r task = some (t, pc')) :
    s.Progress encodeKey a (.take claim files file r task) t pc' := by
  obtain ⟨hname, -, hripe⟩ := hknows
  simp only [take] at hact
  cases hget : s.pending.get? file with
  | none =>
    rw [hget] at hact
    cases hact
    exact .quiet h trivial rfl rfl rfl
  | some g =>
    obtain ⟨content, time⟩ := g
    obtain ⟨r', rfl⟩ : ∃ r', content = .whole r' := hripe _ hget
    rw [hget] at hact
    dsimp only at hact
    split_ifs at hact with hok hfresh
    · cases hact
      have hnone := get?_eq_none.mpr hfresh
      have hclaimed : Claimed
          {s with
            pending := s.pending.remove file
            claims := s.claims.put (claimFile encodeKey a.claimToken) ⟨.whole r', time⟩}
          (claimFile encodeKey a.claimToken) r' := ⟨time, get?_put.trans (if_pos rfl)⟩
      constructor
      · exact h.take _ hget
      · exact ⟨hname, r', hclaimed, h.named _ _ _ hget⟩
      · intro f _ hf
        have hne : f ≠ claimFile encodeKey a.claimToken := fun heq => hf (.inl (heq ▸ rfl))
        exact get?_put.trans (if_neg hne)
      · rintro f (hf | hf)
        · cases hf
          exact .inr (.inl hnone)
        · cases hf
      · intro f _ hf g hg
        rw [get?_remove] at hg
        split_ifs at hg
        exact hf g hg
      · exact List.Subset.refl _
      · intro f hf hget'
        rw [get?_put] at hget'
        split_ifs at hget' with hne
        · exact absurd (hne ▸ rfl) hf
        · exact .inr ⟨hget', by simp [Pc.temp]⟩
    · cases hact
      exact .quiet h trivial rfl rfl rfl

lemma progress_stamped {time' : ℤ} (hr : s.claims.get? (claimFile encodeKey claimToken) = some ⟨.whole r, time⟩)
    (hknows : Knows encodeKey {s with claims := s.claims.put (claimFile encodeKey claimToken) ⟨.whole r, time'⟩} pc')
    (htarget : pc.target encodeKey = some (claimFile encodeKey claimToken)) (htemp : pc.temp encodeKey = none)
    (htarget' : pc'.target encodeKey = some (claimFile encodeKey claimToken)) (htemp' : pc'.temp encodeKey = none) :
    s.Progress encodeKey a pc
      {s with claims := s.claims.put (claimFile encodeKey claimToken) ⟨.whole r, time'⟩} pc' := by
  refine .ofClaims (h.shrink rfl h.named fun n p hp => ?_) hknows ?_ ?_ ?_
  · cases p with
    | pending f => exact hp
    | claim f =>
      obtain ⟨hf, r', ⟨time'', hr'⟩, hn⟩ := hp
      rw [get?_put] at hr'
      split_ifs at hr' with hne
      · cases hr'
        exact ⟨hf, r, ⟨time, hne ▸ hr⟩, hn⟩
      · exact ⟨hf, r', ⟨time'', hr'⟩, hn⟩
  · intro f hf _
    have hne : f ≠ claimFile encodeKey claimToken := fun heq => hf (.inl (heq ▸ htarget))
    rw [get?_put, if_neg hne]
  · rintro f (hf | hf)
    · exact .inl (.inl (htarget.trans (htarget'.symm.trans hf)))
    · simp [htemp'] at hf
  · intro f hf hget
    rw [get?_put] at hget
    split_ifs at hget with hne
    · exact absurd (hne ▸ rfl) hf
    · exact .inr ⟨hget, by simp [htemp]⟩

lemma progress_stamp {claimedAt task} (hknows : s.Knows encodeKey (.stamp claim claimToken claimedAt file r task)) :
    s.Progress encodeKey a (.stamp claim claimToken claimedAt file r task)
      (s.stamp encodeKey a claim claimToken claimedAt file r task).1
      (s.stamp encodeKey a claim claimToken claimedAt file r task).2 := by
  obtain ⟨hname, r', ⟨time, hr'⟩, hname'⟩ := hknows
  have hclaimed : Claimed {s with claims := s.claims.put (claimFile encodeKey claimToken) ⟨.whole r', claimedAt⟩}
      (claimFile encodeKey claimToken) r' := ⟨claimedAt, get?_put.trans (if_pos rfl)⟩
  simp only [stamp, hr']
  split_ifs
  · cases applyTaskClaim task claim.owner claimToken with
    | error => exact progress_stamped h hr' ⟨r', hclaimed, hname'⟩ rfl rfl rfl rfl
    | ok => exact progress_stamped h hr' ⟨hname, ⟨r', hclaimed, hname'⟩, trivial⟩ rfl rfl rfl rfl
  · exact .still h ⟨r', ⟨time, hr'⟩, hname'⟩ rfl fun f hf => .inl hf

lemma progress_deleteClaim (hknows : s.Knows encodeKey (.deleteClaim claimToken r)) :
    s.Progress encodeKey a (.deleteClaim claimToken r) (s.deleteClaim encodeKey a claimToken r).1
      (s.deleteClaim encodeKey a claimToken r).2 := by
  simp only [deleteClaim]
  split_ifs
  · constructor
    · exact h.accept rfl hknows
    · trivial
    · intro f hf _
      have hne : f ≠ claimFile encodeKey claimToken := fun heq => hf (.inl (heq ▸ rfl))
      exact get?_remove.trans (if_neg hne)
    · rintro f (hf | hf) <;> cases hf
    · exact fun f _ hf => hf
    · exact subset_cons_self _ _
    · intro f _ hget
      rw [get?_remove] at hget
      split_ifs at hget
      · exact absurd rfl hget
      · exact .inr ⟨hget, by simp [Pc.temp]⟩
  · exact .quiet h trivial rfl rfl rfl

end

/-! ### Enqueueing -/

lemma Sound.logEnqueue (h : s.Sound) (hn : .enqueue n ∉ s.log) :
    ({s with log := .enqueue n::s.log} : Dispatch).Sound where
  named := h.named
  known n' p hp := mem_cons_of_mem _ (h.known n' p hp)
  unique := h.unique
  gone n' hn' := by
    have hmem : .accepted n' ∈ s.log := by simpa using hn'
    exact ⟨mem_cons_of_mem _ (h.gone n' hmem).1, (h.gone n' hmem).2⟩
  once := ⟨fun haccepted => hn (h.gone n haccepted).1, h.once⟩

lemma Sound.create (h : s.Sound) (hnew : ∀ p, ¬ s.Holds file.base p) (hlog : .enqueue file.base ∈ s.log)
    (haccepted : .accepted file.base ∉ s.log) (time : ℤ) :
    ({s with pending := s.pending.put file ⟨.fragment, time⟩} : Dispatch).Sound := by
  have hholds : ∀ n p, Holds {s with pending := s.pending.put file ⟨.fragment, time⟩} n p →
      s.Holds n p ∨ n = file.base ∧ p = .pending file := by
    intro n p hp
    cases p with
    | claim f => exact .inl hp
    | pending f =>
      obtain ⟨hget, hn⟩ := hp
      by_cases hne : f = file
      · exact .inr ⟨by rw [← hn, hne], by rw [hne]⟩
      · simp only [get?_put, hne, if_false] at hget
        exact .inl ⟨hget, hn⟩
  constructor
  · intro f r time' hget
    rw [get?_put] at hget
    split_ifs at hget
    · cases hget
    · exact h.named f r time' hget
  · intro n p hp
    rcases hholds n p hp with hp | ⟨rfl, -⟩
    · exact h.known n p hp
    · exact hlog
  · intro n p q hp hq
    rcases hholds n p hp with hp | ⟨hn, rfl⟩ <;> rcases hholds n q hq with hq | ⟨hn', rfl⟩
    · exact h.unique n p q hp hq
    · exact absurd (hn' ▸ hp) (hnew p)
    · exact absurd (hn ▸ hq) (hnew q)
    · rfl
  · intro n hn
    refine ⟨(h.gone n hn).1, fun p hp => ?_⟩
    rcases hholds n p hp with hp | ⟨heq, -⟩
    · exact (h.gone n hn).2 p hp
    · exact haccepted (heq ▸ hn)
  · exact h.once

variable {g : File DispatchTaskFile}

lemma Sound.rename (h : s.Sound) {source : FileName}
    (hget : s.pending.get? source = some g) (hbase : source.base = file.base) :
    ({s with pending := (s.pending.remove source).put file g} : Dispatch).Sound := by
  have hfrom : s.Holds file.base (.pending source) := ⟨by simp [hget], hbase⟩
  refine h.relocate rfl ?_ hfrom (q := .pending file) fun n p hp => ?_
  · intro f r time hf
    rw [get?_put, get?_remove] at hf
    split_ifs at hf with hne hne'
    · cases hf
      rw [hne, ← hbase]
      exact h.named _ r time hget
    · exact h.named f r time hf
  cases p with
  | claim f => exact .inl ⟨hp, by simp⟩
  | pending f =>
    obtain ⟨hf, hn⟩ := hp
    rw [get?_put, get?_remove] at hf
    split_ifs at hf with hne hne'
    · exact .inr ⟨by rw [← hn, hne], by rw [hne]⟩
    · exact absurd rfl hf
    · exact .inl ⟨⟨hf, hn⟩, by simpa using hne'⟩

lemma Progress.ofPending (hsound : t.Sound) (hknows : t.Knows encodeKey pc') (hclaims : t.claims = s.claims)
    (hripe : ∀ f, .enqueue f.base ∈ s.log → s.Ripe f → t.Ripe f) (hlog : s.log ⊆ t.log)
    (htemp : pc.temp encodeKey = none) (htarget' : pc'.target encodeKey = none) (htemp' : pc'.temp encodeKey = none) :
    s.Progress encodeKey a pc t pc' where
  sound := hsound
  knows := hknows
  frame f _ _ := by rw [hclaims]
  busy f hf := by simp [Pc.Busy, htarget', htemp'] at hf
  ripe := hripe
  log := hlog
  temps f _ hget := .inr ⟨hclaims ▸ hget, by simp [htemp]⟩

lemma ripe_put (hf : s.Ripe f) (hg : ∃ r, g.content = .whole r) :
    ∀ g', (s.pending.put file g).get? f = some g' → ∃ r, g'.content = .whole r := by
  intro g' hget
  rw [get?_put] at hget
  split_ifs at hget
  · cases hget
    exact hg
  · exact hf g' hget

lemma ripe_remove (hf : s.Ripe f) : ∀ g, (s.pending.remove file).get? f = some g → ∃ r, g.content = .whole r := by
  intro g hget
  rw [get?_remove] at hget
  split_ifs at hget
  exact hf g hget

variable {record : DispatchTaskFile} {pending : Dir FileName (File DispatchTaskFile)}

lemma progress_enqueue_create (h : s.Sound) (hnew : .enqueue record.taskFileName ∉ s.log) {written}
    (hmove : Write.Move s.pending (.ofTask record.taskFileName) record a .create pending written) :
    s.Progress encodeKey a (.enqueue record .create)
      {s with pending := pending, log := .enqueue record.taskFileName::s.log} (.enqueued record written) := by
  have hlogged := h.logEnqueue hnew
  cases hmove with
  | refused => exact .ofPending hlogged trivial rfl (fun f _ hf => hf) (subset_cons_self _ _) rfl rfl rfl
  | dropped _ suffix htemp => cases htemp
  | created hfresh =>
    let file := (FileName.ofTask record.taskFileName).temp a.suffix
    have hnone : ∀ p, ¬ s.Holds file.base p := fun p hp => hnew (h.known _ p hp)
    have haccepted : .accepted file.base ∉ Outcome.enqueue file.base::s.log := by
      intro hn
      exact hnew (h.gone _ (mem_of_ne_of_mem (by simp) hn)).1
    have hsound := hlogged.create hnone mem_cons_self haccepted a.now
    refine .ofPending hsound mem_cons_self rfl (fun f hlog hf => ?_) (subset_cons_self _ _) rfl rfl rfl
    have hne : f ≠ file := by
      rintro rfl
      exact hnew hlog
    intro g hget
    rw [get?_put, if_neg hne] at hget
    exact hf g hget

lemma progress_enqueue_go (h : s.Sound) {w} (hw : w ≠ .create)
    (hknows : s.Knows encodeKey (.enqueue record w)) {written}
    (hmove : Write.Move s.pending (.ofTask record.taskFileName) record a w pending written) :
    s.Progress encodeKey a (.enqueue record w) {s with pending := pending} (.enqueued record written) := by
  cases hmove with
  | created | refused => exact absurd rfl hw
  | filled suffix hpresent =>
    refine .ofPending (h.shrink rfl ?_ ?_) ⟨hknows, ?_⟩ rfl (fun f _ hf => ripe_put hf ⟨record, rfl⟩)
      (List.Subset.refl _) rfl rfl rfl
    · intro f r time hget
      rw [get?_put] at hget
      split_ifs at hget with hne
      · cases hget
        rw [hne]
        rfl
      · exact h.named f r time hget
    · intro n p hp
      cases p with
      | claim f => exact hp
      | pending f =>
        obtain ⟨hget, hn⟩ := hp
        rw [get?_put] at hget
        split_ifs at hget with hne
        · exact ⟨hne ▸ hpresent, hn⟩
        · exact ⟨hget, hn⟩
    · intro g hget
      rw [get?_put, if_pos rfl] at hget
      cases hget
      exact ⟨record, rfl⟩
  | missed suffix hmissing =>
    refine .ofPending h ⟨hknows, fun g hget => ?_⟩ rfl (fun f _ hf => hf) (List.Subset.refl _) rfl rfl rfl
    simp [hmissing] at hget
  | moved suffix g hfound =>
    obtain ⟨-, hripe⟩ := hknows
    refine .ofPending (h.rename hfound rfl) trivial rfl (fun f _ hf => ?_) (List.Subset.refl _) rfl rfl rfl
    intro g' hget
    rw [get?_put] at hget
    split_ifs at hget
    · cases hget
      exact hripe g hfound
    · exact ripe_remove hf g' hget
  | lost suffix hmissing => exact .quiet h trivial rfl rfl rfl
  | dropped _ suffix htemp =>
    refine .ofPending (h.shrink rfl ?_ ?_) trivial rfl (fun f _ hf => ripe_remove hf) (List.Subset.refl _) rfl rfl rfl
    · intro f r time hget
      rw [get?_remove] at hget
      split_ifs at hget
      exact h.named f r time hget
    intro n p hp
    cases p with
    | claim f => exact hp
    | pending f =>
      obtain ⟨hget, hn⟩ := hp
      rw [get?_remove] at hget
      split_ifs at hget
      · exact absurd rfl hget
      · exact ⟨hget, hn⟩

lemma progress_enqueue (h : s.Sound) {w}
    (hknows : s.Knows encodeKey (.enqueue record w)) (hact : s.enqueue a record w = some (t, pc')) :
    s.Progress encodeKey a (.enqueue record w) t pc' := by
  by_cases hguard : w = .create ∧ .enqueue record.taskFileName ∈ s.log
  · simp [enqueue, hguard] at hact
  rw [enqueue, if_neg hguard] at hact
  obtain ⟨⟨pending, written⟩, hwrite, heq⟩ := map_eq_some_iff.mp hact
  have hmove := move_of_act hwrite
  by_cases hw : w = .create
  · subst hw
    cases heq
    exact progress_enqueue_create h (by simpa using hguard) hmove
  simp only [hw, if_false] at heq
  cases heq
  exact progress_enqueue_go h hw hknows hmove

lemma Progress.ofPair {x : Dispatch × Pc} (hact : some x = some (t, pc')) (h : s.Progress encodeKey a pc x.1 x.2) :
    s.Progress encodeKey a pc t pc' := by
  cases hact
  exact h

lemma progress_act (h : s.Sound) (hknows : s.Knows encodeKey pc)
    (hplain : ∀ f, pc.takes encodeKey a = some f → s.claims.get? f ≠ none → f.temps = [])
    (hact : s.act encodeKey a pc = some (t, pc')) : s.Progress encodeKey a pc t pc' := by
  cases pc with
  | idle => cases hact
  | lock call | listClaims call | listPending claim =>
    cases hact
    exact .quiet h trivial rfl rfl rfl
  | recycle call files => exact .ofPair hact (progress_recycle h hplain)
  | rewrite call files file r w => exact progress_rewrite h hknows hact
  | requeue call files file r => exact .ofPair hact (progress_requeue h hknows)
  | search claim files => exact .ofPair hact (progress_search h)
  | take claim files file r task => exact progress_take h hknows hact
  | stamp claim claimToken claimedAt file r task => exact .ofPair hact (progress_stamp h hknows)
  | writeClaim claim claimToken claimedAt file r task w => exact progress_writeClaim h hknows hact
  | giveBack claimToken file => exact .ofPair hact (progress_giveBack h hknows)
  | getClaim claimToken workerID => exact .ofPair hact (progress_getClaim h)
  | upsertLease claimToken r =>
    cases hact
    cases a.ok with
    | true => exact .still h hknows rfl fun f hf => .inl hf
    | false => exact .quiet h trivial rfl rfl rfl
  | deleteClaim claimToken r => exact .ofPair hact (progress_deleteClaim h hknows)
  | enqueue record w => exact progress_enqueue h hknows hact

end Dispatch
end Ayatsuri.Distributed
