import Mathlib

/-! Back-tick command substitution (`internal/cmn/eval/substitute.go`). Running a command, with the
escaped dollars restored, is an argument: it answers the trimmed output or an error. -/
namespace Ayatsuri.CommandSubstitution
open List
variable {ε : Type*}

/-- The loop over the runes, with `inCommand`, the result and the command built so far. -/
def scan (run : List Char → Except ε (List Char)) : List Char → Bool → List Char → List Char → Except ε (List Char)
  | '\\' :: '`' :: rest, inCommand, result, cmd => scan run rest inCommand (result++['\\', '`']) cmd
  | '`' :: rest, true, result, cmd =>
    if cmd = [] then scan run rest false (result++['`', '`']) []
    else
      match run cmd with
      | .error e => .error e
      | .ok output => scan run rest false (result++output) []
  | '`' :: rest, false, result, cmd => scan run rest true result cmd
  | r::rest, true, result, cmd => scan run rest true result (cmd++[r])
  | r::rest, false, result, cmd => scan run rest false (result++[r]) cmd
  | [], inCommand, result, cmd => .ok (if inCommand then result ++ '`' :: cmd else result)

variable (run : List Char → Except ε (List Char)) (input : List Char)

def substituteCommandsWithContext : Except ε (List Char) := scan run input false [] []

/-! ### The reading of the text -/

inductive Piece
  | char (c : Char)
  | escaped
  deriving DecidableEq

def Piece.text : Piece → List Char
  | .char c => [c]
  | .escaped => ['\\', '`']

def text (pieces : List Piece) : List Char := pieces.flatMap Piece.text

/-- What stands before the first unescaped back-tick, and between it and each later one. -/
def segments : List Char → List Piece × List (List Piece)
  | '\\' :: '`' :: rest => (.escaped::(segments rest).1, (segments rest).2)
  | '`' :: rest => ([], (segments rest).1::(segments rest).2)
  | r::rest => (.char r::(segments rest).1, (segments rest).2)
  | [] => ([], [])

/-- Literals and commands in turn: a command is replaced by what `command` answers, an unclosed
one by `unclosed`. -/
def denote (command : List Piece → Except ε (List Char)) (unclosed : List Piece → List Char) :
    List Piece → List (List Piece) → Except ε (List Char)
  | literal, [] => .ok (text literal)
  | literal, [cmd] => .ok (text literal++unclosed cmd)
  | literal, cmd::literal'::rest =>
    match command cmd with
    | .error e => .error e
    | .ok output => (denote command unclosed literal' rest).map (text literal++output ++ ·)

/-- Every command is replaced by its output, and an unclosed one comes back. -/
def expected : Except ε (List Char) :=
  denote (fun cmd => run (text cmd)) (fun cmd => '`' :: text cmd) (segments input).1 (segments input).2

lemma segments_text : text (segments input).1++(segments input).2.flatMap (fun s => '`' :: text s) = input := by
  fun_induction segments input <;> simp_all [text, Piece.text]

/-! ### What the loop writes -/

variable (cmd : List Piece)

def escapes : List Char := text (cmd.filter (· = .escaped))

def kept : List Char := text (cmd.filter (· ≠ .escaped))

def perform (cmd : List Char) : Except ε (List Char) := if cmd = [] then .ok ['`', '`'] else run cmd

def written : List Piece → List (List Piece) → Except ε (List Char) :=
  denote (fun cmd => (perform run (kept cmd)).map (escapes cmd ++ ·)) fun cmd => escapes cmd ++ '`' :: kept cmd

/-- What the loop still writes inside a command of which `cmd` is read. -/
def pending (cmd : List Char) (piece : List Piece) : List (List Piece) → Except ε (List Char)
  | [] => .ok (escapes piece ++ '`' :: (cmd++kept piece))
  | literal::rest =>
    match perform run (cmd++kept piece) with
    | .error e => .error e
    | .ok output => (written run literal rest).map (escapes piece++output ++ ·)

section
variable (run : List Char → Except ε (List Char)) (rest : List (List Piece))

lemma map_map (x : Except ε (List Char)) (a b : List Char) : (x.map (b ++ ·)).map (a ++ ·) = x.map (a++b ++ ·) := by
  cases x <;> simp [Except.map]

lemma written_cons (piece : Piece) (literal : List Piece) :
    written run (piece::literal) rest = (written run literal rest).map (piece.text ++ ·) := by
  match rest with
  | [] | [_] => simp [written, denote, text, Except.map]
  | cmd::literal'::rest =>
    simp only [written, denote]
    split
    · rfl
    · rw [map_map]
      simp [text]

lemma pending_escaped (cmd : List Char) (piece : List Piece) :
    pending run cmd (.escaped::piece) rest = (pending run cmd piece rest).map (['\\', '`'] ++ ·) := by
  have hkept : kept (.escaped::piece) = kept piece := by simp [kept]
  have hescapes : escapes (.escaped::piece) = ['\\', '`']++escapes piece := by simp [escapes, text, Piece.text]
  cases rest with
  | nil => simp [pending, hkept, hescapes, Except.map]
  | cons literal rest =>
    simp only [pending, hkept, hescapes]
    split
    · rfl
    · rw [map_map]
      simp

lemma pending_char (cmd : List Char) (r : Char) (piece : List Piece) :
    pending run cmd (.char r::piece) rest = pending run (cmd++[r]) piece rest := by
  have hkept : cmd++kept (.char r::piece) = cmd++[r]++kept piece := by simp [kept, text, Piece.text]
  have hescapes : escapes (.char r::piece) = escapes piece := by simp [escapes]
  cases rest with
  | nil | cons literal rest => simp [pending, hkept, hescapes]

lemma written_nil (piece : List Piece) : written run [] (piece::rest) = pending run [] piece rest := by
  cases rest with
  | nil => rfl
  | cons literal rest =>
    simp only [written, denote, pending, nil_append]
    cases perform run (kept piece) with
    | error e => rfl
    | ok output => simp [Except.map, text]

/-- The loop reads one piece a turn, and the two modes are the two places a piece can be in. -/
lemma scan_eq (input : List Char) : (∀ result, scan run input false result [] =
      (written run (segments input).1 (segments input).2).map (result ++ ·)) ∧
    ∀ result cmd, scan run input true result cmd =
      (pending run cmd (segments input).1 (segments input).2).map (result ++ ·) := by
  fun_induction segments input with
  | case1 rest ih => simp only [scan, ih.1, ih.2, written_cons, pending_escaped, map_map, Piece.text, implies_true, and_self]
  | case2 rest ih =>
    refine ⟨fun result => ?_, fun result cmd => ?_⟩
    · rw [scan, ih.2, written_nil]
    rw [scan]
    simp only [ih.1, pending, kept, escapes, filter_nil, text, flatMap_nil, append_nil, perform]
    split_ifs with hcmd
    · rw [map_map]
      rfl
    cases run cmd with
    | error e => rfl
    | ok output => simp only [map_map, nil_append]
  | case3 r rest hescape htick ih =>
    refine ⟨fun result => ?_, fun result cmd => ?_⟩
    · rw [scan, ih.1, written_cons, map_map]
      · rfl
      all_goals assumption
    · rw [scan, ih.2, pending_char]
      all_goals assumption
  | case4 => simp [scan, written, denote, pending, escapes, kept, text, Except.map]

end

/-! ### Where the two agree -/

/-- No command has an escaped back-tick, and none that is closed is empty. -/
def Plain : List (List Piece) → Prop
  | [] => True
  | [cmd] => .escaped ∉ cmd
  | cmd::_::rest => cmd ≠ [] ∧ .escaped ∉ cmd ∧ Plain rest

lemma kept_eq_text {cmd} (h : .escaped ∉ cmd) : kept cmd = text cmd ∧ escapes cmd = [] := by
  have hne : ∀ p ∈ cmd, p ≠ .escaped := fun p hp heq => h (heq ▸ hp)
  constructor
  · rw [kept, filter_eq_self.mpr fun p hp => decide_eq_true (hne p hp)]
  · rw [escapes, filter_eq_nil_iff.mpr fun p hp => by simpa using hne p hp]
    rfl

lemma written_eq_expected {rest} (h : Plain rest) (literal : List Piece) :
    written run literal rest = denote (fun cmd => run (text cmd)) (fun cmd => '`' :: text cmd) literal rest := by
  match rest with
  | [] => rfl
  | [cmd] =>
    obtain ⟨hkept, hescapes⟩ := kept_eq_text h
    simp [written, denote, hkept, hescapes]
  | cmd::literal'::rest =>
    obtain ⟨hne, hescaped, hrest⟩ := h
    obtain ⟨hkept, hescapes⟩ := kept_eq_text hescaped
    have htext : text cmd ≠ [] := by
      cases cmd with
      | nil => exact absurd rfl hne
      | cons p cmd => cases p <;> simp [text, Piece.text]
    have hcmd : (perform run (kept cmd)).map (escapes cmd ++ ·) = run (text cmd) := by
      rw [hkept, hescapes, perform, if_neg htext]
      cases run (text cmd) <;> rfl
    have htail := written_eq_expected hrest literal'
    unfold written at htail ⊢
    simp only [denote, hcmd, htail]

lemma escapes_of_mem {cmd} (h : .escaped ∈ cmd) : ∃ l, escapes cmd = '\\' :: l := by
  induction cmd with
  | nil => simp at h
  | cons p cmd ih =>
    cases p with
    | escaped => exact ⟨_, rfl⟩
    | char c =>
      obtain ⟨l, hl⟩ := ih (by simpa using h)
      exact ⟨l, by simpa [escapes] using hl⟩

lemma length_text : (text cmd).length = (escapes cmd).length+(kept cmd).length := by
  induction cmd with
  | nil => rfl
  | cons p cmd ih => cases p <;> simp_all [text, escapes, kept, Piece.text] <;> omega

def fill (command unclosed : List Piece → List Char) : List Piece → List (List Piece) → List Char
  | literal, [] => text literal
  | literal, [cmd] => text literal++unclosed cmd
  | literal, cmd::literal'::rest => text literal++command cmd++fill command unclosed literal' rest

lemma denote_ok (command unclosed : List Piece → List Char) (literal : List Piece) (rest : List (List Piece)) :
    denote (fun cmd => .ok (command cmd)) unclosed literal rest =
      (.ok (fill command unclosed literal rest) : Except ε _) := by
  match rest with
  | [] | [_] => rfl
  | cmd::literal'::rest => simp only [denote, fill, denote_ok command unclosed literal' rest, Except.map]

/-- What the loop writes for a command whose run writes nothing. -/
def moved : List Char := escapes cmd++if kept cmd = [] then ['`', '`'] else []

/-- With commands that write nothing, all that the loop moves out of a command shows. -/
lemma plain_of_silent (rest : List (List Piece)) (literal : List Piece) :
    let w := fill moved (fun cmd => escapes cmd ++ '`' :: kept cmd) literal rest
    let x := fill (fun _ => []) (fun cmd => '`' :: text cmd) literal rest
    x.length ≤ w.length ∧ (w = x → Plain rest) := by
  match rest with
  | [] => exact ⟨le_rfl, fun _ => trivial⟩
  | [cmd] =>
    have hlength := length_text cmd
    refine ⟨by simp [fill]; omega, fun heq hmem => ?_⟩
    obtain ⟨l, hl⟩ := escapes_of_mem hmem
    simp [fill, hl] at heq
  | cmd::literal'::rest =>
    obtain ⟨hle, hplain⟩ := plain_of_silent rest literal'
    refine ⟨by simp [fill]; omega, fun heq => ?_⟩
    simp only [fill, append_nil, append_assoc, append_cancel_left_eq] at heq
    have hlength := congrArg List.length heq
    rw [List.length_append] at hlength
    have hnil : moved cmd = [] := length_eq_zero_iff.mp (by omega)
    rw [hnil, nil_append] at heq
    obtain ⟨hescapes, hout⟩ := append_eq_nil_iff.mp hnil
    refine ⟨?_, fun hmem => ?_, hplain heq⟩
    · rintro rfl
      simp [kept, text] at hout
    · obtain ⟨l, hl⟩ := escapes_of_mem hmem
      simp [hl] at hescapes

theorem substituteCommands_iff (input : List Char) :
    text (segments input).1++(segments input).2.flatMap (fun s => '`' :: text s) = input ∧
    ((∀ run : List Char → Except ε (List Char), substituteCommandsWithContext run input = expected run input) ↔
      Plain (segments input).2) := by
  refine ⟨segments_text input, fun h => ?_, fun h run => ?_⟩
  · have hsilent := h fun _ => .ok []
    rw [substituteCommandsWithContext, (scan_eq _ input).1, expected, denote_ok] at hsilent
    have hmoved : (fun cmd => (perform (fun _ => .ok []) (kept cmd)).map (escapes cmd ++ ·)) =
        fun cmd => (.ok (moved cmd) : Except ε _) := by
      funext cmd
      simp only [perform, moved]
      split_ifs <;> rfl
    rw [written, hmoved, denote_ok] at hsilent
    exact (plain_of_silent _ _).2 (Except.ok.inj hsilent)
  · rw [substituteCommandsWithContext, (scan_eq _ input).1, expected, written_eq_expected run h]
    exact congrFun Except.map_id _

theorem substituteCommands_escaped :
    substituteCommandsWithContext (fun cmd => .ok cmd) "`x\\`y`".toList = (.ok "\\`xy".toList : Except String _) ∧
      expected (fun cmd => .ok cmd) "`x\\`y`".toList = (.ok "x\\`y".toList : Except String _) := by decide +kernel

end Ayatsuri.CommandSubstitution
