import Ayatsuri.ReplaceAll

/-! The policy for the commands of an agent (`internal/agent/policy.go`): a scan for constructs that are not supported, a
cut of the text at the separators, and a list of rules for the pieces. The command is run as it stands
(`internal/agent/bash.go`), so that what counts is how the shell reads it, comments included. -/
namespace Ayatsuri.BashPolicy
open ReplaceAll List Option

abbrev Text := List Char

def singleQuote : Char := Char.ofNat 39

def doubleQuote : Char := Char.ofNat 34

def backslash : Char := Char.ofNat 92

def backtick : Char := Char.ofNat 96

def newline : Char := Char.ofNat 10

def carriageReturn : Char := Char.ofNat 13

/-- `unicode.IsSpace`. -/
def isSpace (c : Char) : Bool :=
  (9 ≤ c.toNat && c.toNat ≤ 13) || c.toNat = 0x20 || c.toNat = 0x85 || c.toNat = 0xA0 || c.toNat = 0x1680 ||
    (0x2000 ≤ c.toNat && c.toNat ≤ 0x200a) || c.toNat = 0x2028 || c.toNat = 0x2029 || c.toNat = 0x202f || c.toNat = 0x205f ||
    c.toNat = 0x3000

variable (text : Text)

def trimSpace : Text := (text.dropWhile isSpace).rdropWhile isSpace

/-! ### The two scanners -/

def flush (current : Text) : List Text := if trimSpace current = [] then [] else [trimSpace current]

/-- The loop of `splitShellCommandSegments`. After one half of `||` or `&&` the other half is passed over. -/
def splitLoop (inSingle inDouble escaped : Bool) (half : Option Char) (current : Text) : Text → List Text
  | [] => flush current
  | ch::rest =>
    if half = some ch then splitLoop inSingle inDouble escaped none current rest
    else if escaped then splitLoop inSingle inDouble false none (current++[ch]) rest
    else if ch = backslash ∧ inSingle = false then splitLoop inSingle inDouble true none (current++[ch]) rest
    else if ch = singleQuote ∧ inDouble = false then splitLoop (!inSingle) inDouble false none (current++[ch]) rest
    else if ch = doubleQuote ∧ inSingle = false then splitLoop inSingle (!inDouble) false none (current++[ch]) rest
    else if inSingle = false ∧ inDouble = false ∧ (ch = ';' ∨ ch = newline) then
      flush current++splitLoop inSingle inDouble false none [] rest
    else if inSingle = false ∧ inDouble = false ∧ (ch = '|' ∨ ch = '&') then
      flush current++splitLoop inSingle inDouble false (some ch) [] rest
    else splitLoop inSingle inDouble false none (current++[ch]) rest

variable (command : Text)

def splitShellCommandSegments : List Text :=
  splitLoop false false false none [] (trimSpace (replaceAll [carriageReturn, newline] [newline] command))

/-- The loop of `hasUnsupportedShellConstructs`. -/
def unsupportedLoop (inSingle inDouble escaped : Bool) : Text → Bool
  | [] => false
  | ch::rest =>
    if escaped then unsupportedLoop inSingle inDouble false rest
    else if ch = backslash ∧ inSingle = false then unsupportedLoop inSingle inDouble true rest
    else if ch = singleQuote ∧ inDouble = false then unsupportedLoop (!inSingle) inDouble false rest
    else if ch = doubleQuote ∧ inSingle = false then unsupportedLoop inSingle (!inDouble) false rest
    else if inSingle then unsupportedLoop inSingle inDouble false rest
    else if ch = backtick then true
    else if ch = '$' ∧ rest.head? = some '(' then true
    else if inDouble = false ∧ ch = '<' ∧ rest.head? = some '<' then true
    else if ch = '<' ∧ rest.head? = some '(' then true
    else if ch = '>' ∧ rest.head? = some '(' then true
    else unsupportedLoop inSingle inDouble false rest

def hasUnsupportedShellConstructs : Bool := unsupportedLoop false false false command

/-! ### The policy -/

inductive Action
  | allow | deny
  deriving DecidableEq

inductive DenyBehavior
  | askUser | block
  deriving DecidableEq

/-- `BashRule`. A pattern is the set of texts it matches; there is none if it is no regular expression. -/
structure BashRule where
  name : String := ""
  pattern : Option (Text → Bool)
  action : Action
  enabled : Option Bool := none

def isRuleEnabled (rule : BashRule) : Bool := rule.enabled.getD true

/-- `BashPolicyConfig` where nothing is left to the defaults, and whether the tool is enabled. -/
structure Policy where
  bashEnabled : Bool
  rules : List BashRule
  defaultBehavior : Action
  denyBehavior : DenyBehavior

structure PolicyConfig where
  bashEnabled : Option Bool
  rules : Option (List BashRule)
  defaultBehavior : Option Action
  denyBehavior : Option DenyBehavior

def defaultToolPolicy (bashEnabled : Bool) : Policy := ⟨bashEnabled, [], .allow, .askUser⟩

variable (defaults : Policy)

def resolveToolPolicy (policy : PolicyConfig) : Policy where
  bashEnabled := policy.bashEnabled.getD defaults.bashEnabled
  rules := policy.rules.getD defaults.rules
  defaultBehavior := policy.defaultBehavior.getD defaults.defaultBehavior
  denyBehavior := policy.denyBehavior.getD defaults.denyBehavior

structure CompiledRule where
  name : String
  action : Action
  re : Text → Bool

/-- `compileEnabledBashRules`, from an index on. -/
def compileEnabledBashRules (i : ℕ) : List BashRule → Option (List CompiledRule)
  | [] => some []
  | rule::rules =>
    if isRuleEnabled rule then
      rule.pattern.bind fun re => (compileEnabledBashRules (i+1) rules).map fun compiled =>
        ⟨if rule.name = "" then "rule_" ++ toString i else rule.name, rule.action, re⟩::compiled
    else compileEnabledBashRules (i+1) rules

def matchCompiledBashRule (rules : List CompiledRule) (segment : Text) : Option CompiledRule :=
  rules.find? fun rule => rule.re segment

inductive Reason
  | disabled | unsupported | rule | noMatch
  deriving DecidableEq

/-- `BashPolicyDecision`. -/
inductive Decision
  | allowed
  | denied (behavior : DenyBehavior) (reason : Reason) (segment : Text) (ruleName : String)
  deriving DecidableEq

def evaluateSegments (policy : Policy) (compiled : List CompiledRule) : List Text → Decision
  | [] => .allowed
  | segment::segments =>
    match matchCompiledBashRule compiled segment with
    | some rule =>
      if rule.action = .allow then evaluateSegments policy compiled segments
      else .denied policy.denyBehavior .rule segment rule.name
    | none =>
      if policy.defaultBehavior = .allow then evaluateSegments policy compiled segments
      else .denied policy.denyBehavior .noMatch segment ""

/-- `EvaluateBashPolicyResolved` for the text of an input. There is no decision if a pattern is invalid. -/
def evaluateBashPolicyResolved (policy : Policy) (text : Text) : Option Decision :=
  if policy.bashEnabled = false then some (.denied .block .disabled [] "")
  else
    let command := trimSpace text
    if command = [] then some .allowed
    else if hasUnsupportedShellConstructs command then some (.denied policy.denyBehavior .unsupported [] "")
    else
      (compileEnabledBashRules 0 policy.rules).map fun compiled =>
        evaluateSegments policy compiled (splitShellCommandSegments command)

def evaluateBashPolicy (policy : PolicyConfig) (text : Text) : Option Decision :=
  evaluateBashPolicyResolved (resolveToolPolicy defaults policy) text

/-! ### How the shell reads a command -/

inductive Mode
  | plain (wordStart : Bool)
  | escaped | single | double | doubleEscaped | comment
  deriving DecidableEq

open Mode

def isSeparator (c : Char) : Bool := c = ';' || c = '&' || c = '|' || c = newline

def isMeta (c : Char) : Bool := c = ' ' || c = Char.ofNat 9 || isSeparator c || c = '(' || c = ')' || c = '<' || c = '>'

/-- The next mode. If `hash` is unset then `#` is a character like others. -/
def Mode.next (hash : Bool) : Mode → Char → Mode
  | .plain wordStart, c =>
    if c = backslash then .escaped
    else if c = singleQuote then .single
    else if c = doubleQuote then .double
    else if c = '#' ∧ wordStart ∧ hash then .comment
    else .plain (isMeta c)
  | .escaped, _ => .plain false
  | .single, c => if c = singleQuote then .plain false else .single
  | .double, c => if c = backslash then .doubleEscaped else if c = doubleQuote then .plain false else .double
  | .doubleEscaped, _ => .double
  | .comment, c => if c = newline then .plain true else .comment

def Mode.splits : Mode → Char → Bool
  | .plain _, c => isSeparator c
  | .comment, c => c = newline
  | .escaped, _ | .single, _ | .double, _ | .doubleEscaped, _ => false

@[simp] def Mode.forbids : Mode → Char → Option Char → Bool
  | .plain _, c, next =>
    c = backtick || (c = '$' && next = some '(') || (c = '<' && (next = some '<' || next = some '(')) ||
      (c = '>' && next = some '(')
  | .double, c, next => c = backtick || (c = '$' && next = some '(')
  | .escaped, _, _ | .single, _, _ | .doubleEscaped, _, _ | .comment, _, _ => false

def partsFrom (hash : Bool) (mode : Mode) (current : Text) : Text → List Text
  | [] => flush current
  | c::rest =>
    if mode.splits c then flush current++partsFrom hash (mode.next hash c) [] rest
    else partsFrom hash (mode.next hash c) (current++[c]) rest

def parts : List Text := partsFrom true (.plain true) [] text

def constructFrom (hash : Bool) (mode : Mode) : Text → Bool
  | [] => false
  | c::rest => mode.forbids c rest.head? || constructFrom hash (mode.next hash c) rest

def hasConstruct : Bool := constructFrom true (.plain true) text

/-- What a check may take for a construct: `<(` and `>(` are plain characters between double quotes. -/
def Mode.suspects (mode : Mode) (c : Char) (next : Option Char) : Bool :=
  mode.forbids c next || (mode = .double && (c = '<' && next = some '(' || c = '>' && next = some '('))

/-- The suspicious places, if `#` is a character like others. -/
def suspectFrom (mode : Mode) : Text → Bool
  | [] => false
  | c::rest => mode.suspects c rest.head? || suspectFrom (mode.next false c) rest

def isSuspect : Bool := suspectFrom (.plain true) (trimSpace text)

/-- The parts, if `#` is a character like others and a carriage return before a newline is none. -/
def bareParts : List Text :=
  partsFrom false (.plain true) [] (trimSpace (replaceAll [carriageReturn, newline] [newline] (trimSpace text)))

variable (rules : List BashRule)

def firstMatch (part : Text) : Option BashRule :=
  rules.find? fun rule => isRuleEnabled rule && rule.pattern.elim false fun re => re part

def Sound (text : Text) : Prop :=
  hasConstruct text = false ∧ ∀ part ∈ parts text, ∃ rule ∈ firstMatch rules part, rule.action = .allow

def clearFrom (hash : Bool) (mode : Mode) : Text → Bool
  | [] => true
  | c::rest =>
    (mode ≠ .comment || !(c = backslash || c = singleQuote || c = doubleQuote || c = ';' || c = '&' || c = '|')) &&
      clearFrom hash (mode.next hash c) rest

def ClearComments : Prop := clearFrom true (.plain true) text

variable {hash : Bool}

/-! ### Space at the ends -/

variable {front : Text}

lemma trimSpace_append_left (h : ∀ c ∈ front, isSpace c) (text : Text) : trimSpace (front++text) = trimSpace text := by
  unfold trimSpace
  rw [dropWhile_append_of_pos h]

variable {back : Text}

lemma trimSpace_append_right (h : ∀ c ∈ back, isSpace c) : trimSpace (text++back) = trimSpace text := by
  induction back using reverseRecOn with
  | nil => rw [append_nil]
  | append_singleton back c ih =>
    rw [← append_assoc, ← ih fun c hc => h c (mem_append_left _ hc)]
    have hc : isSpace c := h c (by simp)
    unfold trimSpace
    rw [dropWhile_append]
    split_ifs with hempty
    · rw [isEmpty_iff.mp hempty, dropWhile_cons_of_pos hc, dropWhile_nil]
    · exact rdropWhile_concat_pos _ _ _ hc

lemma flush_append_left (h : ∀ c ∈ front, isSpace c) (text : Text) : flush (front++text) = flush text := by
  rw [flush, trimSpace_append_left h, flush]

lemma flush_append_right (h : ∀ c ∈ back, isSpace c) : flush (text++back) = flush text := by
  rw [flush, trimSpace_append_right text h, flush]

/-! ### The scanners keep step with the shell -/

/-- What the scanners know of the text before: `inSingle`, `inDouble` and `escaped`. -/
structure Flags where
  (inSingle inDouble escaped : Bool)
  deriving DecidableEq

@[simp] def Mode.flags : Mode → Flags
  | .plain _ | .comment => ⟨false, false, false⟩
  | .escaped => ⟨false, false, true⟩
  | .single => ⟨true, false, false⟩
  | .double => ⟨false, true, false⟩
  | .doubleEscaped => ⟨false, true, true⟩

variable (f : Flags)

def Flags.next (c : Char) : Flags :=
  if f.escaped then {f with escaped := false}
  else if c = backslash ∧ f.inSingle = false then {f with escaped := true}
  else if c = singleQuote ∧ f.inDouble = false then {f with inSingle := !f.inSingle}
  else if c = doubleQuote ∧ f.inSingle = false then {f with inDouble := !f.inDouble}
  else f

def Harmless (mode : Mode) (c : Char) : Prop :=
  mode = .comment → ¬ (c = backslash ∨ c = singleQuote ∨ c = doubleQuote ∨ c = ';' ∨ c = '&' ∨ c = '|')

variable {mode : Mode} {c : Char} {rest : Text}

lemma clearFrom_cons (h : clearFrom hash mode (c::rest)) :
    Harmless mode c ∧ clearFrom hash (mode.next hash c) rest := by
  simp only [clearFrom, Bool.and_eq_true, Bool.or_eq_true, decide_eq_true_eq, Bool.not_eq_true', Bool.or_eq_false_iff,
    decide_eq_false_iff_not] at h
  refine ⟨fun hmode => ?_, h.2⟩
  rcases h.1 with hne | hc
  · exact absurd hmode hne
  · tauto

lemma flags_next (h : Harmless mode c) : (mode.next hash c).flags = mode.flags.next c := by
  cases mode with
  | plain wordStart | single | double =>
    simp only [Mode.next, Flags.next, flags]
    split_ifs <;> simp_all
  | escaped | doubleEscaped => rfl
  | comment =>
    have hc := h rfl
    simp only [Mode.next, Flags.next, flags]
    split_ifs <;> simp_all

def Flags.unsupported (text : Text) : Bool := unsupportedLoop f.inSingle f.inDouble f.escaped text

def Flags.split (half : Option Char) (current text : Text) : List Text :=
  splitLoop f.inSingle f.inDouble f.escaped half current text

lemma unsupported_cons {f : Flags} (h : f.unsupported (c::rest) = false) : (f.next c).unsupported rest = false := by
  simp only [Flags.unsupported, unsupportedLoop, Flags.next] at h ⊢
  split_ifs at h ⊢ <;> simp_all

lemma forbids_eq_false (h : mode.flags.unsupported (c::rest) = false) : mode.forbids c rest.head? = false := by
  by_contra hforbids
  rw [Bool.not_eq_false] at hforbids
  have hspecial : ∀ d : Char, d = backtick ∨ d = '$' ∨ d = '<' ∨ d = '>' → d ≠ backslash ∧ d ≠ singleQuote ∧ d ≠ doubleQuote := by
    rintro d (rfl | rfl | rfl | rfl) <;> decide
  cases mode with
  | plain wordStart =>
    simp only [forbids, Bool.or_eq_true, Bool.and_eq_true, decide_eq_true_eq] at hforbids
    have hc : c = backtick ∨ c = '$' ∨ c = '<' ∨ c = '>' := by
      rcases hforbids with ((hc | hc) | hc) | hc
      · exact .inl hc
      · exact .inr (.inl hc.1)
      · exact .inr (.inr (.inl hc.1))
      · exact .inr (.inr (.inr hc.1))
    obtain ⟨hbackslash, hsingle, hdouble⟩ := hspecial c hc
    simp only [Flags.unsupported, flags, unsupportedLoop, hbackslash, hsingle, hdouble, false_and, if_false,
      Bool.false_eq_true] at h
    split_ifs at h with hbacktick hcommand hhere hinput houtput
    rcases hforbids with ((hc | hc) | ⟨hc, hnext | hnext⟩) | hc
    · exact hbacktick hc
    · exact hcommand hc
    · exact hhere ⟨trivial, hc, hnext⟩
    · exact hinput ⟨hc, hnext⟩
    · exact houtput hc
  | double =>
    simp only [forbids, Bool.or_eq_true, Bool.and_eq_true, decide_eq_true_eq] at hforbids
    have hc : c = backtick ∨ c = '$' ∨ c = '<' ∨ c = '>' := by
      rcases hforbids with hc | hc
      · exact .inl hc
      · exact .inr (.inl hc.1)
    obtain ⟨hbackslash, hsingle, hdouble⟩ := hspecial c hc
    simp only [Flags.unsupported, flags, unsupportedLoop, hbackslash, hsingle, hdouble, false_and, if_false,
      Bool.false_eq_true] at h
    split_ifs at h with hbacktick hcommand
    rcases hforbids with hc | hc
    · exact hbacktick hc
    · exact hcommand hc
  | escaped | single | doubleEscaped | comment => exact absurd hforbids (by simp)

variable {text : Text}

lemma constructFrom_eq_false (hclear : clearFrom hash mode text)
    (h : mode.flags.unsupported text = false) : constructFrom hash mode text = false := by
  induction text generalizing mode with
  | nil => rfl
  | cons c rest ih =>
    obtain ⟨hharmless, hrest⟩ := clearFrom_cons hclear
    rw [constructFrom, forbids_eq_false h, Bool.false_or]
    refine ih hrest ?_
    rw [flags_next hharmless]
    exact unsupported_cons h

lemma next_ne_comment (hmode : mode ≠ .comment) (c : Char) : mode.next false c ≠ .comment := by
  cases mode with
  | comment => exact absurd rfl hmode
  | plain wordStart | single | double =>
    simp only [Mode.next]
    split_ifs <;> simp_all
  | escaped | doubleEscaped => simp [Mode.next]

lemma clearFrom_bare (hmode : mode ≠ .comment) (text : Text) : clearFrom false mode text := by
  induction text generalizing mode with
  | nil => rfl
  | cons c rest ih => simp [clearFrom, hmode, ih (next_ne_comment hmode c)]

lemma suspects_quote (h : c = backslash ∨ c = singleQuote ∨ c = doubleQuote) (mode : Mode) (next : Option Char) :
    mode.suspects c next = false := by
  have hc : c ≠ backtick ∧ c ≠ '$' ∧ c ≠ '<' ∧ c ≠ '>' := by rcases h with rfl | rfl | rfl <;> decide
  cases mode <;> simp [suspects, hc]

lemma unsupported_cons_eq (hmode : mode ≠ .comment) (c : Char) (rest : Text) :
    mode.flags.unsupported (c::rest) = (mode.suspects c rest.head? || (mode.flags.next c).unsupported rest) := by
  by_cases hquote : c = backslash ∨ c = singleQuote ∨ c = doubleQuote
  · rw [suspects_quote hquote, Bool.false_or]
    obtain ⟨hbacktick, hdollar, hless, hgreater⟩ : c ≠ backtick ∧ c ≠ '$' ∧ c ≠ '<' ∧ c ≠ '>' := by
      rcases hquote with rfl | rfl | rfl <;> decide
    simp only [Flags.unsupported, unsupportedLoop, Flags.next, hbacktick, hdollar, hless, hgreater, false_and, and_false, if_false]
    split_ifs <;> simp_all
  simp only [not_or] at hquote
  cases mode with
  | comment => exact absurd rfl hmode
  | plain wordStart | double =>
    simp [Flags.unsupported, unsupportedLoop, Flags.next, suspects, hquote, Bool.or_assoc, Bool.and_or_distrib_left]
  | single | escaped | doubleEscaped => simp [Flags.unsupported, unsupportedLoop, Flags.next, suspects, hquote]

lemma unsupported_eq (hmode : mode ≠ .comment) (text : Text) : mode.flags.unsupported text = suspectFrom mode text := by
  induction text generalizing mode with
  | nil => rfl
  | cons c rest ih =>
    rw [unsupported_cons_eq hmode, suspectFrom, ← ih (next_ne_comment hmode c), flags_next fun h => absurd h hmode]

def Flags.splits (c : Char) : Bool := !f.escaped && !f.inSingle && !f.inDouble && isSeparator c

lemma splits_eq (h : Harmless mode c) : mode.splits c = mode.flags.splits c := by
  cases mode with
  | plain wordStart | escaped | single | double | doubleEscaped => simp [splits, Flags.splits]
  | comment =>
    have hc := h rfl
    simp only [not_or] at hc
    simp [splits, Flags.splits, isSeparator, hc]

lemma not_isSeparator (h : c = backslash ∨ c = singleQuote ∨ c = doubleQuote) : isSeparator c = false := by
  rcases h with rfl | rfl | rfl <;> decide

lemma plain_next_separator (h : isSeparator c) (wordStart : Bool) :
    (Mode.plain wordStart).next hash c = .plain true := by
  have hquote : ¬ (c = backslash ∨ c = singleQuote ∨ c = doubleQuote) := fun hc => by simp [not_isSeparator hc] at h
  have hhash : c ≠ '#' := by
    rintro rfl
    exact absurd h (by decide)
  simp only [not_or] at hquote
  simp [Mode.next, hquote, hhash, isMeta, h]

lemma split_cons {f : Flags} {half} (current rest : Text) (hhalf : half ≠ some c) : f.split half current (c::rest) =
      if f.splits c then flush current++(f.next c).split (if c = '|' ∨ c = '&' then some c else none) [] rest
      else (f.next c).split none (current++[c]) rest := by
  have hor : isSeparator c ↔ (c = ';' ∨ c = newline) ∨ (c = '|' ∨ c = '&') := by
    simp only [isSeparator, Bool.or_eq_true, decide_eq_true_eq]
    constructor
    · rintro (((hc | hc) | hc) | hc)
      · exact .inl (.inl hc)
      · exact .inr (.inr hc)
      · exact .inr (.inl hc)
      · exact .inl (.inr hc)
    rintro ((hc | hc) | (hc | hc))
    · exact .inl (.inl (.inl hc))
    · exact .inr hc
    · exact .inl (.inr hc)
    · exact .inl (.inl (.inr hc))
  have hexcl : (c = ';' ∨ c = newline) → ¬ (c = '|' ∨ c = '&') := by rintro (rfl | rfl) <;> decide
  obtain ⟨inSingle, inDouble, escaped⟩ := f
  simp only [Flags.split, splitLoop, if_neg hhalf, Flags.splits, Flags.next]
  cases escaped with
  | true => simp
  | false =>
    simp only [Bool.false_eq_true, if_false, Bool.not_false, Bool.true_and, Bool.and_eq_true, Bool.not_eq_true']
    by_cases hbackslash : c = backslash ∧ inSingle = false
    · rw [if_pos hbackslash, if_pos hbackslash, if_neg (by simp [not_isSeparator (.inl hbackslash.1)])]
    rw [if_neg hbackslash, if_neg hbackslash]
    by_cases hsingle : c = singleQuote ∧ inDouble = false
    · rw [if_pos hsingle, if_pos hsingle, if_neg (by simp [not_isSeparator (.inr (.inl hsingle.1))])]
    rw [if_neg hsingle, if_neg hsingle]
    by_cases hdouble : c = doubleQuote ∧ inSingle = false
    · rw [if_pos hdouble, if_pos hdouble, if_neg (by simp [not_isSeparator (.inr (.inr hdouble.1))])]
    rw [if_neg hdouble, if_neg hdouble]
    by_cases hend : inSingle = false ∧ inDouble = false ∧ (c = ';' ∨ c = newline)
    · rw [if_pos hend, if_pos ⟨⟨hend.1, hend.2.1⟩, hor.mpr (.inl hend.2.2)⟩, if_neg (hexcl hend.2.2)]
    rw [if_neg hend]
    by_cases hhalfway : inSingle = false ∧ inDouble = false ∧ (c = '|' ∨ c = '&')
    · rw [if_pos hhalfway, if_pos ⟨⟨hhalfway.1, hhalfway.2.1⟩, hor.mpr (.inr hhalfway.2.2)⟩, if_pos hhalfway.2.2]
    rw [if_neg hhalfway, if_neg]
    rintro ⟨⟨hnotSingle, hnotDouble⟩, hc⟩
    rcases hor.mp hc with hc | hc
    · exact hend ⟨hnotSingle, hnotDouble, hc⟩
    · exact hhalfway ⟨hnotSingle, hnotDouble, hc⟩

/-- Where the scanner stands after one half of `||` or `&&`. -/
def AtHalf (mode : Mode) (half : Option Char) (current : Text) : Prop :=
  half = none ∨ (half = some '|' ∨ half = some '&') ∧ current = [] ∧ ∃ wordStart, mode = .plain wordStart

lemma eq_plain_of_splits (hharmless : Harmless mode c) (h : mode.flags.splits c)
    (hc : c = '|' ∨ c = '&') : ∃ wordStart, mode = .plain wordStart := by
  cases mode with
  | plain wordStart => exact ⟨wordStart, rfl⟩
  | comment =>
    refine absurd ?_ (hharmless rfl)
    rcases hc with hc | hc
    · exact .inr (.inr (.inr (.inr (.inr hc))))
    · exact .inr (.inr (.inr (.inr (.inl hc))))
  | escaped | single | double | doubleEscaped => simp [Flags.splits] at h

lemma split_eq_parts {half current} (hclear : clearFrom hash mode text)
    (hhalf : AtHalf mode half current) : mode.flags.split half current text = partsFrom hash mode current text := by
  induction text generalizing mode half current with
  | nil => rfl
  | cons c rest ih =>
    obtain ⟨hharmless, hrest⟩ := clearFrom_cons hclear
    rw [partsFrom]
    by_cases hskip : half = some c
    · -- The other half splits the text once more, between nothing and nothing.
      obtain ⟨hchar, rfl, wordStart, rfl⟩ := hhalf.resolve_left (by simp [hskip])
      have hsep : isSeparator c := by
        rw [hskip] at hchar
        rcases hchar with hchar | hchar <;> (obtain rfl := some_inj.mp hchar; decide)
      have hsplits : (Mode.plain wordStart).splits c := hsep
      rw [if_pos hsplits, ← ih hrest (.inl rfl), plain_next_separator hsep]
      simp only [Flags.split, splitLoop, if_pos hskip]
      rfl
    rw [split_cons _ _ hskip, splits_eq hharmless, ← flags_next hharmless]
    by_cases hsplits : mode.flags.splits c
    · rw [if_pos hsplits, if_pos hsplits]
      split_ifs with hchar
      · obtain ⟨wordStart, rfl⟩ := eq_plain_of_splits hharmless hsplits hchar
        have hsep : isSeparator c := hsplits
        rw [ih hrest (.inr ⟨?_, rfl, true, plain_next_separator hsep wordStart⟩)]
        exact hchar.imp (congrArg some) (congrArg some)
      · rw [ih hrest (.inl rfl)]
    · rw [if_neg hsplits, if_neg hsplits, ih hrest (.inl rfl)]

/-! ### Space around a command -/

lemma space_plain (h : isSpace c) :
    c ∉ [backslash, singleQuote, doubleQuote, backtick, '#', ';', '&', '|', '$', '<', '>', '('] := by
  intro hmem
  revert h
  simp only [mem_cons, not_mem_nil, or_false] at hmem
  rcases hmem with rfl | rfl | rfl | rfl | rfl | rfl | rfl | rfl | rfl | rfl | rfl | rfl <;> decide

lemma exists_trimSpace (text : Text) :
    ∃ front back, text = front++trimSpace text++back ∧ (∀ c ∈ front, isSpace c) ∧ ∀ c ∈ back, isSpace c := by
  refine ⟨text.takeWhile isSpace, (text.dropWhile isSpace).rtakeWhile isSpace, ?_, ?_, ?_⟩
  · rw [append_assoc, trimSpace, rdropWhile_append_rtakeWhile, takeWhile_append_dropWhile]
  · exact fun c hc => mem_takeWhile_imp hc
  · exact fun c hc => mem_rtakeWhile_imp hc

lemma partsFrom_front (h : ∀ c ∈ front, isSpace c) (mode : Mode) (current text : Text) :
    partsFrom hash mode (front++current) text = partsFrom hash mode current text := by
  induction text generalizing mode current with
  | nil => exact flush_append_left h current
  | cons c rest ih => rw [partsFrom, partsFrom, flush_append_left h, append_assoc, ih]

lemma partsFrom_space (h : ∀ c ∈ text, isSpace c) (mode : Mode) (current : Text) :
    partsFrom hash mode current text = flush current := by
  induction text generalizing mode current with
  | nil => rfl
  | cons c rest ih =>
    have hc : isSpace c := h c mem_cons_self
    have hrest := fun c hc => h c (mem_cons_of_mem _ hc)
    rw [partsFrom, ih hrest, ih hrest]
    split_ifs
    · exact append_nil _
    · exact flush_append_right current (by simpa using hc)

lemma partsFrom_back (mode : Mode) (current text : Text) (h : ∀ c ∈ back, isSpace c) :
    partsFrom hash mode current (text++back) = partsFrom hash mode current text := by
  induction text generalizing mode current with
  | nil => exact partsFrom_space h mode current
  | cons c rest ih => rw [cons_append, partsFrom, partsFrom, ih, ih]

lemma forbids_space {d} (h : isSpace d) (mode : Mode) : mode.forbids c (some d) = mode.forbids c none := by
  have hd := space_plain h
  simp only [mem_cons, not_or] at hd
  cases mode <;> simp [hd]

lemma constructFrom_space (h : ∀ c ∈ text, isSpace c) (mode : Mode) : constructFrom hash mode text = false := by
  induction text generalizing mode with
  | nil => rfl
  | cons c rest ih =>
    have hc := space_plain (h c mem_cons_self)
    simp only [mem_cons, not_or] at hc
    rw [constructFrom, ih fun c hc => h c (mem_cons_of_mem _ hc), Bool.or_false]
    cases mode <;> simp [hc]

lemma constructFrom_back (mode : Mode) (text : Text) (h : ∀ c ∈ back, isSpace c) :
    constructFrom hash mode (text++back) = constructFrom hash mode text := by
  induction text generalizing mode with
  | nil => exact constructFrom_space h mode
  | cons c rest ih =>
    rw [cons_append, constructFrom, constructFrom, ih]
    congr 1
    cases rest with
    | cons d rest => rfl
    | nil =>
      cases back with
      | nil => rfl
      | cons d back => exact forbids_space (h d mem_cons_self) mode

lemma clearFrom_of_append (h : clearFrom hash mode (text++back)) : clearFrom hash mode text := by
  induction text generalizing mode with
  | nil => rfl
  | cons c rest ih =>
    rw [cons_append, clearFrom, Bool.and_eq_true] at h
    rw [clearFrom, Bool.and_eq_true]
    exact ⟨h.1, ih h.2⟩

lemma read_front (h : ∀ c ∈ front, isSpace c) (wordStart : Bool) (text : Text) :
    ∃ wordStart', partsFrom hash (.plain wordStart) [] (front++text) = partsFrom hash (.plain wordStart') [] text ∧
      constructFrom hash (.plain wordStart) (front++text) = constructFrom hash (.plain wordStart') text ∧
      (clearFrom hash (.plain wordStart) (front++text) → clearFrom hash (.plain wordStart') text) := by
  induction front generalizing wordStart with
  | nil => exact ⟨wordStart, rfl, rfl, id⟩
  | cons c front ih =>
    have hc := h c mem_cons_self
    have hplain := space_plain hc
    simp only [mem_cons, not_or] at hplain
    obtain ⟨wordStart', hparts, hconstruct, hclear⟩ := ih (fun c hc => h c (mem_cons_of_mem _ hc)) (isMeta c)
    have hnext : (Mode.plain wordStart).next hash c = .plain (isMeta c) := by simp [Mode.next, hplain]
    refine ⟨wordStart', ?_, ?_, fun h => hclear ?_⟩
    · rw [← hparts, cons_append, partsFrom, hnext]
      split_ifs
      · rfl
      · have hspace : ∀ d ∈ [c], isSpace d := by simpa using hc
        exact partsFrom_front hspace _ [] _
    · rw [← hconstruct, cons_append, constructFrom, hnext]
      simp [hplain]
    · rw [cons_append, clearFrom, hnext, Bool.and_eq_true] at h
      exact h.2

/-! ### What the policy allows -/

lemma trimSpace_trimSpace (text : Text) : trimSpace (trimSpace text) = trimSpace text := by
  obtain ⟨front, back, htext, hfront, hback⟩ := exists_trimSpace text
  have h := congrArg trimSpace htext
  rw [trimSpace_append_right _ hback, trimSpace_append_left hfront] at h
  exact h.symm

lemma parts_eq_segments (hclear : ClearComments text) (hline : ¬ [carriageReturn, newline] <:+: text) :
    parts text = splitShellCommandSegments (trimSpace text) ∧
      (hasUnsupportedShellConstructs (trimSpace text) = false → hasConstruct text = false) := by
  obtain ⟨front, back, htext, hfront, hback⟩ := exists_trimSpace text
  have hinner : ¬ [carriageReturn, newline] <:+: trimSpace text := fun hinside =>
    hline (hinside.trans ⟨front, back, htext.symm⟩)
  have hwhole : text = front++(trimSpace text++back) := by rw [← append_assoc, ← htext]
  obtain ⟨wordStart, hparts, hconstruct, hclearFront⟩ := read_front hfront true (trimSpace text++back)
  rw [← hwhole] at hparts hconstruct hclearFront
  have hclear := clearFrom_of_append (hclearFront hclear)
  refine ⟨?_, fun hsupported => ?_⟩
  · rw [parts, hparts, partsFrom_back _ _ _ hback, splitShellCommandSegments,
      replaceAll_eq_self_of_absent (by simp) hinner, trimSpace_trimSpace]
    exact (split_eq_parts hclear (.inl rfl)).symm
  · rw [hasConstruct, hconstruct, constructFrom_back _ _ hback]
    exact constructFrom_eq_false hclear hsupported

variable {rules : List BashRule} {compiled : List CompiledRule}

lemma matchCompiled_eq {i} (h : compileEnabledBashRules i rules = some compiled) (segment : Text) :
    (matchCompiledBashRule compiled segment).map CompiledRule.action = (firstMatch rules segment).map BashRule.action := by
  induction rules generalizing i compiled with
  | nil =>
    cases h
    rfl
  | cons rule rules ih =>
    rw [compileEnabledBashRules] at h
    by_cases henabled : isRuleEnabled rule
    · rw [if_pos henabled] at h
      obtain ⟨re, hre, h⟩ := bind_eq_some_iff.mp h
      obtain ⟨rest, hrest, rfl⟩ := map_eq_some_iff.mp h
      have ih := ih hrest
      simp only [matchCompiledBashRule, firstMatch, find?_cons, henabled, hre, Bool.true_and, elim_some] at ih ⊢
      cases re segment with
      | true => rfl
      | false => exact ih
    · rw [if_neg henabled] at h
      have ih := ih h
      simpa [firstMatch, henabled] using ih

variable {policy : Policy}

lemma evaluateSegments_allowed {segments} (hdeny : policy.defaultBehavior = .deny) :
    evaluateSegments policy compiled segments = .allowed ↔
      ∀ segment ∈ segments, (matchCompiledBashRule compiled segment).map CompiledRule.action = some .allow := by
  induction segments with
  | nil => simp [evaluateSegments]
  | cons segment segments ih =>
    rw [evaluateSegments, forall_mem_cons]
    cases hmatch : matchCompiledBashRule compiled segment with
    | none => simp [hdeny]
    | some rule =>
      by_cases hallow : rule.action = .allow
      · simp [hallow, ih]
      · simp [hallow]

lemma allowed_iff (hdeny : policy.defaultBehavior = .deny) (hcommand : trimSpace text ≠ []) :
    evaluateBashPolicyResolved policy text = some .allowed ↔
      policy.bashEnabled ∧ hasUnsupportedShellConstructs (trimSpace text) = false ∧
        (compileEnabledBashRules 0 policy.rules).isSome ∧
        ∀ segment ∈ splitShellCommandSegments (trimSpace text),
          (firstMatch policy.rules segment).map BashRule.action = some .allow := by
  unfold evaluateBashPolicyResolved
  cases policy.bashEnabled with
  | false => simp
  | true =>
    simp only [Bool.true_eq_false, if_false, if_neg hcommand, true_and]
    cases hasUnsupportedShellConstructs (trimSpace text) with
    | true => simp
    | false =>
      simp only [Bool.false_eq_true, if_false, true_and]
      cases hcompiled : compileEnabledBashRules 0 policy.rules with
      | none => simp
      | some compiled =>
        simp only [map_some, some.injEq, evaluateSegments_allowed hdeny, isSome_some, true_and]
        simp only [matchCompiled_eq hcompiled]

lemma exists_allow_iff {part} :
    (∃ rule ∈ firstMatch rules part, rule.action = .allow) ↔ (firstMatch rules part).map BashRule.action = some .allow := by
  cases firstMatch rules part <;> simp

lemma sound_of_space (h : trimSpace text = []) (rules : List BashRule) : Sound rules text := by
  obtain ⟨front, back, htext, hfront, hback⟩ := exists_trimSpace text
  have hspace : ∀ c ∈ text, isSpace c := by
    rw [htext, h, append_nil]
    intro c hc
    exact (mem_append.mp hc).elim (hfront c) (hback c)
  refine ⟨constructFrom_space hspace _, fun part hpart => ?_⟩
  rw [parts, partsFrom_space hspace] at hpart
  exact absurd hpart (by simp [flush, trimSpace])

lemma segments_eq_bareParts (text : Text) : splitShellCommandSegments (trimSpace text) = bareParts text := by
  have hmode : Mode.plain true ≠ .comment := by simp
  exact split_eq_parts (clearFrom_bare hmode _) (.inl rfl)

lemma unsupported_eq_isSuspect (text : Text) : hasUnsupportedShellConstructs (trimSpace text) = isSuspect text := by
  have hmode : Mode.plain true ≠ .comment := by simp
  exact unsupported_eq hmode _

lemma sound_of_subset (hdeny : policy.defaultBehavior = .deny)
    (hallowed : evaluateBashPolicyResolved policy text = some .allowed)
    (h : isSuspect text ∨ hasConstruct text = false ∧ ∀ part ∈ parts text, part ∈ bareParts text) :
    Sound policy.rules text := by
  by_cases hcommand : trimSpace text = []
  · exact sound_of_space hcommand policy.rules
  obtain ⟨-, hsupported, -, hsegments⟩ := (allowed_iff hdeny hcommand).mp hallowed
  rw [unsupported_eq_isSuspect] at hsupported
  rw [segments_eq_bareParts] at hsegments
  obtain ⟨hconstruct, hsubset⟩ := h.resolve_left (by simp [hsupported])
  exact ⟨hconstruct, fun part hpart => exists_allow_iff.mpr (hsegments part (hsubset part hpart))⟩

def allowOnly (texts : List Text) : PolicyConfig where
  bashEnabled := some true
  rules := some [{pattern := some fun text => decide (text ∈ texts), action := .allow}]
  defaultBehavior := some .deny
  denyBehavior := none

/-- What is allowed is sound for every rule list that denies by default if and only if a reading without comments refuses
the command, or hides no part and no construct of it. That is so if the comments of the command hold no quotes,
backslashes and separators and no line ends with a carriage return. -/
theorem bash_policy_sound (text : Text) :
    ((∀ defaults policy, (resolveToolPolicy defaults policy).defaultBehavior = .deny →
      evaluateBashPolicy defaults policy text = some .allowed → Sound (resolveToolPolicy defaults policy).rules text) ↔
      isSuspect text ∨ hasConstruct text = false ∧ ∀ part ∈ parts text, part ∈ bareParts text) ∧
    (ClearComments text → ¬ [carriageReturn, newline] <:+: text →
      isSuspect text ∨ hasConstruct text = false ∧ ∀ part ∈ parts text, part ∈ bareParts text) := by
  refine ⟨⟨fun h => ?_, fun h defaults policy hdeny hallowed => sound_of_subset hdeny hallowed h⟩, fun hclear hline => ?_⟩
  · by_contra hnot
    rw [not_or, Bool.not_eq_true] at hnot
    obtain ⟨hsupported, hnot⟩ := hnot
    have hcommand : trimSpace text ≠ [] := by
      intro hempty
      obtain ⟨hconstruct, hparts⟩ := sound_of_space hempty []
      refine hnot ⟨hconstruct, fun part hpart => ?_⟩
      obtain ⟨rule, hrule, -⟩ := hparts part hpart
      simp [firstMatch] at hrule
    -- A rule for just the segments allows the command.
    have hallowed : evaluateBashPolicy (defaultToolPolicy true) (allowOnly (bareParts text)) text = some .allowed := by
      refine (allowed_iff rfl hcommand).mpr ⟨rfl, (unsupported_eq_isSuspect text).trans hsupported, rfl, fun segment hsegment => ?_⟩
      rw [segments_eq_bareParts] at hsegment
      simp [resolveToolPolicy, allowOnly, firstMatch, isRuleEnabled, hsegment]
    have hsound := h _ _ rfl hallowed
    refine hnot ⟨hsound.1, fun part hpart => ?_⟩
    obtain ⟨rule, hrule, -⟩ := hsound.2 part hpart
    have hmatch := find?_some hrule
    obtain rfl := mem_singleton.mp (mem_of_find?_eq_some hrule)
    simpa [isRuleEnabled] using hmatch
  · obtain ⟨hparts, hconstruct⟩ := parts_eq_segments hclear hline
    rw [segments_eq_bareParts] at hparts
    rw [unsupported_eq_isSuspect] at hconstruct
    cases hsuspect : isSuspect text with
    | true => exact .inl rfl
    | false => exact .inr ⟨hconstruct hsuspect, fun part hpart => hparts ▸ hpart⟩

/-- A policy that allows the commands that begin with `ls`. -/
def listing : PolicyConfig where
  bashEnabled := some true
  rules := some [{pattern := some fun text => "ls".toList.isPrefixOf text, action := .allow}]
  defaultBehavior := some .deny
  denyBehavior := none

theorem bash_policy_sound_listing :
    evaluateBashPolicy (defaultToolPolicy true) listing "ls -l; ls /tmp # both".toList = some .allowed ∧
      Sound (resolveToolPolicy (defaultToolPolicy true) listing).rules "ls -l; ls /tmp # both".toList := by
  have hclear : ClearComments "ls -l; ls /tmp # both".toList := by
    unfold ClearComments
    decide +kernel
  have hallowed : evaluateBashPolicy (defaultToolPolicy true) listing "ls -l; ls /tmp # both".toList = some .allowed := by
    decide +kernel
  have hsound := bash_policy_sound "ls -l; ls /tmp # both".toList
  exact ⟨hallowed, hsound.1.mpr (hsound.2 hclear (by decide +kernel)) _ _ rfl hallowed⟩

/-- A quote in a comment hides the next line or a substitution, and without its carriage return a line end is escaped. -/
theorem bash_policy_unsound : (resolveToolPolicy (defaultToolPolicy true) listing).defaultBehavior = .deny ∧
    ∀ command ∈ ["ls # it's\nrm -rf /", "ls # it's\nls $(rm -rf /)", "ls \\\r\nrm -rf /"],
      evaluateBashPolicy (defaultToolPolicy true) listing command.toList = some .allowed ∧
        ¬ Sound (resolveToolPolicy (defaultToolPolicy true) listing).rules command.toList := by
  refine ⟨rfl, ?_⟩
  simp only [forall_mem_cons, not_mem_nil, false_imp_iff, implies_true, and_true, Sound, exists_allow_iff]
  decide +kernel

end Ayatsuri.BashPolicy
