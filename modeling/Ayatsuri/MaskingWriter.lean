import Ayatsuri.ReplaceAll

/-! The masking of secrets in output (`internal/cmn/masking/masker.go`, `writer.go`): a `MaskingWriter` keeps
what follows the last line break in a buffer and masks the rest. The secrets are kept in a map, whose order
may differ from one call to the next. -/
namespace Ayatsuri.Masking
open ReplaceAll List

abbrev Bytes := List UInt8

def newline : UInt8 := 10

def star : UInt8 := 42

def defaultMaskString : Bytes := replicate 7 star

/-- The part before and the part behind the first `=`, or two empty strings. -/
def splitEnv (env : Bytes) : Bytes × Bytes :=
  match env.dropWhile (· ≠ 61) with
  | [] => ([], [])
  | _::value => (env.takeWhile (· ≠ 61), value)

structure Masker where
  sensitiveVals : List Bytes
  nodup : sensitiveVals.Nodup
  ne_nil : ∀ v ∈ sensitiveVals, v ≠ []

def newMasker (secrets : List Bytes) : Masker where
  sensitiveVals := ((secrets.map fun env => (splitEnv env).2).filter (· ≠ [])).dedup
  nodup := nodup_dedup _
  ne_nil := by
    intro v hv
    simpa using (mem_filter.mp (mem_dedup.mp hv)).2

def exchange : Bytes → List Bytes → Bytes × List Bytes
  | x, [] => (x, [])
  | x, y::ys =>
    if x.length < y.length then ((exchange y ys).1, x::(exchange y ys).2)
    else ((exchange x ys).1, y::(exchange x ys).2)

def sortFrom : ℕ → List Bytes → List Bytes
  | n+1, x::xs => (exchange x xs).1::sortFrom n (exchange x xs).2
  | _, values => values

variable (values : List Bytes)

def sortByLength : List Bytes := sortFrom values.length values

/-- `MaskString`, where the map is listed in the given order. -/
def maskString (order : List Bytes) (input : Bytes) : Bytes :=
  (sortByLength order).foldl (fun result val => replaceAll val defaultMaskString result) input

structure MaskingWriter where
  masker : Option Masker
  (buffer written : Bytes)

namespace MaskingWriter
variable (w : MaskingWriter) (order : List Bytes)

def flushLines : MaskingWriter :=
  let completeLines := w.buffer.rdropWhile (· ≠ newline)
  if completeLines = [] then w
  else {w with
    buffer := w.buffer.rtakeWhile (· ≠ newline)
    written := w.written++maskString order completeLines}

def write (p : Bytes) : MaskingWriter :=
  match w.masker with
  | none => {w with written := w.written++p}
  | some _ => flushLines {w with buffer := w.buffer++p} order

/-- Also `Close`, which flushes and then closes the underlying writer. -/
def flush : MaskingWriter :=
  if w.buffer = [] then w
  else
    match w.masker with
    | some _ => {w with buffer := [], written := w.written++maskString order w.buffer}
    | none => {w with buffer := [], written := w.written++w.buffer}

/-- The calls of `Write`, each with the order in which it lists the map. -/
def writeAll (calls : List (List Bytes × Bytes)) : MaskingWriter := calls.foldl (fun w call => w.write call.1 call.2) w

end MaskingWriter

variable (m : Masker)

/-- What is passed on for the calls of `Write` and one `Flush` or `Close`. -/
def output (calls : List (List Bytes × Bytes)) (last : List Bytes) : Bytes :=
  ((MaskingWriter.writeAll ⟨some m, [], []⟩ calls).flush last).written

def Masker.Transparent : Prop :=
  ∀ (calls : List (List Bytes × Bytes)) (last whole : List Bytes),
    (∀ call ∈ calls, call.1.Perm m.sensitiveVals) → last.Perm m.sensitiveVals →
      whole.Perm m.sensitiveVals → output m calls last = maskString whole (calls.map Prod.snd).flatten

def Masker.TransparentIn (order : List Bytes) : Prop :=
  ∀ parts : List Bytes, output m (parts.map fun p => (order, p)) order = maskString order parts.flatten

/-- No secret has a line break before its last byte, and none has a `*` if one ends in a line break. -/
structure Masker.LineSafe : Prop where
  breaks : ∀ v ∈ m.sensitiveVals, newline ∉ v.dropLast
  stars : (∃ v ∈ m.sensitiveVals, newline ∈ v) → ∀ v ∈ m.sensitiveVals, star ∉ v

/-- Moreover, two secrets of one length do not overlap and have no `*`. -/
structure Masker.Safe : Prop extends m.LineSafe where
  ties : ∀ v ∈ m.sensitiveVals, ∀ w ∈ m.sensitiveVals, v ≠ w → v.length = w.length → star ∉ v ∧ Closed v w

/-! ### The order of the values -/

variable (x : Bytes)

lemma exchange_perm (xs : List Bytes) : ((exchange x xs).1::(exchange x xs).2).Perm (x::xs) := by
  induction xs generalizing x with
  | nil => exact List.Perm.refl _
  | cons y ys ih =>
    simp only [exchange]
    split_ifs
    · exact (List.Perm.swap _ _ _).trans ((ih y).cons x)
    · exact (List.Perm.swap _ _ _).trans (((ih x).cons y).trans (List.Perm.swap _ _ _))

lemma length_exchange (xs : List Bytes) : (exchange x xs).2.length = xs.length := by
  simpa using (exchange_perm x xs).length_eq

lemma exchange_le (xs : List Bytes) :
    x.length ≤ (exchange x xs).1.length ∧ ∀ y ∈ (exchange x xs).2, y.length ≤ (exchange x xs).1.length := by
  induction xs generalizing x with
  | nil => simp [exchange]
  | cons y ys ih =>
    simp only [exchange]
    split_ifs with hlt
    · obtain ⟨hfirst, hrest⟩ := ih y
      simp only [forall_mem_cons]
      exact ⟨by omega, by omega, hrest⟩
    obtain ⟨hfirst, hrest⟩ := ih x
    simp only [forall_mem_cons]
    exact ⟨by omega, by omega, hrest⟩

lemma sortFrom_perm (n : ℕ) (values : List Bytes) : (sortFrom n values).Perm values := by
  induction n generalizing values with
  | zero => exact List.Perm.refl _
  | succ n ih =>
    cases values with
    | nil => exact List.Perm.refl _
    | cons x xs => exact ((ih _).cons _).trans (exchange_perm x xs)

lemma sortByLength_perm : (sortByLength values).Perm values := sortFrom_perm _ _

lemma sortFrom_sorted (n : ℕ) (values : List Bytes) (h : values.length ≤ n) :
    (sortFrom n values).Pairwise fun v w => w.length ≤ v.length := by
  induction n generalizing values with
  | zero => simp [length_eq_zero_iff.mp (Nat.le_zero.mp h), sortFrom]
  | succ n ih =>
    cases values with
    | nil => exact List.Pairwise.nil
    | cons x xs =>
      simp only [sortFrom, pairwise_cons]
      constructor
      · intro y hy
        exact (exchange_le x xs).2 y ((sortFrom_perm _ _).mem_iff.mp hy)
      apply ih
      rw [length_exchange]
      simpa using h

lemma sortByLength_sorted : (sortByLength values).Pairwise fun v w => w.length ≤ v.length := sortFrom_sorted _ _ le_rfl

section
variable {α β : Type*} {f : β → α → β} {key : α → ℕ}

lemma foldl_comm {p : List α} {x} (h : ∀ y ∈ p, ∀ b, f (f b x) y = f (f b y) x) (b : β) :
    p.foldl f (f b x) = f (p.foldl f b) x := by
  induction p generalizing b with
  | nil => rfl
  | cons y p ih => rw [foldl_cons, foldl_cons, h y (by simp), ih fun z hz => h z (mem_cons_of_mem _ hz)]

lemma foldl_eq_self {l : List α} {b} (h : ∀ x ∈ l, f b x = b) : l.foldl f b = b := by
  induction l with
  | nil => rfl
  | cons x l ih =>
    rw [foldl_cons, h x (by simp)]
    exact ih fun y hy => h y (mem_cons_of_mem _ hy)

lemma foldl_eq_of_perm_sorted {l l' : List α} (hperm : l.Perm l')
    (hl : l.Pairwise fun x y => key y ≤ key x) (hl' : l'.Pairwise fun x y => key y ≤ key x)
    (hcomm : ∀ x ∈ l, ∀ y ∈ l, key x = key y → ∀ b, f (f b x) y = f (f b y) x) (b : β) :
    l.foldl f b = l'.foldl f b := by
  induction l generalizing l' b with
  | nil => rw [hperm.nil_eq]
  | cons x l ih =>
    -- What stands before `x` in the other listing has the key of `x`, which is the greatest one.
    obtain ⟨p, q, rfl⟩ := append_of_mem (hperm.mem_iff.mp mem_cons_self)
    have hperm' : l.Perm (p++q) := (hperm.trans perm_middle).cons_inv
    have hkey : ∀ y ∈ p, key x = key y := by
      intro y hy
      apply le_antisymm
      · exact (pairwise_append.mp hl').2.2 y hy x (by simp)
      · exact (pairwise_cons.mp hl).1 y (hperm'.mem_iff.mpr (mem_append_left _ hy))
    have hswap : p.foldl f (f b x) = f (p.foldl f b) x := by
      apply foldl_comm
      intro y hy c
      have hmem : y ∈ l := hperm'.mem_iff.mpr (mem_append_left _ hy)
      exact hcomm x (by simp) y (mem_cons_of_mem _ hmem) (hkey y hy) c
    rw [foldl_cons, foldl_append, foldl_cons, ← hswap, ← foldl_append]
    apply ih hperm' (pairwise_cons.mp hl).2
    · exact hl'.sublist ((List.Sublist.refl p).append (sublist_cons_self x q))
    · intro y hy z hz
      exact hcomm y (mem_cons_of_mem _ hy) z (mem_cons_of_mem _ hz)

end

lemma maskString_nil (order : List Bytes) : maskString order [] = [] := by
  unfold maskString
  induction sortByLength order with
  | nil => rfl
  | cons v values ih => exact ih

variable {m : Masker}

lemma Masker.Safe.maskString_eq (h : m.Safe) {order order'}
    (ho : order.Perm m.sensitiveVals) (ho' : order'.Perm m.sensitiveVals) (input : Bytes) :
    maskString order input = maskString order' input := by
  have hperm := (sortByLength_perm order).trans ho
  apply foldl_eq_of_perm_sorted (hperm.trans (ho'.symm.trans (sortByLength_perm order').symm))
    (sortByLength_sorted order) (sortByLength_sorted order')
  intro v hv w hw hlen text
  rcases eq_or_ne v w with rfl | hne
  · rfl
  have hv := hperm.mem_iff.mp hv
  have hw := hperm.mem_iff.mp hw
  obtain ⟨hsv, hvw⟩ := h.ties v hv w hw hne hlen
  obtain ⟨hsw, hwv⟩ := h.ties w hw v hv hne.symm hlen.symm
  apply replaceAll_comm (m.ne_nil v hv) (m.ne_nil w hw) (by simp [defaultMaskString]) hne hlen hvw hwv
  · intro c hc
    rwa [eq_of_mem_replicate hc]
  · intro c hc
    rwa [eq_of_mem_replicate hc]

namespace Masker.LineSafe
variable {m : Masker} (h : m.LineSafe)
include h

omit h in
def Ends (m : Masker) (text : Bytes) : Prop :=
  text.getLast? = some newline ∨ (∀ v ∈ m.sensitiveVals, star ∉ v) ∧ text.getLast? = some star

lemma closed {v text} (hv : v ∈ m.sensitiveVals) (htext : Ends m text) : Closed v text := by
  rintro p q rfl hp hq ⟨front, rfl⟩
  have hlast : (front++p).getLast? = some (p.getLast hp) := by
    rw [getLast?_append_of_ne_nil _ hp, getLast?_eq_some_getLast hp]
  have hmem : p.getLast hp ∈ p := getLast_mem hp
  rcases htext with hnl | ⟨hstars, hstar⟩
  · -- The line break would stand before the last byte of the secret.
    have hdrop : p.getLast hp ∈ (p++q).dropLast := by
      rw [dropLast_append_of_ne_nil hq]
      exact mem_append_left _ hmem
    rw [hlast, Option.some.injEq] at hnl
    rw [hnl] at hdrop
    exact h.breaks _ hv hdrop
  · rw [hlast, Option.some.injEq] at hstar
    rw [hstar] at hmem
    exact hstars _ hv (mem_append_left _ hmem)

lemma ends_replaceAll {v text} (hv : v ∈ m.sensitiveVals) (htext : Ends m text) :
    Ends m (replaceAll v defaultMaskString text) := by
  have hne := m.ne_nil v hv
  have hmask : defaultMaskString ≠ [] := by simp [defaultMaskString]
  have hstar : defaultMaskString.getLast? = some star := rfl
  rcases htext with hnl | ⟨hstars, hlast⟩
  · by_cases hmem : newline ∈ v
    · rcases getLast?_replaceAll hne hmask text with hsame | hnew
      · exact .inl (hsame.trans hnl)
      · exact .inr ⟨h.stars ⟨v, hv, hmem⟩, hnew.trans hstar⟩
    · exact .inl (getLast?_replaceAll_of_not_mem hne hmask hmem hnl)
  · rcases getLast?_replaceAll hne hmask text with hsame | hnew
    · exact .inr ⟨hstars, hsame.trans hlast⟩
    · exact .inr ⟨hstars, hnew.trans hstar⟩

lemma maskString_append {order} (ho : order.Perm m.sensitiveVals) {text} (htext : Ends m text) (rest : Bytes) :
    maskString order (text++rest) = maskString order text++maskString order rest := by
  have hsub : ∀ v ∈ sortByLength order, v ∈ m.sensitiveVals := fun v hv =>
    ho.mem_iff.mp ((sortByLength_perm order).mem_iff.mp hv)
  unfold maskString
  generalize sortByLength order = values at hsub
  induction values generalizing text rest with
  | nil => rfl
  | cons v values ih =>
    have hv := hsub v (by simp)
    rw [foldl_cons, foldl_cons, foldl_cons, replaceAll_append (m.ne_nil v hv) (h.closed hv htext)]
    exact ih (h.ends_replaceAll hv htext) _ fun w hw => hsub w (mem_cons_of_mem _ hw)

lemma maskString_append_of {order} (ho : order.Perm m.sensitiveVals) {text : Bytes}
    (htext : text = [] ∨ text.getLast? = some newline) (rest : Bytes) :
    maskString order (text++rest) = maskString order text++maskString order rest := by
  rcases htext with rfl | hlast
  · rw [maskString_nil, nil_append, nil_append]
  · exact h.maskString_append ho (.inl hlast) rest

end Masker.LineSafe

/-! ### The writer -/

lemma getLast?_completeLines {buffer : Bytes} (h : buffer.rdropWhile (· ≠ newline) ≠ []) :
    (buffer.rdropWhile (· ≠ newline)).getLast? = some newline := by
  have hlast := rdropWhile_last_not (· ≠ newline) buffer h
  rw [getLast?_eq_some_getLast h]
  simpa using hlast

open MaskingWriter

namespace MaskingWriter
variable {m : Masker} {w : MaskingWriter} {order : List Bytes} {text : Bytes}

structure Inv (m : Masker) (order : List Bytes) (w : MaskingWriter) (text : Bytes) : Prop where
  masker : w.masker = some m
  lines : ∃ done, text = done++w.buffer ∧ w.written = maskString order done ∧ (done = [] ∨ done.getLast? = some newline)

variable (hm : m.LineSafe) (ho : order.Perm m.sensitiveVals) (h : w.Inv m order text)
include hm ho h

lemma Inv.write {call : List Bytes × Bytes} (hcall : ∀ input, maskString call.1 input = maskString order input) :
    (w.write call.1 call.2).Inv m order (text++call.2) := by
  obtain ⟨hmasker, done, htext, hwritten, hdone⟩ := h
  simp only [MaskingWriter.write, hmasker, flushLines]
  split_ifs with hnone
  · exact ⟨rfl, done, by simp [htext], hwritten, hdone⟩
  refine ⟨rfl, done++(w.buffer++call.2).rdropWhile (· ≠ newline), ?_, ?_, .inr ?_⟩
  · rw [append_assoc, rdropWhile_append_rtakeWhile, htext, append_assoc]
  · show w.written++_ = _
    rw [hwritten, hcall]
    exact (hm.maskString_append_of ho hdone _).symm
  · rw [getLast?_append_of_ne_nil _ hnone]
    exact getLast?_completeLines hnone

lemma Inv.writeAll {calls : List (List Bytes × Bytes)}
    (hcalls : ∀ call ∈ calls, ∀ input, maskString call.1 input = maskString order input) :
    (w.writeAll calls).Inv m order (text++(calls.map Prod.snd).flatten) := by
  induction calls generalizing w text with
  | nil => simpa [writeAll] using h
  | cons call calls ih =>
    have hnext := ih (h.write hm ho (hcalls call (by simp))) fun c hc => hcalls c (mem_cons_of_mem _ hc)
    rw [append_assoc] at hnext
    exact hnext

lemma Inv.flush {last} (hlast : ∀ input, maskString last input = maskString order input) :
    (w.flush last).written = maskString order text := by
  obtain ⟨hmasker, done, htext, hwritten, hdone⟩ := h
  rw [htext, hm.maskString_append_of ho hdone, ← hwritten]
  simp only [MaskingWriter.flush, hmasker]
  split_ifs with hnil
  · simp [hnil, maskString_nil]
  · simp [hlast]

end MaskingWriter

lemma Masker.LineSafe.output_eq (h : m.LineSafe) {calls : List (List Bytes × Bytes)}
    {last whole} (hwhole : whole.Perm m.sensitiveVals)
    (hcalls : ∀ call ∈ calls, ∀ input, maskString call.1 input = maskString whole input)
    (hlast : ∀ input, maskString last input = maskString whole input) :
    output m calls last = maskString whole (calls.map Prod.snd).flatten := by
  have hstart : MaskingWriter.Inv m whole ⟨some m, [], []⟩ [] := ⟨rfl, [], rfl, (maskString_nil whole).symm, .inl rfl⟩
  exact (hstart.writeAll h hwhole hcalls).flush h hwhole hlast

lemma Masker.Safe.transparent (h : m.Safe) : m.Transparent := by
  intro calls last whole hcalls hlast hwhole
  apply h.toLineSafe.output_eq hwhole
  · intro call hcall
    exact h.maskString_eq (hcalls call hcall) hwhole
  · exact h.maskString_eq hlast hwhole

/-! ### Secrets with a line break inside -/

variable {m : Masker} {order : List Bytes}

section
variable (ho : order.Perm m.sensitiveVals)
include ho

lemma maskString_ne_nil {input} (hinput : input ≠ []) : maskString order input ≠ [] := by
  have hne : ∀ v ∈ sortByLength order, v ≠ [] := fun v hv =>
    m.ne_nil v (ho.mem_iff.mp ((sortByLength_perm order).mem_iff.mp hv))
  unfold maskString
  generalize sortByLength order = values at hne
  induction values generalizing input with
  | nil => exact hinput
  | cons v values ih =>
    apply ih
    · exact replaceAll_ne_nil (hne v (by simp)) (by simp [defaultMaskString]) hinput
    · exact fun w hw => hne w (mem_cons_of_mem _ hw)

variable (hstars : ∀ v ∈ m.sensitiveVals, star ∉ v)
include hstars

lemma newline_mem_or_count
    {input : Bytes} (hinput : newline ∈ input ∨ 7 ≤ input.count star) :
    newline ∈ maskString order input ∨ 7 ≤ (maskString order input).count star := by
  have hmem : ∀ v ∈ sortByLength order, v ∈ m.sensitiveVals := fun v hv =>
    ho.mem_iff.mp ((sortByLength_perm order).mem_iff.mp hv)
  unfold maskString
  generalize sortByLength order = values at hmem
  induction values generalizing input with
  | nil => exact hinput
  | cons v values ih =>
    have hv := hmem v (by simp)
    have hne := m.ne_nil v hv
    apply ih _ fun w hw => hmem w (mem_cons_of_mem _ hw)
    rcases hinput with hnl | hcount
    · exact mem_replaceAll_or_count hne star hnl
    · exact .inr (hcount.trans (count_le_count_replaceAll hne (hstars v hv) input))

lemma maskString_secret
    {v} (hv : v ∈ m.sensitiveVals) : maskString order v = defaultMaskString := by
  have hperm := (sortByLength_perm order).trans ho
  have hsorted := sortByLength_sorted order
  have hnodup : (sortByLength order).Nodup := hperm.nodup_iff.mpr m.nodup
  obtain ⟨longer, shorter, hsplit⟩ := append_of_mem (hperm.mem_iff.mpr hv)
  have hmem : ∀ w ∈ longer++v::shorter, w ∈ m.sensitiveVals := fun w hw => hperm.mem_iff.mp (hsplit ▸ hw)
  rw [hsplit] at hsorted hnodup
  have hlonger : longer.foldl (fun result val => replaceAll val defaultMaskString result) v = v := by
    apply foldl_eq_self
    intro w hw
    apply replaceAll_eq_self_of_absent (m.ne_nil w (hmem w (mem_append_left _ hw)))
    intro hfactor
    have hle := (pairwise_append.mp hsorted).2.2 w hw v (by simp)
    have heq : w = v := hfactor.eq_of_length (le_antisymm hfactor.length_le hle)
    exact (nodup_append.mp hnodup).2.2 w hw v (by simp) heq
  have hshorter : shorter.foldl (fun result val => replaceAll val defaultMaskString result)
      defaultMaskString = defaultMaskString := by
    apply foldl_eq_self
    intro w hw
    have hw := hmem w (mem_append_right _ (mem_cons_of_mem _ hw))
    apply replaceAll_of_disjoint (m.ne_nil w hw)
    intro c hc
    rw [eq_of_mem_replicate hc]
    exact hstars w hw
  rw [maskString, hsplit, foldl_append, hlonger, foldl_cons, replaceAll_self (m.ne_nil v hv), hshorter]

end

/-! ### Texts that masking leaves as they are -/

section
variable (ho : order.Perm m.sensitiveVals)
include ho

lemma not_infix_maskString (hstars : ∀ v ∈ m.sensitiveVals, star ∉ v) {v}
    (hv : v ∈ m.sensitiveVals) (input : Bytes) : ¬ v <:+: maskString order input := by
  have hperm := (sortByLength_perm order).trans ho
  have hmem : ∀ w ∈ sortByLength order, w ∈ m.sensitiveVals := fun w hw => hperm.mem_iff.mp hw
  have hstart : v ∈ sortByLength order ∨ ¬ v <:+: input := .inl (hperm.mem_iff.mpr hv)
  unfold maskString
  generalize sortByLength order = values at hmem hstart
  induction values generalizing input with
  | nil => exact hstart.resolve_left (by simp)
  | cons w values ih =>
    refine ih _ (fun u hu => hmem u (mem_cons_of_mem _ hu)) ?_
    have hcases : v ∈ values ∨ v = w ∨ ¬ v <:+: input := by
      rw [mem_cons] at hstart
      tauto
    refine hcases.imp_right fun h => ?_
    exact not_infix_replaceAll (m.ne_nil w (hmem w (by simp))) (by simp [defaultMaskString]) (m.ne_nil v hv)
      (fun c hc => eq_of_mem_replicate hc ▸ hstars v hv) h

/-- Secrets without a `*` change exactly the texts in which they occur. -/
lemma maskString_eq_self_iff (hstars : ∀ v ∈ m.sensitiveVals, star ∉ v)
    (text : Bytes) : maskString order text = text ↔ ∀ v ∈ m.sensitiveVals, ¬ v <:+: text := by
  constructor
  · intro heq v hv
    rw [← heq]
    exact not_infix_maskString ho hstars hv text
  intro hnone
  refine foldl_eq_self fun v hv => ?_
  have hv := ((sortByLength_perm order).trans ho).mem_iff.mp hv
  exact replaceAll_eq_self_of_absent (m.ne_nil v hv) (hnone v hv)

lemma maskString_eq_id_iff : (∀ text, maskString order text = text) ↔ ∀ v ∈ m.sensitiveVals, v = defaultMaskString := by
  have hperm := (sortByLength_perm order).trans ho
  have hsorted := sortByLength_sorted order
  constructor
  · intro hid v hv
    by_contra hne
    -- The last secret that is not the mask meets no shorter one but the mask.
    set values := sortByLength order with hvalues
    have hfront : values.rdropWhile (· = defaultMaskString) ≠ [] := by
      intro hnil
      have hall := rdropWhile_eq_nil_iff.mp hnil v (hperm.mem_iff.mpr hv)
      exact hne (by simpa using hall)
    obtain ⟨longer, w, hsplit⟩ : ∃ longer w, values.rdropWhile (· = defaultMaskString) = longer++[w] :=
      ⟨_, _, (dropLast_append_getLast hfront).symm⟩
    have hw : w ≠ defaultMaskString := by
      have hlast := rdropWhile_last_not (· = defaultMaskString) values hfront
      simpa [hsplit] using hlast
    set masks := values.rtakeWhile (· = defaultMaskString) with hmasks
    have hall : values = longer++w::masks := by
      have hparts : values.rdropWhile (· = defaultMaskString)++masks = values := rdropWhile_append_rtakeWhile
      rw [← hparts, hsplit, append_assoc]
      rfl
    have hmem : ∀ u ∈ longer++w::masks, u ∈ m.sensitiveVals := fun u hu => hperm.mem_iff.mp (hall ▸ hu)
    have hnodup : (longer++w::masks).Nodup := hall ▸ hperm.nodup_iff.mpr m.nodup
    rw [hall] at hsorted
    have hlonger : longer.foldl (fun result val => replaceAll val defaultMaskString result) w = w := by
      refine foldl_eq_self fun u hu => replaceAll_eq_self_of_absent (m.ne_nil u (hmem u (mem_append_left _ hu))) fun hfactor => ?_
      have hle := (pairwise_append.mp hsorted).2.2 u hu w (by simp)
      have heq : u = w := hfactor.eq_of_length (le_antisymm hfactor.length_le hle)
      exact (nodup_append.mp hnodup).2.2 u hu w (by simp) heq
    have hmasked : masks.foldl (fun result val => replaceAll val defaultMaskString result) defaultMaskString =
        defaultMaskString := by
      refine foldl_eq_self fun u hu => ?_
      have hu := mem_rtakeWhile_imp hu
      obtain rfl : u = defaultMaskString := by simpa using hu
      exact replaceAll_refl (by simp [defaultMaskString]) _
    have hmask : maskString order w = defaultMaskString := by
      rw [maskString, ← hvalues, hall, foldl_append, hlonger, foldl_cons,
        replaceAll_self (m.ne_nil w (hmem w (by simp))), hmasked]
    exact hw ((hid w).symm.trans hmask)
  · intro hmasks text
    refine foldl_eq_self fun v hv => ?_
    rw [hmasks v (hperm.mem_iff.mp hv)]
    exact replaceAll_refl (by simp [defaultMaskString]) _

end

lemma MaskingWriter.newline_notMem_write {w : MaskingWriter} (hw : w.masker = some m) (p : Bytes) :
    newline ∉ (w.write order p).buffer := by
  simp only [write, hw, flushLines]
  split_ifs with hnone
  · intro hmem
    have hall := rdropWhile_eq_nil_iff.mp hnone newline hmem
    simp at hall
  intro hmem
  have hne := mem_rtakeWhile_imp hmem
  simp at hne

lemma exists_written (ho : order.Perm m.sensitiveVals) {b} (hb : b ≠ []) (done : Bytes) :
    ∃ x, x ≠ [] ∧ ((MaskingWriter.write ⟨some m, [], done⟩ order b).flush order).written = done++x := by
  simp only [write, flushLines, nil_append]
  split_ifs with hnone
  · refine ⟨maskString order b, maskString_ne_nil ho hb, ?_⟩
    simp [flush, hb]
  have hne := maskString_ne_nil ho hnone
  simp only [flush]
  split_ifs
  · exact ⟨_, hne, rfl⟩
  · exact ⟨_++_, append_ne_nil_of_left_ne_nil hne _, append_assoc _ _ _⟩

lemma breaks_of_transparentIn (ho : order.Perm m.sensitiveVals)
    (hstars : ∀ v ∈ m.sensitiveVals, star ∉ v) (h : m.TransparentIn order) :
    ∀ v ∈ m.sensitiveVals, newline ∉ v.dropLast := by
  intro v hv hbreak
  obtain ⟨a, c, hac⟩ := append_of_mem hbreak
  obtain ⟨b, hb, hsplit⟩ : ∃ b, b ≠ [] ∧ a++[newline]++b = v := by
    refine ⟨c++[v.getLast (m.ne_nil v hv)], by simp, ?_⟩
    conv_rhs => rw [← dropLast_append_getLast (m.ne_nil v hv), hac]
    simp
  have hlines : (a++[newline]).rdropWhile (· ≠ newline) = a++[newline] := rdropWhile_concat_neg _ _ _ (by simp)
  have hfirst : write ⟨some m, [], []⟩ order (a++[newline]) = ⟨some m, [], maskString order (a++[newline])⟩ := by
    simp only [write, flushLines, nil_append, hlines]
    rw [if_neg (by simp), rtakeWhile_concat_neg _ _ _ (by simp)]
  obtain ⟨x, hx, hwritten⟩ := exists_written ho hb (maskString order (a++[newline]))
  have hmask : maskString order (a++[newline])++x = defaultMaskString := by
    rw [← hwritten, ← hfirst, ← maskString_secret ho hstars hv, ← hsplit]
    simpa [output, writeAll] using h [a++[newline], b]
  have hbyte : newline ∈ a++[newline] := by simp
  -- The line break is not in the mask, and the mask is not the whole of what was written.
  rcases newline_mem_or_count ho hstars (.inl hbyte) with hmem | hcount
  · have hmem' : newline ∈ defaultMaskString := hmask ▸ mem_append_left _ hmem
    exact absurd hmem' (by decide)
  have hlen := congrArg length hmask
  have hle := count_le_length (a := star) (l := maskString order (a++[newline]))
  have hpos : 0 < x.length := length_pos_iff.mpr hx
  simp only [length_append, defaultMaskString, length_replicate] at hlen
  omega

/-- Secrets with a line break before their last byte are those whose masking depends on the cuts. -/
theorem masking_transparent (m : Masker) : (m.Safe → m.Transparent) ∧
      ∀ order, order.Perm m.sensitiveVals → (∀ v ∈ m.sensitiveVals, star ∉ v) →
        (m.TransparentIn order ↔ ∀ v ∈ m.sensitiveVals, newline ∉ v.dropLast) := by
  refine ⟨Masker.Safe.transparent, ?_⟩
  intro order ho hstars
  constructor
  · exact breaks_of_transparentIn ho hstars
  intro hbreaks parts
  have hsafe : m.LineSafe := ⟨hbreaks, fun _ => hstars⟩
  have heq : output m (parts.map fun p => (order, p)) order =
      maskString order ((parts.map fun p => (order, p)).map Prod.snd).flatten :=
    hsafe.output_eq ho (by simp) fun _ => rfl
  simpa [Function.comp_def] using heq

/-- The secrets `k` with a line break and `abc`. -/
def oneLine : Masker where
  sensitiveVals := [[107, newline], [97, 98, 99]]
  nodup := by decide
  ne_nil := by simp

theorem masking_transparent_oneLine : oneLine.Safe ∧ oneLine.Transparent := by
  have hsafe : oneLine.Safe := by
    refine ⟨⟨by decide, fun _ => by decide⟩, ?_⟩
    simp [oneLine]
  exact ⟨hsafe, (masking_transparent oneLine).1 hsafe⟩

/-- Whatever the order of the map, no secret is left in the text. -/
theorem masked_without_secrets (m : Masker) (hstars : ∀ v ∈ m.sensitiveVals, star ∉ v) (order : List Bytes)
    (ho : order.Perm m.sensitiveVals) (input : Bytes) : ∀ v ∈ m.sensitiveVals, ¬ v <:+: maskString order input :=
  fun _ hv => not_infix_maskString ho hstars hv input

theorem masked_without_secrets_oneLine : ¬ [97, 98, 99] <:+: maskString oneLine.sensitiveVals [97, 98, 99, 107, newline] :=
  masked_without_secrets oneLine (by decide) _ (List.Perm.refl _) _ _ (by decide)

/-- The secret `a`, line break, `b`. -/
def twoLines : Masker where
  sensitiveVals := [[97, newline, 98]]
  nodup := by simp
  ne_nil := by simp

/-- It is passed on unmasked when its lines are written one after the other. -/
theorem masking_depends_on_cuts :
    output twoLines [([[97, newline, 98]], [97, newline]), ([[97, newline, 98]], [98])] [[97, newline, 98]] = [97, newline, 98] ∧
      maskString [[97, newline, 98]] [97, newline, 98] = defaultMaskString ∧ ¬ twoLines.Transparent := by
  refine ⟨by decide, by decide, ?_⟩
  intro h
  have heq := h [([[97, newline, 98]], [97, newline]), ([[97, newline, 98]], [98])] [[97, newline, 98]]
    [[97, newline, 98]] (by simp [twoLines]) (List.Perm.refl _) (List.Perm.refl _)
  exact absurd heq (by decide)

end Ayatsuri.Masking
