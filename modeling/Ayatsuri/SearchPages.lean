import Ayatsuri.SortedMerge

/-! The pages of a search in the DAG directory (`internal/persis/filedag/store.go`): the scan goes by full file names,
its cursor is a name without extension. -/
namespace Ayatsuri.SearchPages
open List SortedMerge

abbrev Name := List Char

/-- An entry of the directory, and whether the file can be read and the query is found in it. -/
structure File where
  name : Name
  found : Bool

/-- `path.Ext`. -/
def ext (name : Name) : Name := if '.' ∈ name then '.'::name.rtakeWhile (· ≠ '.') else []

def isYAMLFile (name : Name) : Bool := ext name = ['.', 'y', 'a', 'm', 'l'] || ext name = ['.', 'y', 'm', 'l']

def File.stem (f : File) : Name := f.name.take (f.name.length-(ext f.name).length)

structure Page where
  items : List Name
  hasMore : Bool

/-- The file name in `NextCursor`. -/
def Page.nextCursor (page : Page) : Name := page.items.getLastD []

/-- The loop of `SearchCursor` over the entries in the order of `os.ReadDir`. -/
def scan (limit : ℕ) (cursor : Name) : List File → List Name → Page
  | [], results => ⟨results, false⟩
  | f::files, results =>
    if isYAMLFile f.name = false then scan limit cursor files results
    else if cursor ≠ [] ∧ f.stem ≤ cursor then scan limit cursor files results
    else if f.found = false then scan limit cursor files results
    else if results.length = limit then ⟨results, true⟩
    else scan limit cursor files (results++[f.stem])

def searchCursor (limit : ℕ) (dir : List File) (cursor : Name) : Page := scan (max limit 1) cursor dir []

/-- The pages from a cursor on, `none` if there are more than `fuel` of them. -/
def pages (limit : ℕ) (dir : List File) : ℕ → Name → Option (List Page)
  | 0, _ => none
  | fuel+1, cursor =>
    let page := searchCursor limit dir cursor
    if page.hasMore then (pages limit dir fuel page.nextCursor).map (page::·) else some [page]

variable (dir : List File)

/-- The files that the search has to return. -/
def hits : List Name := (dir.filter fun f => isYAMLFile f.name && f.found).map File.stem

/-- `HasMore` of a page tells whether a later one has a file. -/
def TellMore : List Page → Prop
  | [] => True
  | page::later => (page.hasMore ↔ ∃ q ∈ later, q.items ≠ []) ∧ TellMore later

/-- Following the cursors ends, each hit is on one page once, and the pages tell whether there are more. -/
def Complete (limit : ℕ) (dir : List File) : Prop :=
  ∃ fuel ps, pages limit dir fuel [] = some ps ∧ ps.flatMap Page.items ~ hits dir ∧ TellMore ps

def remaining (cursor : Name) : List Name := (hits dir).filter fun s => cursor = [] ∨ cursor < s

variable {limit fuel : ℕ} {dir : List File} {cursor : Name} {ps : List Page}

lemma scan_eq {results : List Name} (h : results.length ≤ limit) : scan limit cursor dir results =
    ⟨(results++remaining dir cursor).take limit, limit < (results++remaining dir cursor).length⟩ := by
  induction dir generalizing results with
  | nil => simp [scan, remaining, hits, h]
  | cons f files ih =>
    rw [scan]
    split_ifs with hyaml hpast hfound hfull
    · rw [ih h]
      simp [remaining, hits, hyaml]
    · have hskip : ¬(cursor = [] ∨ cursor < f.stem) := by simp [hpast.1, hpast.2]
      rw [ih h]
      cases hhit : isYAMLFile f.name && f.found <;> simp [remaining, hits, hhit, hskip]
    · rw [ih h]
      simp [remaining, hits, hfound]
    all_goals
      have hkeep : cursor = [] ∨ cursor < f.stem := by simpa [Decidable.or_iff_not_imp_left] using hpast
      have hcons : remaining (f::files) cursor = f.stem::remaining files cursor := by
        simp [remaining, hits, hyaml, hfound, hkeep]
      rw [hcons]
    · simp [← hfull]
    · rw [ih (by simp; omega)]
      simp

lemma searchCursor_eq : searchCursor limit dir cursor =
    ⟨(remaining dir cursor).take (max limit 1), max limit 1 < (remaining dir cursor).length⟩ := scan_eq (Nat.zero_le _)

lemma take_ne_nil {l : List Name} (h : max limit 1 < l.length) : l.take (max limit 1) ≠ [] := by
  rw [Ne, take_eq_nil_iff]
  rintro (hzero | hnil)
  · omega
  · simp [hnil] at h

/-- With the empty name as cursor the next page is the first one again. -/
lemma pages_loop (hmore : (searchCursor limit dir []).hasMore)
    (hnext : (searchCursor limit dir []).nextCursor = []) : pages limit dir fuel [] = none := by
  induction fuel with
  | zero => rfl
  | succ fuel ih => rw [pages, if_pos hmore, hnext, ih, Option.map_none]

/-- With one file a page, the files come in the order of their stems, or not at all. -/
lemma pages_one (h : pages 1 dir fuel cursor = some ps) : ps.flatMap Page.items <+ remaining dir cursor ∧
    (ps.flatMap Page.items).Pairwise (· < ·) ∧ ([] ∈ ps.flatMap Page.items → (remaining dir cursor).length ≤ 1) := by
  induction fuel generalizing cursor ps with
  | zero => cases h
  | succ fuel ih =>
    cases hrem : remaining dir cursor with
    | nil =>
      obtain rfl : [⟨[], false⟩] = ps := by simpa [pages, searchCursor_eq, hrem] using h
      simp
    | cons first rest =>
      cases rest with
      | nil =>
        obtain rfl : [⟨[first], false⟩] = ps := by simpa [pages, searchCursor_eq, hrem] using h
        simp
      | cons second rest =>
        have hkeep : cursor = [] ∨ cursor < first := by
          have hmem : first ∈ remaining dir cursor := by simp [hrem]
          simpa [remaining] using (mem_filter.mp hmem).2
        have hpage : searchCursor 1 dir cursor = ⟨[first], true⟩ := by simp [searchCursor_eq, hrem]
        rw [pages, hpage, if_pos rfl] at h
        obtain ⟨later, hlater, rfl⟩ := Option.map_eq_some_iff.mp h
        have hfirst : first ≠ [] := by
          rintro rfl
          rcases hkeep with rfl | hlt
          · cases (pages_loop (by rw [hpage]) (by rw [hpage]; rfl)).symm.trans hlater
          · exact not_lt_nil _ hlt
        have hnext : remaining dir first = (second::rest).filter (first < ·) := by
          have hfilter : remaining dir first = (remaining dir cursor).filter (first < ·) := by
            rw [remaining, remaining, filter_filter]
            refine filter_congr fun s _ => ?_
            by_cases hs : first < s
            · have hcursor : cursor = [] ∨ cursor < s := hkeep.imp id fun hlt => hlt.trans hs
              simp [hs, hcursor]
            · simp [hs, hfirst]
          rw [hfilter, hrem, filter_cons_of_neg (by simp)]
        change pages 1 dir fuel first = some later at hlater
        obtain ⟨hsub, hsorted, -⟩ := ih hlater
        rw [hnext] at hsub
        have hgt : ∀ s ∈ later.flatMap Page.items, first < s := fun s hs => by
          simpa using (mem_filter.mp (hsub.subset hs)).2
        refine ⟨(hsub.trans filter_sublist).cons_cons first, pairwise_cons.mpr ⟨hgt, hsorted⟩, fun hnil => ?_⟩
        rcases mem_cons.mp hnil with heq | hmem
        · exact absurd heq.symm hfirst
        · exact absurd (hgt _ hmem) (not_lt_nil _)

lemma remaining_nil : remaining dir [] = hits dir := by simp [remaining]

lemma sorted_of_complete (h : Complete 1 dir) :
    (hits dir).Pairwise (· < ·) ∧ ([] ∈ hits dir → (hits dir).length ≤ 1) := by
  obtain ⟨fuel, ps, hps, hperm, -⟩ := h
  obtain ⟨hsub, hsorted, hnil⟩ := pages_one hps
  rw [remaining_nil] at hsub hnil
  rw [hsub.eq_of_length hperm.length_eq] at hsorted hnil
  exact ⟨hsorted, hnil⟩

/-- In the order of the stems, the search goes on with what follows the cursor. -/
lemma remaining_of_sorted {before rest} (hsorted : (hits dir).Pairwise (· < ·))
    (hhits : hits dir = before++cursor::rest) (hcursor : cursor ≠ []) : remaining dir cursor = rest := by
  rw [hhits] at hsorted
  rw [remaining, hhits]
  refine (filter_congr fun s _ => ?_).trans (filter_after hsorted)
  simp [hcursor]

lemma pages_of_sorted (hsorted : (hits dir).Pairwise (· < ·)) (hnil : [] ∈ hits dir → (hits dir).length ≤ 1)
    {before rest} (hhits : hits dir = before++rest) (hrem : remaining dir cursor = rest) :
    ∃ fuel ps, pages limit dir fuel cursor = some ps ∧ ps.flatMap Page.items = rest ∧ TellMore ps := by
  induction hn : rest.length using Nat.strong_induction_on generalizing before rest cursor with
  | _ n ih =>
    have hpage : searchCursor limit dir cursor = ⟨rest.take (max limit 1), max limit 1 < rest.length⟩ := by
      rw [searchCursor_eq, hrem]
    by_cases hmore : max limit 1 < rest.length
    · obtain ⟨items, last, htake⟩ := (eq_nil_or_concat (rest.take (max limit 1))).resolve_left (take_ne_nil hmore)
      have hsplit : hits dir = (before++items)++last::rest.drop (max limit 1) := by
        rw [hhits]
        conv_lhs => rw [← take_append_drop (max limit 1) rest, htake]
        simp
      have hlast : last ≠ [] := by
        rintro rfl
        have := hnil (by simp [hsplit])
        rw [hhits, length_append] at this
        omega
      obtain ⟨fuel, ps, hps, hflat, hright⟩ := ih _ (by rw [length_drop]; omega)
        (hsplit.trans (append_cons ..)) (remaining_of_sorted hsorted hsplit hlast) rfl
      refine ⟨fuel+1, ⟨rest.take (max limit 1), true⟩::ps, ?_, ?_, ?_⟩
      · simp [pages, hpage, hmore, Page.nextCursor, htake, hps]
      · rw [flatMap_cons, hflat, take_append_drop]
      · have hlater : ps.flatMap Page.items ≠ [] := by simpa [hflat] using hmore
        exact ⟨iff_of_true rfl (by simpa [flatMap_eq_nil_iff] using hlater), hright⟩
    · refine ⟨1, [⟨rest, false⟩], ?_, by simp, by simp [TellMore]⟩
      simpa [pages, hpage, hmore] using not_lt.mp hmore

/-- For every page size the pages are complete, exactly if the files come in the order of their stems and the empty
stem is not one of several. -/
theorem complete_iff_sorted (dir : List File) : (∀ limit, Complete limit dir) ↔
    (hits dir).Pairwise (· < ·) ∧ ([] ∈ hits dir → (hits dir).length ≤ 1) := by
  constructor
  · exact fun h => sorted_of_complete (h 1)
  rintro ⟨hsorted, hnil⟩ limit
  obtain ⟨fuel, ps, hps, hflat, hmore⟩ := pages_of_sorted hsorted hnil (nil_append _).symm remaining_nil
  exact ⟨fuel, ps, hps, hflat ▸ Perm.refl _, hmore⟩

def twoStems : List File := [⟨['a', '-', 'b', '.', 'y', 'a', 'm', 'l'], true⟩, ⟨['a', '.', 'y', 'a', 'm', 'l'], true⟩]

theorem shorter_stem_lost : (twoStems.map File.stem).Nodup ∧ (twoStems.map File.name).Pairwise (· < ·) ∧
    ¬ Complete 1 twoStems := by
  refine ⟨by decide, by decide, fun h => ?_⟩
  exact absurd (sorted_of_complete h).1 (by decide)

end Ayatsuri.SearchPages
