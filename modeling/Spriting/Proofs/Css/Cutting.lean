import Spriting.Css.Selector
import Spriting.Proofs.Css.Delimiters

/-!
# Selector lists cut and joined

A selector list is cut at the commas outside strings and brackets, and its entries are trimmed.
Where it is cut no string and no bracket is open, and blanks neither open nor close one.  So every
selector but the last ends where a comma separates, also where empty entries are left out behind
it, and joined by commas the selectors are cut where they were joined.

* `Cut.entries`: what the selectors of a list are like;
* `splitSelectors_joined_iff`: when selectors that are joined are cut into themselves;
* `splitSelectors_rejoined`: so the selectors of a list are.
-/

namespace Spriting.Css

open Text Reader

/-! ## Entries -/

/-- The entries of a selector list, trimmed and without the empty ones. -/
def entries (segs : List (List Char)) : List (List Char) := (segs.map trim).filter (· ≠ [])

/-- The pieces between the commas of a list. -/
def pieces (n : Nesting) (cs : List Char) : List (List Char) :=
  (segments n cs).1 :: (segments n cs).2

theorem splitSelectors_eq (raw : List Char) :
    splitSelectors raw = (entries (pieces {} raw)).map String.ofList := rfl

theorem trim_of_mem_entries {segs : List (List Char)} {e : List Char} (h : e ∈ entries segs) :
    trim e = e ∧ e ≠ [] := by
  obtain ⟨hmem, hne⟩ := List.mem_filter.1 h
  obtain ⟨s, -, rfl⟩ := List.mem_map.1 hmem
  exact ⟨trim_trim s, by simpa using hne⟩

/-! ## Cutting -/

namespace Nesting

/-- The mark of an open string is a quote. -/
def Proper (n : Nesting) : Prop := ∀ mark ∈ n.mark, IsQuote mark

theorem proper_start : Proper {} := by
  intro mark h
  cases h

theorem Proper.advance {n : Nesting} (h : n.Proper) (c : Char) : (n.advance c).Proper := by
  unfold Nesting.advance
  split
  · split
    · intro mark hmark
      cases hmark
    · exact h
  · split
    · rename_i hc
      intro mark hmark
      cases hmark
      simpa [IsQuote] using hc
    · split
      · exact h
      · split
        · exact h
        · exact h

/-- The nesting behind a text without a comma that separates. -/
def within (n : Nesting) : List Char → Option Nesting
  | [] => some n
  | c :: cs => if n.separates c then none else (n.advance c).within cs

theorem within_append (n : Nesting) (s t : List Char) :
    n.within (s ++ t) = (n.within s).bind (·.within t) := by
  induction s generalizing n with
  | nil => rfl
  | cons c s ih =>
    simp only [List.cons_append, within]
    split
    · rfl
    · exact ih (n.advance c)

theorem Proper.within {n n' : Nesting} {s : List Char} (hn : n.Proper)
    (h : n.within s = some n') : n'.Proper := by
  induction s generalizing n with
  | nil =>
    cases h
    exact hn
  | cons c s ih =>
    simp only [Nesting.within, Option.ite_none_left_eq_some] at h
    exact ih (hn.advance c) h.2

/-- Blanks change nothing. -/
theorem Proper.within_blank {n : Nesting} {b : List Char} (hn : n.Proper) (hb : AllBlank b) :
    n.within b = some n := by
  induction b with
  | nil => rfl
  | cons c b ih =>
    obtain ⟨hc, hb⟩ := List.forall_mem_cons.1 hb
    have hne : ∀ d, isBlank d = false → c ≠ d := by
      rintro d hd rfl
      rw [hc] at hd
      cases hd
    have hsep : n.separates c = false := by
      simp [separates, hne ',' (by decide)]
    have hadvance : n.advance c = n := by
      unfold Nesting.advance
      split
      · rename_i mark hmark
        have : c ≠ mark := by
          rcases hn mark hmark with rfl | rfl
          · exact hne _ (by decide)
          · exact hne _ (by decide)
        rw [if_neg this]
      · simp [hne '"' (by decide), hne '\'' (by decide), hne '(' (by decide), hne '[' (by decide),
          hne ')' (by decide), hne ']' (by decide)]
    simp only [Nesting.within, hsep, hadvance]
    exact ih hb

theorem Proper.within_trim {n n' : Nesting} {s : List Char} (hn : n.Proper)
    (h : n.within s = some n') : n.within (trim s) = some n' := by
  obtain ⟨b, b', hb, hb', hs⟩ := exists_trim s
  rw [hs, within_append, hn.within_blank hb, Option.bind_some, within_append] at h
  obtain ⟨m, hcore, hrest⟩ := Option.bind_eq_some_iff.1 h
  rw [(hn.within hcore).within_blank hb'] at hrest
  cases hrest
  exact hcore

end Nesting

theorem segments_append {n n' : Nesting} {s : List Char} (t : List Char)
    (h : n.within s = some n') :
    segments n (s ++ t) = (s ++ (segments n' t).1, (segments n' t).2) := by
  induction s generalizing n with
  | nil =>
    cases h
    rfl
  | cons c s ih =>
    simp only [Nesting.within, Option.ite_none_left_eq_some] at h
    simp only [List.cons_append, segments, if_neg h.1, ih h.2]

/-- Every piece but the last ends where a comma separates, and no comma inside a piece
separates. -/
def Cut (n : Nesting) : List (List Char) → Prop
  | [] => True
  | [s] => ∃ n', n.within s = some n'
  | s :: segs => n.within s = some {} ∧ Cut {} segs

theorem Cut.cons {n n' : Nesting} {s : List Char} {segs : List (List Char)}
    (hs : n.within s = some n') (hlast : segs ≠ [] → n' = {} ∧ Cut {} segs) :
    Cut n (s :: segs) := by
  cases segs with
  | nil => exact ⟨n', hs⟩
  | cons t segs =>
    obtain ⟨rfl, hrest⟩ := hlast (List.cons_ne_nil t segs)
    exact ⟨hs, hrest⟩

theorem Cut.uncons {n : Nesting} {s : List Char} {segs : List (List Char)}
    (h : Cut n (s :: segs)) :
    ∃ n', n.within s = some n' ∧ (segs ≠ [] → n' = {} ∧ Cut {} segs) := by
  cases segs with
  | nil =>
    obtain ⟨n', hs⟩ := h
    exact ⟨n', hs, fun hne => absurd rfl hne⟩
  | cons t segs => exact ⟨{}, h.1, fun _ => ⟨rfl, h.2⟩⟩

theorem Cut.whole {segs : List (List Char)} {s : List Char} (h : Cut {} segs) (hs : s ∈ segs) :
    ∃ n, Nesting.within {} s = some n := by
  induction segs with
  | nil => cases hs
  | cons t segs ih =>
    obtain ⟨n, ht, hlast⟩ := h.uncons
    rcases List.mem_cons.1 hs with rfl | hs
    · exact ⟨n, ht⟩
    · exact ih (hlast (List.ne_nil_of_mem hs)).2 hs

theorem cut_pieces (n : Nesting) (cs : List Char) : Cut n (pieces n cs) := by
  induction cs generalizing n with
  | nil => exact ⟨n, rfl⟩
  | cons c cs ih =>
    unfold pieces
    rw [segments]
    split
    · rename_i hsep
      have hstart : n = {} := by
        obtain ⟨depth, mark⟩ := n
        simp only [Nesting.separates, Option.isNone_iff_eq_none, Bool.and_eq_true,
          beq_iff_eq] at hsep
        rw [hsep.1.1, hsep.1.2]
      subst hstart
      exact ⟨rfl, ih {}⟩
    · rename_i hsep
      obtain ⟨n', hs, hlast⟩ := (ih (n.advance c)).uncons
      exact .cons (by rw [Nesting.within, if_neg hsep]; exact hs) hlast

theorem Cut.entries {n : Nesting} {segs : List (List Char)} (hn : n.Proper) (h : Cut n segs) :
    Cut n (entries segs) := by
  induction segs generalizing n with
  | nil => trivial
  | cons s segs ih =>
    obtain ⟨n', hs, hlast⟩ := h.uncons
    have hcore := hn.within_trim hs
    have hrest : segs ≠ [] → n' = {} ∧ Cut {} (Css.entries segs) := by
      intro hne
      obtain ⟨hn', hcut⟩ := hlast hne
      exact ⟨hn', ih Nesting.proper_start hcut⟩
    have htail : Css.entries segs ≠ [] → segs ≠ [] := by
      rintro hne rfl
      exact hne rfl
    rw [Css.entries, List.map_cons]
    by_cases he : trim s = []
    · rw [List.filter_cons_of_neg (by simpa using he)]
      by_cases hne : segs = []
      · subst hne
        trivial
      · rw [he] at hcore
        cases hcore
        obtain ⟨rfl, hcut⟩ := hrest hne
        exact hcut
    · rw [List.filter_cons_of_pos (by simpa using he)]
      exact .cons hcore fun hne => hrest (htail hne)

/-! ## Joining -/

theorem allBlank_nil : AllBlank [] := nofun

theorem allBlank_space : AllBlank [' '] := by decide

theorem allBlank_newline : AllBlank ['\n'] := by decide

theorem segments_comma (cs : List Char) : segments {} (',' :: cs) = ([], pieces {} cs) := by
  rw [segments, if_pos (by decide)]
  rfl

theorem pieces_of_within {n n' : Nesting} {s : List Char} (h : n.within s = some n') :
    pieces n s = [s] := by
  have := segments_append [] h
  rw [List.append_nil] at this
  simp [pieces, this, segments]

theorem pieces_append_comma {n : Nesting} {s : List Char} (t : List Char)
    (h : n.within s = some {}) : pieces n (s ++ ',' :: t) = s :: pieces {} t := by
  rw [pieces, segments_append _ h, segments_comma, List.append_nil]

/-- Blanks in front of a list do not belong to its first entry. -/
theorem entries_blank_append {b : List Char} (hb : AllBlank b) (cs : List Char) :
    entries (pieces {} (b ++ cs)) = entries (pieces {} cs) := by
  have first : trim (b ++ (segments {} cs).1) = trim (segments {} cs).1 := trim_blank_append hb
  rw [pieces, segments_append _ (Nesting.proper_start.within_blank hb), pieces, entries, entries,
    List.map_cons, List.map_cons, first]

/-- Joined by commas with blanks behind them, entries that end where a comma separates are cut
into themselves. -/
theorem entries_joined {n : Nesting} {b b' : List Char} {es : List (List Char)} (hn : n.Proper)
    (hb : AllBlank b) (hb' : AllBlank b') (hcut : Cut n es)
    (htrim : ∀ e ∈ es, trim e = e ∧ e ≠ []) :
    entries (pieces n ((',' :: b).intercalate es ++ b')) = es := by
  induction es generalizing n with
  | nil =>
    rw [List.intercalate_nil, List.nil_append, pieces_of_within (hn.within_blank hb')]
    simp [entries, trim_eq_nil_iff.2 hb']
  | cons e es ih =>
    obtain ⟨⟨he, hne⟩, htrim⟩ := List.forall_mem_cons.1 htrim
    obtain ⟨n', hwithin, hlast⟩ := hcut.uncons
    by_cases hes : es = []
    · subst hes
      have hblank : n.within (e ++ b') = some n' := by
        rw [Nesting.within_append, hwithin]
        exact (hn.within hwithin).within_blank hb'
      rw [List.intercalate_singleton, pieces_of_within hblank]
      simp [entries, trim_append_of_blank hb', he, hne]
    · -- behind the comma the rest is cut from the start, and the blanks there are trimmed
      obtain ⟨rfl, hcut⟩ := hlast hes
      have rest := ih Nesting.proper_start hcut htrim
      rw [← entries_blank_append hb] at rest
      rw [List.intercalate_cons_of_ne_nil hes, List.append_assoc, List.append_assoc,
        List.cons_append, pieces_append_comma _ hwithin]
      simpa [entries, he, hne] using rest

/-- The selectors of a list end where a comma separates, all but the last. -/
theorem cut_of_splitSelectors {raw : List Char} {es : List (List Char)}
    (h : splitSelectors raw = es.map String.ofList) : Cut {} es := by
  rw [splitSelectors_eq, List.map_inj_right fun _ _ h => String.ofList_inj.1 h] at h
  exact h ▸ (cut_pieces {} raw).entries Nesting.proper_start

/-- Joined by commas with blanks behind them, trimmed entries are cut into themselves exactly if
each of them but the last ends where a comma separates. -/
theorem splitSelectors_joined_iff {b b' : List Char} {es : List (List Char)} (hb : AllBlank b)
    (hb' : AllBlank b') (htrim : ∀ e ∈ es, trim e = e ∧ e ≠ []) :
    splitSelectors ((',' :: b).intercalate es ++ b') = es.map String.ofList ↔ Cut {} es := by
  refine ⟨cut_of_splitSelectors, fun hcut => ?_⟩
  rw [splitSelectors_eq, entries_joined Nesting.proper_start hb hb' hcut htrim]

theorem splitSelectors_joined {b : List Char} {es : List (List Char)} (hb : AllBlank b)
    (htrim : ∀ e ∈ es, trim e = e ∧ e ≠ []) (hcut : Cut {} es) :
    splitSelectors ((',' :: b).intercalate es) = es.map String.ofList := by
  have := (splitSelectors_joined_iff hb allBlank_nil htrim).2 hcut
  rwa [List.append_nil] at this

/-- **Splitting undoes joining.** Whatever text it is that is split, no selector of it is empty or
has a blank at one of its ends, and joined by commas, or by commas and line feeds, its selectors
are split where they were joined. -/
theorem splitSelectors_rejoined (raw : List Char) :
    (∀ s ∈ splitSelectors raw, s ≠ "" ∧ trimmed s = s) ∧
    splitSelectors (",".intercalate (splitSelectors raw)).toList = splitSelectors raw ∧
    splitSelectors (",\n".intercalate (splitSelectors raw)).toList = splitSelectors raw := by
  obtain ⟨es, hes⟩ : ∃ es, es = entries (pieces {} raw) := ⟨_, rfl⟩
  have hraw : splitSelectors raw = es.map String.ofList := hes ▸ splitSelectors_eq raw
  have htrim : ∀ e ∈ es, trim e = e ∧ e ≠ [] := fun e he => trim_of_mem_entries (hes ▸ he)
  have joined {b : List Char} (hb : AllBlank b) :
      splitSelectors ((',' :: b).intercalate es) = es.map String.ofList :=
    splitSelectors_joined hb htrim (cut_of_splitSelectors hraw)
  have chars : (es.map String.ofList).map String.toList = es := by simp
  rw [hraw, String.toList_intercalate, String.toList_intercalate, chars]
  refine ⟨List.forall_mem_map.2 fun e he => ?_, joined allBlank_nil, joined allBlank_newline⟩
  obtain ⟨htrimmed, hne⟩ := htrim e he
  exact ⟨by simpa using hne, by rw [trimmed, String.toList_ofList, htrimmed]⟩

/-- The last selector may leave a string open, for nothing is joined to it. -/
example : splitSelectors " a:is(b, c) ,, \t,[d='e,f'],g \"h, i ".toList =
    ["a:is(b, c)", "[d='e,f']", "g \"h, i"] := by decide

end Spriting.Css
