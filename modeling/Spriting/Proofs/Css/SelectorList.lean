import Spriting.Css.Parser
import Spriting.Proofs.Css.Cutting
import Spriting.Proofs.Css.SelectorRun

/-!
# Selector lists written anew

A selector list is written with its entries trimmed, the empty ones left out, and a
comma and a line feed between them.  It is cut into the same entries again, and
the reader takes it wherever it took the list before.

* `splitSelectors_spread_iff`: when the entries are the same;
* `Listed`: what is known of the selectors of a sheet that was read;
* `Listed.reads_spread`: the reader takes the list that is written.
-/

namespace Spriting.Css

open Text Reader Mode

/-! ## The written list -/

/-- The selectors of a list as they are written, up to the brace. -/
def spread : List (List Char) → List Char
  | [] => []
  | [e] => e ++ [' ']
  | e :: es => e ++ ',' :: '\n' :: spread es

theorem spread_cons {e : List Char} {es : List (List Char)} (h : es ≠ []) :
    spread (e :: es) = e ++ ',' :: '\n' :: spread es := by
  cases es with
  | nil => exact absurd rfl h
  | cons e' es => rfl

theorem spread_eq {es : List (List Char)} (h : es ≠ []) :
    spread es = [',', '\n'].intercalate es ++ [' '] := by
  induction es with
  | nil => exact absurd rfl h
  | cons e es ih =>
    cases es with
    | nil => simp [spread]
    | cons e' es =>
      rw [spread_cons (List.cons_ne_nil _ _), ih (List.cons_ne_nil _ _),
        List.intercalate_cons_cons]
      simp

/-- Cut at its commas, a list of trimmed entries is the list again exactly if each of them but
the last ends where a comma separates. -/
theorem splitSelectors_spread_iff {es : List (List Char)} (htrim : ∀ e ∈ es, trim e = e ∧ e ≠ [])
    (hne : es ≠ []) : splitSelectors (spread es) = es.map String.ofList ↔ Cut {} es := by
  rw [spread_eq hne]
  exact splitSelectors_joined_iff allBlank_newline allBlank_space htrim

/-! ## Reading the written list -/

theorem fillers_of_allBlank {b : List Char} (h : AllBlank b) : ∀ c ∈ b, IsFiller c :=
  fun c hc => .inl (h c hc)

/-- A trimmed piece settles as the piece does. -/
theorem run_trim {m m' : Mode} {s : List Char} (h : m.settled.run s = some m') :
    ∃ m₁, m.settled.run (trim s) = some m₁ ∧ m₁.settled = m'.settled := by
  obtain ⟨b, b', hb, hb', hs⟩ := exists_trim s
  rw [hs, run_append_of_some (run_settled m (fillers_of_allBlank hb)), run_append] at h
  obtain ⟨m₁, hcore, hrest⟩ := Option.bind_eq_some_iff.1 h
  exact ⟨m₁, hcore, (run_settle (fillers_of_allBlank hb') hrest).symm⟩

/-- A comma and the blanks behind it settle. -/
theorem run_separator {b : List Char} (m : Mode) (hb : AllBlank b) :
    m.run (',' :: b) = some m.settled := by
  have hcomma : m.step ',' = some m.settled := step_filler_of_ne m (.inr rfl) (by decide)
  simp only [Mode.run, hcomma]
  exact run_settled m (fillers_of_allBlank hb)

theorem run_comma {m m' : Mode} {s t : List Char} (h : m.run (s ++ ',' :: t) = some m') :
    ∃ m₁, m.run s = some m₁ ∧ m₁.settled.run t = some m' := by
  rw [run_append] at h
  obtain ⟨m₁, hs, hrest⟩ := Option.bind_eq_some_iff.1 h
  refine ⟨m₁, hs, ?_⟩
  rw [← hrest]
  exact (run_append_of_some (run_separator m₁ allBlank_nil)).symm

/-- The entries, each with a comma behind it, settle as the list they stood in does. -/
theorem run_entries {m m' : Mode} {segs : List (List Char)}
    (h : m.settled.run ([','].intercalate segs) = some m') :
    m.settled.run ((entries segs).flatMap (· ++ [','])) = some m'.settled := by
  induction segs generalizing m with
  | nil =>
    cases h
    rw [settled_settled]
    rfl
  | cons s segs ih =>
    have first : ∀ {m₁ : Mode}, m.settled.run s = some m₁ →
        m.settled.run ((entries [s]).flatMap (· ++ [','])) = some m₁.settled := by
      intro m₁ hs
      obtain ⟨m₂, hcore, hsettled⟩ := run_trim hs
      unfold entries
      by_cases he : trim s = []
      · rw [he] at hcore
        cases hcore
        rw [settled_settled] at hsettled
        simp [he, Mode.run, hsettled]
      · simp [he, run_append_of_some hcore, run_separator m₂ allBlank_nil, hsettled]
    by_cases hsegs : segs = []
    · subst hsegs
      rw [List.intercalate_singleton] at h
      exact first h
    · rw [List.intercalate_cons_of_ne_nil hsegs, List.append_assoc, List.singleton_append] at h
      obtain ⟨m₁, hs, hrest⟩ := run_comma h
      have hsplit : entries (s :: segs) = entries [s] ++ entries segs := by
        simp [entries, ← List.filter_append]
      rw [hsplit, List.flatMap_append, run_append_of_some (first hs)]
      exact ih hrest

/-- Joined by commas with blanks behind them, the entries settle as with a comma behind each. -/
theorem run_joined {m m' : Mode} {b : List Char} {es : List (List Char)} (hb : AllBlank b)
    (h : m.settled.run (es.flatMap (· ++ [','])) = some m') (hne : es ≠ []) :
    ∃ m₁, m.settled.run ((',' :: b).intercalate es) = some m₁ ∧ m₁.settled = m' := by
  induction es generalizing m with
  | nil => exact absurd rfl hne
  | cons e es ih =>
    rw [List.flatMap_cons, List.append_assoc, List.singleton_append] at h
    obtain ⟨m₁, he, hrest⟩ := run_comma h
    by_cases hes : es = []
    · subst hes
      exact ⟨m₁, by rwa [List.intercalate_singleton], Option.some.inj hrest⟩
    · obtain ⟨m₂, hjoined, hm₂⟩ := ih hrest hes
      refine ⟨m₂, ?_, hm₂⟩
      rw [List.intercalate_cons_of_ne_nil hes, List.append_assoc, run_append_of_some he,
        run_append_of_some (run_separator m₁ hb)]
      exact hjoined

/-! ## Selectors of sheets -/

/-- Entries of selector lists that were read, of one or of several: trimmed, none of them holds
a comma that separates, and together they end outside everything. -/
structure Listed (es : List (List Char)) : Prop where
  trimmed : ∀ e ∈ es, trim e = e ∧ e ≠ []
  whole : ∀ e ∈ es, ∃ n, Nesting.within {} e = some n
  settles : plain.run (es.flatMap (· ++ [','])) = some plain

theorem Listed.nil : Listed [] := ⟨nofun, nofun, rfl⟩

theorem Listed.append {es fs : List (List Char)} (he : Listed es) (hf : Listed fs) :
    Listed (es ++ fs) where
  trimmed e h := (List.mem_append.1 h).elim (he.trimmed e) (hf.trimmed e)
  whole e h := (List.mem_append.1 h).elim (he.whole e) (hf.whole e)
  settles := by
    rw [List.flatMap_append, run_append_of_some he.settles]
    exact hf.settles

/-- There is a first selector, and it starts with what no other node starts with. -/
def Headed (es : List (List Char)) : Prop := ∃ e ∈ es.head?, ∃ c ∈ e.head?, c ≠ '@' ∧ c ≠ '/'

theorem headed_cons {c : Char} {e : List Char} {es : List (List Char)} :
    Headed ((c :: e) :: es) ↔ c ≠ '@' ∧ c ≠ '/' := by
  simp [Headed]

instance : ∀ es : List (List Char), Decidable (Headed es)
  | [] => .isFalse (by simp [Headed])
  | [] :: _ => .isFalse (by simp [Headed])
  | (_ :: _) :: _ => decidable_of_iff' _ headed_cons

theorem Headed.ne_nil {es : List (List Char)} (h : Headed es) : es ≠ [] := by
  rintro rfl
  obtain ⟨e, he, -⟩ := h
  cases he

/-- A list that starts with a selector has an entry, which starts the same way. -/
theorem entries_head {c : Char} {x : List Char} (hblank : isBlank c = false) (hcomma : c ≠ ',') :
    ∃ y es, entries (pieces {} (c :: x)) = (c :: y) :: es := by
  have hsep : ¬ Nesting.separates {} c = true := by simp [Nesting.separates, hcomma]
  have htrim : trim (c :: (segments (Nesting.advance {} c) x).1) =
      c :: trimEnd (segments (Nesting.advance {} c) x).1 := by
    rw [trim_of_head (by simpa using hblank)]
    have ink : ∀ d ∈ [c].getLast?, isBlank d = false := by simpa using hblank
    exact trimEnd_append ink
  refine ⟨trimEnd (segments (Nesting.advance {} c) x).1,
    entries (segments (Nesting.advance {} c) x).2, ?_⟩
  rw [pieces, segments, if_neg hsep]
  simp [entries, htrim]

theorem Leads.ink {c : Char} (h : Leads c) : isBlank c = false := by
  rcases h with (rfl | rfl) | ⟨h, -⟩
  · decide
  · decide
  · exact h

/-- The entries of a list that the reader took. -/
theorem listed_entries {s l r : List Char} (h : Terminal.selector.reader.read s = some (l, r)) :
    Listed (entries (pieces {} l)) := by
  obtain ⟨-, m, hrun, hsettled⟩ := selector_run h
  have flat : [','].intercalate (pieces {} l) = l := flatten_segments {} l
  rw [← flat] at hrun
  have settles := run_entries (m := plain) hrun
  rw [hsettled] at settles
  have cut := (cut_pieces {} l).entries Nesting.proper_start
  exact ⟨fun _ => trim_of_mem_entries, fun _ => cut.whole, settles⟩

/-- Only a comma in front keeps a list from starting with a selector. -/
theorem headed_entries {s l r : List Char} (h : Terminal.selector.reader.read s = some (l, r))
    (hcomma : l.head? ≠ some ',') : Headed (entries (pieces {} l)) := by
  obtain ⟨⟨c, hc, hleads⟩, -⟩ := selector_run h
  obtain ⟨x, rfl⟩ := List.head?_eq_some_iff.1 hc
  obtain ⟨y, es, hentries⟩ := entries_head (x := x) hleads.ink (by simpa using hcomma)
  rw [hentries]
  refine ⟨_, rfl, c, rfl, ?_⟩
  constructor <;> (rintro rfl; exact absurd hleads (by simp [Leads, IsQuote, selectorStops]))

/-- What a list of selectors starts with can start one. -/
theorem Listed.leads {c : Char} {y : List Char} {es : List (List Char)}
    (h : Listed ((c :: y) :: es)) (hc : c ≠ '@' ∧ c ≠ '/') : Leads c := by
  have ink : isBlank c = false := by
    have htrim := (h.trimmed _ List.mem_cons_self).1
    exact head?_trim (by rw [htrim]; rfl)
  obtain ⟨m, hstep, -⟩ := Option.bind_eq_some_iff.1 h.settles
  have entered : enter c = some m := hstep
  rcases selectorChar_cases c with hquote | hslash | hstop | hother
  · exact .inl hquote
  · exact absurd hslash hc.2
  · rw [enter_stop hstop] at entered
    cases entered
  · exact .inr ⟨ink, fun hmem => (List.mem_cons.1 hmem).elim hc.1 hother⟩

/-- The reader takes a text that starts as a list of selectors does and settles. -/
theorem Listed.read {es : List (List Char)} {x : List Char} {m : Mode} (h : Listed es)
    (hhead : Headed es) (hx : ∃ z, x = es.head hhead.ne_nil ++ z) (hrun : plain.run x = some m)
    (hm : m.settled = plain) (d : Char) (r : List Char) (hd : IsStop d) :
    Terminal.selector.reader.read (x ++ d :: r) = some (x, d :: r) := by
  obtain ⟨e, he, c, hc, hcs⟩ := id hhead
  obtain ⟨es, rfl⟩ := List.head?_eq_some_iff.1 he
  obtain ⟨y, rfl⟩ := List.head?_eq_some_iff.1 hc
  obtain ⟨z, rfl⟩ := hx
  exact selector_of_run (h.leads hcs) hd hrun hm

theorem spread_start (e : List Char) (es : List (List Char)) : ∃ z, spread (e :: es) = e ++ z := by
  cases es with
  | nil => exact ⟨[' '], rfl⟩
  | cons e' es => exact ⟨',' :: '\n' :: spread (e' :: es), rfl⟩

/-- In front of a brace, the reader takes the written list. -/
theorem Listed.reads_spread {es : List (List Char)} (h : Listed es) (hhead : Headed es)
    (d : Char) (r : List Char) (hd : IsStop d) :
    Terminal.selector.reader.read (spread es ++ d :: r) = some (spread es, d :: r) := by
  obtain ⟨m, hrun, hm⟩ := run_joined (m := plain) allBlank_newline h.settles hhead.ne_nil
  have hspace : m.step ' ' = some m.settled := step_filler_of_ne m (.inl (by decide)) (by decide)
  have written : plain.run (spread es) = some m.settled := by
    rw [spread_eq hhead.ne_nil]
    refine (run_append_of_some hrun).trans ?_
    simp [Mode.run, hspace]
  refine h.read hhead ?_ written ((settled_settled m).trans hm) d r hd
  obtain ⟨e, es, rfl⟩ := List.exists_cons_of_ne_nil hhead.ne_nil
  exact spread_start e es

/-- In front of a brace, the reader takes the list joined by commas. -/
theorem Listed.reads_intercalate {es : List (List Char)} (h : Listed es) (hhead : Headed es)
    (d : Char) (r : List Char) (hd : IsStop d) :
    Terminal.selector.reader.read ([','].intercalate es ++ d :: r) =
      some ([','].intercalate es, d :: r) := by
  obtain ⟨m, hrun, hm⟩ := run_joined (m := plain) allBlank_nil h.settles hhead.ne_nil
  refine h.read hhead ?_ hrun hm d r hd
  obtain ⟨e, es, rfl⟩ := List.exists_cons_of_ne_nil hhead.ne_nil
  cases es with
  | nil => exact ⟨[], by simp⟩
  | cons e' es => exact ⟨_, by rw [List.intercalate_cons_cons, List.append_assoc]; rfl⟩

end Spriting.Css
