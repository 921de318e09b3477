import Spriting.Proofs.Css.SelectorModes

/-!
# The reader of selectors and the modes

The reader of selectors takes a text exactly if it ends outside everything.

* `selector_run`: what the reader takes ends outside everything;
* `selector_of_run`: what ends outside everything is taken in front of a brace;
* `run_settle`: how many blanks and commas stand in one place makes no difference.
-/

namespace Spriting.Css

open Text Reader Mode

/-- What a selector starts with. -/
def selectorStart : Reader := string.orElse (inkOutside ('@' :: selectorStops))

/-- What a selector goes on with. -/
def selectorPiece : Reader :=
  ((string.orElse Reader.comment).orElse Reader.slash).orElse (outside selectorStops)

/-- A selector can start with `c`. -/
def Leads (c : Char) : Prop := IsQuote c ∨ isBlank c = false ∧ c ∉ '@' :: selectorStops

theorem slash_eq_some {s l r : List Char} (h : Reader.slash.read s = some (l, r)) :
    l = ['/'] ∧ s = '/' :: r ∧ r.head? ≠ some '*' := by
  simp only [Reader.slash] at h
  split at h
  · cases h
  · rename_i hstar
    cases h
    refine ⟨rfl, rfl, fun hhead => ?_⟩
    obtain ⟨t, rfl⟩ := List.head?_eq_some_iff.1 hhead
    exact hstar t rfl
  · cases h

theorem slash_declines {c : Char} (s : List Char) (h : c ≠ '/') :
    Reader.slash.read (c :: s) = none := by
  simp only [Reader.slash]
  split
  · rfl
  · rename_i heq
    cases heq
    exact absurd rfl h
  · rfl

theorem slash_alone {s : List Char} (h : s.head? ≠ some '*') :
    Reader.slash.read ('/' :: s) = some (['/'], s) := by
  simp only [Reader.slash]
  split
  · rename_i heq
    cases heq
    exact absurd rfl h
  · rename_i heq
    cases heq
    rfl
  · rename_i hslash
    exact absurd rfl (hslash s)

/-- The pieces that start with `c`. -/
theorem selectorPiece_string {c : Char} (s : List Char) (h : IsQuote c) :
    selectorPiece.read (c :: s) = string.read (c :: s) := by
  have hslash : c ≠ '/' := by
    rintro rfl
    revert h
    decide
  have hstop : (outside selectorStops).read (c :: s) = none := by
    apply outside_stops
    rcases h with rfl | rfl <;> decide
  simp only [selectorPiece, Reader.orElse, comment_declines fun h => absurd h hslash,
    slash_declines s hslash, hstop, Option.or_none]

theorem selectorPiece_char {c : Char} (s : List Char) (h : c ∉ selectorStops) :
    selectorPiece.read (c :: s) = some ([c], s) := by
  simp only [selectorStops, List.mem_cons, List.not_mem_nil, or_false, not_or] at h
  have hq : ¬ IsQuote c := by simp [IsQuote, h]
  have hslash : c ≠ '/' := h.2.2.2.1
  simp only [selectorPiece, Reader.orElse, string_declines s hq,
    comment_declines fun h => absurd h hslash, slash_declines s hslash, Option.none_or]
  exact char_cons s (by simp [selectorStops, h])

theorem selectorPiece_slash (s : List Char) :
    selectorPiece.read ('/' :: s) =
      (Reader.comment.read ('/' :: s)).or (Reader.slash.read ('/' :: s)) := by
  simp only [selectorPiece, Reader.orElse, string_declines s (by decide : ¬ IsQuote '/'),
    outside_stops s (by decide : '/' ∈ selectorStops), Option.none_or, Option.or_none]

theorem enter_quote {c : Char} (h : IsQuote c) : enter c = some (quoted ⟨c, h⟩) := dif_pos h

theorem enter_slash : enter '/' = some Mode.slash := by
  rw [enter, dif_neg (by decide), if_pos rfl]

theorem enter_other {c : Char} (h : c ∉ selectorStops) : enter c = some plain := by
  simp only [selectorStops, List.mem_cons, List.not_mem_nil, or_false, not_or] at h
  rw [enter, dif_neg (by simp [IsQuote, h]), if_neg (by simp [h]), if_neg (by simp [IsStop, h])]

theorem enter_stop {c : Char} (h : IsStop c) : enter c = none := by
  rcases h with rfl | rfl | rfl <;> decide

/-- A character opens a string, is a slash, ends the selector, or stands for itself. -/
theorem selectorChar_cases (c : Char) :
    IsQuote c ∨ c = '/' ∨ IsStop c ∨ c ∉ selectorStops := by
  by_cases h : c ∈ selectorStops
  · simp only [selectorStops, List.mem_cons, List.not_mem_nil, or_false] at h
    rcases h with rfl | rfl | rfl | rfl | rfl | rfl <;> simp [IsQuote, IsStop]
  · exact .inr (.inr (.inr h))

/-! ## The reader and the modes agree -/

theorem piece_run {m : Mode} {s l r : List Char} (hm : Ready m s)
    (h : selectorPiece.read s = some (l, r)) : ∃ m', m.run l = some m' ∧ Ready m' r := by
  cases s with
  | nil => cases h
  | cons c s =>
    rcases selectorChar_cases c with hc | rfl | hc | hc
    · rw [selectorPiece_string s hc, string_quote s hc] at h
      obtain ⟨p, hp, he⟩ := Option.map_eq_some_iff.1 h
      cases he
      refine ⟨plain, ?_, .inl rfl⟩
      simp only [run, hm.step_eq, enter_quote hc]
      exact @run_of_closeQuote ⟨c, hc⟩ _ _ _ hp
    · rw [selectorPiece_slash] at h
      rcases Option.or_eq_some_iff.1 h with h | ⟨-, h⟩
      · obtain ⟨x, t, rfl, heq, hclose⟩ := comment_eq_some h
        refine ⟨plain, ?_, .inl rfl⟩
        simp only [run, hm.step_eq, enter_slash]
        exact (run_of_closeComment hclose).1
      · obtain ⟨rfl, heq, hstar⟩ := slash_eq_some h
        refine ⟨Mode.slash, ?_, .inr ⟨rfl, hstar⟩⟩
        simp only [run, hm.step_eq, enter_slash]
        rfl
    · rcases hc with rfl | rfl | rfl <;> cases h
    · rw [selectorPiece_char s hc] at h
      cases h
      refine ⟨plain, ?_, .inl rfl⟩
      simp only [run, hm.step_eq, enter_other hc]
      rfl

theorem chain_run {m : Mode} {l r : List Char} (h : Chain selectorPiece l r)
    (hm : Ready m (l ++ r)) : ∃ m', m.run l = some m' ∧ Ready m' r := by
  induction h generalizing m with
  | nil => exact ⟨m, rfl, hm⟩
  | @cons l x r hread _ ih =>
    rw [List.append_assoc] at hm
    obtain ⟨m₁, hrun, hready⟩ := piece_run hm hread
    obtain ⟨m₂, hrest, hlast⟩ := ih hready
    exact ⟨m₂, (run_append_of_some hrun).trans hrest, hlast⟩

/-- What ends outside everything starts with a piece, and what is left ends there too. -/
theorem piece_of_run {m : Mode} {c : Char} {x r : List Char} (h : plain.run (c :: x) = some m)
    (hm : Ready m r) :
    ∃ l z, c :: x = l ++ z ∧ selectorPiece.read (l ++ (z ++ r)) = some (l, z ++ r) ∧
      (z = [] ∨ plain.run z = some m) := by
  have entered : (enter c).bind (·.run x) = some m := h
  rcases selectorChar_cases c with hc | rfl | hc | hc
  · rw [enter_quote hc] at entered
    obtain ⟨y, z, rfl, hy, hz⟩ := closeQuote_of_run entered hm.settled_eq
    refine ⟨c :: y, z, rfl, ?_, .inr hz⟩
    rw [List.cons_append, selectorPiece_string _ hc, string_quote _ hc, hy]
    rfl
  · rw [enter_slash] at entered
    cases x with
    | nil =>
      cases entered
      have alone : r.head? ≠ some '*' := hm.resolve_left nofun |>.2
      refine ⟨['/'], [], rfl, ?_, .inl rfl⟩
      rw [List.singleton_append, selectorPiece_slash, List.nil_append, slash_alone alone,
        comment_declines fun _ => alone]
      rfl
    | cons d x =>
      by_cases hd : d = '*'
      · subst hd
        obtain ⟨y, z, rfl, hy, hz⟩ := (closeComment_of_run hm.settled_eq x).1 entered
        refine ⟨'/' :: '*' :: y, z, rfl, ?_, .inr hz⟩
        rw [List.cons_append, selectorPiece_slash]
        rw [List.cons_append, comment_open, hy]
        rfl
      · have ready : Ready Mode.slash (d :: x) := .inr ⟨rfl, by simpa using hd⟩
        refine ⟨['/'], d :: x, rfl, ?_, .inr (ready.run_eq ▸ entered)⟩
        have alone : ((d :: x) ++ r).head? ≠ some '*' := by simpa using hd
        rw [List.singleton_append, selectorPiece_slash, slash_alone alone,
          comment_declines fun _ => alone]
        rfl
  · rw [enter_stop hc] at entered
    cases entered
  · rw [enter_other hc] at entered
    exact ⟨[c], x, rfl, selectorPiece_char _ hc, .inr entered⟩

/-- What ends outside everything is read piece by piece. -/
theorem chain_of_run {m : Mode} {x r : List Char} (h : plain.run x = some m) (hm : Ready m r) :
    Chain selectorPiece x r := by
  induction hn : x.length using Nat.strongRecOn generalizing x with
  | _ n ih =>
    cases x with
    | nil => exact .nil r
    | cons c x =>
      obtain ⟨l, z, hsplit, hread, hz⟩ := piece_of_run h hm
      have shorter : z.length < n := by
        have hl := List.length_pos_iff.2 (selectorPiece.splits hread).2
        rw [← hn, hsplit, List.length_append]
        omega
      rw [hsplit]
      refine .cons hread ?_
      rcases hz with rfl | hz
      · exact .nil r
      · exact ih z.length shorter hz rfl

theorem selectorPiece_stops {c : Char} (s : List Char) (h : IsStop c) :
    selectorPiece.read (c :: s) = none := by
  rcases h with rfl | rfl | rfl <;> rfl

theorem selectorStart_spec {s : List Char} {p : List Char × List Char}
    (h : selectorStart.read s = some p) :
    selectorPiece.read s = some p ∧ ∃ c ∈ s.head?, Leads c := by
  rcases orElse_eq_some_iff.1 h with h | ⟨-, h⟩
  · obtain ⟨c, x, t, hc, -, rfl, -⟩ := string_eq_some (l := p.1) (r := p.2) h
    exact ⟨(selectorPiece_string t hc).trans h, c, rfl, .inl hc⟩
  · obtain ⟨c, hc, hl, rfl⟩ := char_eq_some (l := p.1) (r := p.2) h
    simp only [Bool.and_eq_true, Bool.not_eq_true', List.contains_eq_mem,
      decide_eq_false_iff_not] at hc
    have hstop : c ∉ selectorStops := fun hmem => hc.2 (List.mem_cons_of_mem _ hmem)
    refine ⟨(selectorPiece_char p.2 hstop).trans ?_, c, rfl, .inr hc⟩
    rw [← hl]

theorem selectorStart_of_leads {c : Char} {s : List Char} (h : Leads c) :
    selectorStart.read (c :: s) = selectorPiece.read (c :: s) := by
  rcases h with h | ⟨hblank, hstop⟩
  · have : (inkOutside ('@' :: selectorStops)).read (c :: s) = none := by
      apply inkOutside_stops
      rcases h with rfl | rfl <;> decide
    rw [selectorPiece_string s h]
    simp only [selectorStart, Reader.orElse, this, Option.or_none]
  · have hstop' : c ∉ selectorStops := fun hmem => hstop (List.mem_cons_of_mem _ hmem)
    have hq : ¬ IsQuote c := by
      rintro (rfl | rfl) <;> exact hstop' (by decide)
    rw [selectorPiece_char s hstop', selectorStart, orElse_of_none (string_declines s hq)]
    exact char_cons s (by simp [hblank, hstop])

/-- What the reader takes ends outside everything. -/
theorem selector_run {s l r : List Char} (h : Terminal.selector.reader.read s = some (l, r)) :
    (∃ c ∈ l.head?, Leads c) ∧ ∃ m, plain.run l = some m ∧ m.settled = plain := by
  obtain ⟨x, y, rfl, hx, hy, -⟩ := (followedBy_eq_some_iff (a := selectorStart)).1 h
  obtain ⟨hpiece, c, hc, hleads⟩ := selectorStart_spec hx
  obtain ⟨hs, hne⟩ := selectorPiece.splits hpiece
  obtain ⟨m, hrun, hready⟩ := chain_run (.cons (read_append hpiece) hy) (.inl rfl)
  refine ⟨⟨c, ?_, hleads⟩, m, hrun, ?_⟩
  · obtain ⟨d, x, rfl⟩ := List.exists_cons_of_ne_nil hne
    rw [hs] at hc
    exact hc
  · rcases hready with rfl | ⟨rfl, -⟩ <;> rfl

/-- What ends outside everything is taken in front of a brace. -/
theorem selector_of_run {c d : Char} {m : Mode} {x r : List Char} (hc : Leads c) (hd : IsStop d)
    (h : plain.run (c :: x) = some m) (hm : m.settled = plain) :
    Terminal.selector.reader.read (c :: x ++ d :: r) = some (c :: x, d :: r) := by
  have hstar : d ≠ '*' := by
    rcases hd with rfl | rfl | rfl <;> decide
  obtain ⟨y, z, hl, hread, hz⟩ :=
    (chain_of_run h (ready_of_settled hm hstar r)).uncons (List.cons_ne_nil c x)
  refine (followedBy_eq_some_iff (a := selectorStart)).2
    ⟨y, z, hl, ?_, hz, selectorPiece_stops r hd⟩
  rw [List.cons_append, selectorStart_of_leads hc, ← List.cons_append, hl, List.append_assoc]
  exact hread

/-! ## Blanks and commas in one place -/

/-- A character that can stand between two selectors. -/
def IsFiller (c : Char) : Prop := isBlank c = true ∨ c = ','

theorem IsFiller.ne {c d : Char} (h : IsFiller c) (hd : isBlank d = false ∧ d ≠ ',') : c ≠ d := by
  rintro rfl
  rcases h with h | h
  · rw [hd.1] at h
    cases h
  · exact hd.2 h

theorem IsFiller.enter_eq {c : Char} (h : IsFiller c) : enter c = some plain := by
  apply enter_other
  intro hmem
  have : selectorStops.all (fun d => !isBlank d && d != ',') = true := by decide
  have hd : isBlank c = false ∧ c ≠ ',' := by simpa using List.all_eq_true.1 this c hmem
  exact h.ne hd rfl

namespace Mode

theorem settled_settled (m : Mode) : m.settled.settled = m.settled := by cases m <;> rfl

/-- Blanks and commas settle, but behind a backslash a line feed cannot stand. -/
theorem step_filler_cases {c : Char} (m : Mode) (h : IsFiller c) :
    m.step c = some m.settled ∨ c = '\n' ∧ (∃ mark, m = escaped mark) ∧ m.step c = none := by
  have hstar : c ≠ '*' := h.ne (by decide)
  have hslash : c ≠ '/' := h.ne (by decide)
  have hback : c ≠ '\\' := h.ne (by decide)
  have hmark : ∀ mark : { c : Char // IsQuote c }, c ≠ mark := by
    rintro ⟨mark, rfl | rfl⟩ <;> exact h.ne (by decide)
  cases m with
  | plain => exact .inl h.enter_eq
  | slash =>
    left
    rw [step, if_neg hstar]
    exact h.enter_eq
  | quoted mark => exact .inl (by simp [step, hmark mark, hback, settled])
  | escaped mark =>
    by_cases hline : c = '\n'
    · exact .inr ⟨hline, ⟨mark, rfl⟩, by simp [step, hline]⟩
    · exact .inl (by simp [step, hline, settled])
  | comment => exact .inl (by simp [step, hstar, settled])
  | star => exact .inl (by simp [step, hslash, hstar, settled])

theorem step_filler_of_ne {c : Char} (m : Mode) (h : IsFiller c) (hline : c ≠ '\n') :
    m.step c = some m.settled :=
  (step_filler_cases m h).resolve_right fun hr => hline hr.1

theorem step_filler {c : Char} {m m' : Mode} (h : IsFiller c) (hstep : m.step c = some m') :
    m' = m.settled := by
  rcases step_filler_cases m h with hs | ⟨-, -, hs⟩
  · exact Option.some.inj (hstep.symm.trans hs)
  · rw [hs] at hstep
    cases hstep

theorem step_settled {c : Char} (m : Mode) (h : IsFiller c) :
    m.settled.step c = some m.settled := by
  rcases step_filler_cases m.settled h with hs | ⟨-, ⟨mark, hm⟩, -⟩
  · rwa [settled_settled] at hs
  · cases m <;> cases hm

theorem run_settled {b : List Char} (m : Mode) (h : ∀ c ∈ b, IsFiller c) :
    m.settled.run b = some m.settled := by
  induction b with
  | nil => rfl
  | cons c b ih =>
    obtain ⟨hc, hb⟩ := List.forall_mem_cons.1 h
    simp only [run, step_settled m hc]
    exact ih hb

/-- However many blanks and commas stand in one place, they settle on the same mode. -/
theorem run_settle {b : List Char} {m m' : Mode} (h : ∀ c ∈ b, IsFiller c)
    (hrun : m.run b = some m') : m'.settled = m.settled := by
  cases b with
  | nil =>
    cases hrun
    rfl
  | cons c b =>
    obtain ⟨hc, hb⟩ := List.forall_mem_cons.1 h
    obtain ⟨m₁, hstep, hrest⟩ := Option.bind_eq_some_iff.1 hrun
    obtain rfl := step_filler hc hstep
    rw [run_settled m hb] at hrest
    cases hrest
    exact settled_settled m

end Mode

end Spriting.Css
