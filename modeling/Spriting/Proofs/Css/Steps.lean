import Spriting.Proofs.Css.Lexemes

/-!
# Steps of the parser

What the parser does with a given lexeme at the front, whatever follows it.  Two classes that
may come next in one place have no lexemes that start alike, so it does not matter which is
tried first.

* `Pending.expected_apart`: classes that may come next start differently;
* `parseFrom_step`: a lexeme of a class that may come next is shifted;
* `parseFrom_skip`: outside blocks, gaps make no difference.
-/

namespace Spriting.Css

open Text Reader

/-- A character of a gap. -/
def IsGap (c : Char) : Prop := c ∈ [' ', '\t', '\x0c', '\r', '\n']

instance (c : Char) : Decidable (IsGap c) := inferInstanceAs (Decidable (c ∈ _))

theorem IsGap.blank {c : Char} (h : IsGap c) : isBlank c = true := by
  have : [' ', '\t', '\x0c', '\r', '\n'].all isBlank = true := by decide
  exact List.all_eq_true.1 this c h

/-- No character of a gap is among these stops. -/
theorem IsGap.notMem {stops : List Char} {c : Char} (h : IsGap c)
    (hstops : [' ', '\t', '\x0c', '\r', '\n'].all (!stops.contains ·) = true) : c ∉ stops := by
  simpa using List.all_eq_true.1 hstops c h

theorem not_gap_of_trim {l : List Char} : ∀ c ∈ (trim l).head?, ¬ IsGap c := by
  intro c hc hgap
  have ink := head?_trim hc
  rw [hgap.blank] at ink
  cases ink

/-- Reads a character of a gap. -/
def gapChar : Reader := char fun c => [' ', '\t', '\x0c', '\r', '\n'].contains c

theorem gapChar_declines {c : Char} (s : List Char) (h : ¬ IsGap c) :
    gapChar.read (c :: s) = none :=
  char_declines s (by simpa [IsGap] using h)

theorem gapChar_cons {c : Char} (s : List Char) (h : IsGap c) :
    gapChar.read (c :: s) = some ([c], s) :=
  char_cons s (by simpa [IsGap] using h)

theorem gap_declines {s : List Char} (h : ∀ c ∈ s.head?, ¬ IsGap c) : gap.read s = none := by
  cases s with
  | nil => rfl
  | cons c s =>
    have hc := gapChar_declines s (h c rfl)
    exact congrArg (Option.map _) hc

theorem gap_cons {c : Char} (s : List Char) (h : IsGap c) :
    gap.read (c :: s) = some (c :: (gapChar.many s).1, (gapChar.many s).2) :=
  congrArg (Option.map _) (gapChar_cons s h)

theorem gap_head {s g r : List Char} (h : gap.read s = some (g, r)) :
    (∃ c ∈ g.head?, IsGap c) ∧ ∀ c ∈ r.head?, ¬ IsGap c := by
  obtain ⟨x, m, rfl, hx, -, hr⟩ := (followedBy_eq_some_iff (a := gapChar) (b := gapChar)).1 h
  obtain ⟨c, hc, rfl, -⟩ := char_eq_some hx
  refine ⟨⟨c, rfl, by simpa [IsGap] using hc⟩, ?_⟩
  intro d hd hgap
  obtain ⟨t, rfl⟩ := List.head?_eq_some_iff.1 hd
  rw [gapChar_cons t hgap] at hr
  cases hr

theorem gap_chars {s g r : List Char} (h : gap.read s = some (g, r)) : ∀ c ∈ g, IsGap c := by
  obtain ⟨x, m, rfl, hx, hm, -⟩ := (followedBy_eq_some_iff (a := gapChar) (b := gapChar)).1 h
  obtain ⟨c, hc, rfl, -⟩ := char_eq_some hx
  have isGap : ∀ d, [' ', '\t', '\x0c', '\r', '\n'].contains d = true → IsGap d :=
    fun d hd => by simpa [IsGap] using hd
  exact List.forall_mem_cons.2 ⟨isGap c hc, fun d hd => isGap d (chain_char hm d hd)⟩

theorem gap_allBlank {s g r : List Char} (h : gap.read s = some (g, r)) : AllBlank g :=
  fun c hc => (gap_chars h c hc).blank

/-- Outside blocks, a character of a gap makes no difference. -/
theorem parseFrom_skip {p : Pending} {c : Char} {s : List Char} (hp : ∀ g, p.skip g = p)
    (h : IsGap c) : parseFrom p (c :: s) = parseFrom p s := by
  rw [parseFrom_gap (gap_cons s h), hp]
  cases s with
  | nil => rw [many_of_none rfl]
  | cons d s =>
    by_cases hd : IsGap d
    · rw [parseFrom_gap (gap_cons s hd), hp, many_of_some (gapChar_cons s hd)]
    · rw [many_of_none (gapChar_declines s hd)]

theorem parseFrom_skip_all {p : Pending} {g s : List Char} (hp : ∀ g, p.skip g = p)
    (h : ∀ c ∈ g, IsGap c) : parseFrom p (g ++ s) = parseFrom p s := by
  induction g with
  | nil => rfl
  | cons c g ih =>
    obtain ⟨hc, hg⟩ := List.forall_mem_cons.1 h
    exact (parseFrom_skip hp hc).trans (ih hg)

/-! ## Classes that may come next -/

variable {p q : Pending} {t : Terminal} {s l r : List Char} {node? : Option Node}

namespace Terminal

/-- The character that every lexeme of a class starts with, if there is one. -/
def mark? : Terminal → Option Char
  | comment => some '/'
  | atKeyword => some '@'
  | colon => some ':'
  | semicolon => some ';'
  | openBrace => some '\x7b'
  | closeBrace => some '\x7d'
  | _ => none

/-- Marks that no lexeme of a class starts with. -/
def barred : Terminal → List Char
  | selector => ['/', '@']
  | property => ['/', ';', '\x7d']
  | value => [';', '\x7d']
  | prelude => [';', '\x7b']
  | blockText => ['\x7b', '\x7d']
  | _ => []

/-- Two classes of which no lexemes start alike. -/
def Apart (t t' : Terminal) : Prop :=
  match t.mark?, t'.mark? with
  | some m, some m' => m ≠ m'
  | some m, none => m ∈ t'.barred
  | none, some m' => m' ∈ t.barred
  | none, none => False

instance (t t' : Terminal) : Decidable (t.Apart t') := by
  unfold Apart
  split <;> infer_instance

theorem head?_of_mark {m : Char} (hm : t.mark? = some m) (h : t.reader.read s = some (l, r)) :
    s.head? = some m := by
  have one : ∀ c, (Reader.char (· == c)).read s = some (l, r) → s.head? = some c := by
    intro c hread
    obtain ⟨d, hd, -, rfl⟩ := Reader.char_eq_some hread
    simpa using hd
  cases t <;> cases hm
  case comment =>
    obtain ⟨x, t, -, rfl, -⟩ := Reader.comment_eq_some h
    rfl
  case atKeyword =>
    obtain ⟨⟨x, u⟩, hx, -⟩ := Option.bind_eq_some_iff.1 h
    obtain ⟨d, hd, -, rfl⟩ := Reader.char_eq_some hx
    simpa using hd
  all_goals exact one _ h

theorem declines_barred {m : Char} (hm : m ∈ t.barred) (s : List Char) :
    t.reader.read (m :: s) = none := by
  cases t <;> simp only [barred, List.mem_cons, List.not_mem_nil, or_false] at hm
  case selector => rcases hm with rfl | rfl <;> rfl
  case property => rcases hm with rfl | rfl | rfl <;> rfl
  all_goals rcases hm with rfl | rfl <;> rfl

/-- Where a class has a lexeme, a class that is apart from it has none. -/
theorem Apart.declines {t' : Terminal} (h : t.Apart t') (hread : t.reader.read s = some (l, r)) :
    t'.reader.read s = none := by
  cases hread' : t'.reader.read s with
  | none => rfl
  | some m =>
    exfalso
    have hread' : t'.reader.read s = some (m.1, m.2) := hread'
    cases hm : t.mark? with
    | some m =>
      have head := head?_of_mark hm hread
      cases hm' : t'.mark? with
      | some m' =>
        simp only [Apart, hm, hm'] at h
        exact h (Option.some.inj (head.symm.trans (head?_of_mark hm' hread')))
      | none =>
        simp only [Apart, hm, hm'] at h
        obtain ⟨u, rfl⟩ := List.head?_eq_some_iff.1 head
        rw [declines_barred h] at hread'
        cases hread'
    | none =>
      cases hm' : t'.mark? with
      | some m' =>
        simp only [Apart, hm, hm'] at h
        obtain ⟨u, rfl⟩ := List.head?_eq_some_iff.1 (head?_of_mark hm' hread')
        rw [declines_barred h] at hread
        cases hread
      | none => simp only [Apart, hm, hm'] at h

end Terminal

theorem Pending.expected_apart (p : Pending) :
    ∀ t ∈ p.expected, ∀ t' ∈ p.expected, t ≠ t' → t.Apart t' := by
  cases p <;> (simp only [Pending.expected]; decide)

/-- The class that may come next and has a lexeme is the one that is read. -/
theorem firstLexeme_of_expected (ht : t ∈ p.expected) (hread : t.reader.read s = some (l, r)) :
    firstLexeme p.expected s = some (t, l, r) := by
  cases hfirst : firstLexeme p.expected s with
  | none =>
    have declines := List.findSome?_eq_none_iff.1 hfirst t ht
    rw [hread] at declines
    cases declines
  | some found =>
    obtain ⟨t', l', r'⟩ := found
    obtain ⟨ht', hread'⟩ := firstLexeme_eq_some hfirst
    by_cases hne : t = t'
    · subst hne
      rw [hread] at hread'
      cases hread'
      rfl
    · rw [(p.expected_apart t ht t' ht' hne).declines hread] at hread'
      cases hread'

/-- No lexeme starts with a gap. -/
theorem gap_declines_of_read (hread : t.reader.read s = some (l, r)) : gap.read s = none := by
  cases s with
  | nil => rfl
  | cons c s =>
    refine gap_declines ?_
    rintro _ ⟨⟩ hgap
    have declines : t.reader.read (c :: s) = none := by
      simp only [IsGap, List.mem_cons, List.not_mem_nil, or_false] at hgap
      rcases hgap with rfl | rfl | rfl | rfl | rfl <;> cases t <;> rfl
    rw [declines] at hread
    cases hread

/-! ## Lexemes -/

/-- A lexeme of a class that may come next is shifted. -/
theorem parseFrom_step (hread : t.reader.read (l ++ r) = some (l, r))
    (hshift : p.shift l t = some (node?, q)) :
    parseFrom p (l ++ r) = (parseFrom q r).map (node?.toList ++ ·) := by
  have ht : t ∈ p.expected := Pending.shift_isSome.1 (by rw [hshift]; rfl)
  exact parseFrom_lexeme (gap_declines_of_read hread) (firstLexeme_of_expected ht hread) hshift

theorem except_map_nil_append {ε α : Type} (x : Except ε (List α)) : x.map ([] ++ ·) = x := by
  cases x <;> rfl

theorem except_map_append {ε α : Type} (as bs : List α) (x : Except ε (List α)) :
    (x.map (bs ++ ·)).map (as ++ ·) = x.map (as ++ bs ++ ·) := by
  cases x with
  | error e => rfl
  | ok xs => exact congrArg Except.ok (List.append_assoc ..).symm

theorem except_map_append_eq_ok {ε α : Type} {x : Except ε (List α)} {as all : List α} :
    x.map (as ++ ·) = .ok all ↔ ∃ bs, x = .ok bs ∧ all = as ++ bs := by
  cases x with
  | error e => simp [Except.map]
  | ok bs => simp [Except.map, eq_comm]

/-- A lexeme that finishes no node. -/
theorem parseFrom_shift (hread : t.reader.read (l ++ r) = some (l, r))
    (hshift : p.shift l t = some (none, q)) : parseFrom p (l ++ r) = parseFrom q r := by
  rw [parseFrom_step hread hshift]
  exact except_map_nil_append _

/-- A lexeme of one character. -/
theorem parseFrom_mark {c : Char} (hread : t.reader.read (c :: r) = some ([c], r))
    (hshift : p.shift [c] t = some (none, q)) : parseFrom p (c :: r) = parseFrom q r :=
  parseFrom_shift (l := [c]) hread hshift

/-- A lexeme that finishes a node. -/
theorem parseFrom_finish {n : Node} (hread : t.reader.read (l ++ r) = some (l, r))
    (hshift : p.shift l t = some (some n, .nothing)) :
    parseFrom p (l ++ r) = (parseFrom .nothing r).map (n :: ·) :=
  parseFrom_step hread hshift

/-- A lexeme of one character that finishes a node. -/
theorem parseFrom_end {c : Char} {n : Node} (hread : t.reader.read (c :: r) = some ([c], r))
    (hshift : p.shift [c] t = some (some n, .nothing)) :
    parseFrom p (c :: r) = (parseFrom .nothing r).map (n :: ·) :=
  parseFrom_finish (l := [c]) hread hshift

end Spriting.Css
