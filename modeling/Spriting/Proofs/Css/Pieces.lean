import Spriting.Css.Terminal
import Spriting.Proofs.Text.Trimming

/-!
# Pieces of a lexeme

A lexeme is a first piece and as many more as follow.  Where what follows a piece
does not matter to it, the lexeme is read back in front of any text that its
reader stops at, and without the blanks behind it.

* `Chain`: pieces that are read one after another;
* `followedBy_eq_some_iff`: the pieces of a lexeme;
* `followedBy_local`, `followedBy_trim`: reading a lexeme back.
-/

namespace Spriting.Css

open Text

namespace Reader

/-- What follows a piece does not matter to it. -/
def Local (a : Reader) : Prop :=
  ∀ s l r, a.read s = some (l, r) → ∀ r', a.read (l ++ r') = some (l, r')

/-- No piece starts or ends with a blank. -/
def Inked (a : Reader) : Prop :=
  ∀ s l r, a.read s = some (l, r) →
    (∀ c ∈ l.head?, isBlank c = false) ∧ ∀ c ∈ l.getLast?, isBlank c = false

/-- A piece that ends with a blank is nothing else. -/
def Tidy (a : Reader) : Prop :=
  ∀ s l c r, a.read s = some (l ++ [c], r) → isBlank c = true → l = []

theorem Inked.tidy {a : Reader} (h : a.Inked) : a.Tidy := by
  intro s l c r hread hc
  have := (h s _ r hread).2 c (by simp)
  rw [hc] at this
  cases this

/-! ## Chains -/

/-- `a` reads `l` off the front of `l ++ r` piece by piece. -/
inductive Chain (a : Reader) : List Char → List Char → Prop where
  | nil (r : List Char) : Chain a [] r
  | cons {l m r : List Char} :
    a.read (l ++ (m ++ r)) = some (l, m ++ r) → Chain a m r → Chain a (l ++ m) r

theorem read_append {a : Reader} {s l r : List Char} (h : a.read s = some (l, r)) :
    a.read (l ++ r) = some (l, r) := by
  rw [← (a.splits h).1]
  exact h

theorem chain_many (a : Reader) (s : List Char) : Chain a (a.many s).1 (a.many s).2 := by
  fun_induction many a s with
  | case1 s h => exact .nil s
  | case2 s l r h more ih =>
    refine .cons ?_ ih
    rw [← many_append]
    exact read_append h

theorem Chain.many_eq {a : Reader} {l r : List Char} (h : Chain a l r) (hr : a.read r = none) :
    a.many (l ++ r) = (l, r) := by
  induction h with
  | nil r => exact many_of_none hr
  | cons hread _ ih => rw [List.append_assoc, many_of_some hread, ih hr]

/-- The first piece of a chain. -/
theorem Chain.uncons {a : Reader} {l r : List Char} (h : Chain a l r) (hl : l ≠ []) :
    ∃ x m, l = x ++ m ∧ a.read (x ++ (m ++ r)) = some (x, m ++ r) ∧ Chain a m r := by
  cases h with
  | nil => exact absurd rfl hl
  | @cons x m _ hread hm => exact ⟨x, m, rfl, hread, hm⟩

/-- Other text may follow a chain if no piece notices. -/
theorem Chain.transfer {a : Reader} {l r r' : List Char} (h : Chain a l r)
    (hpiece : ∀ x m, m <:+ l → a.read (x ++ (m ++ r)) = some (x, m ++ r) →
      a.read (x ++ (m ++ r')) = some (x, m ++ r')) : Chain a l r' := by
  induction h with
  | nil => exact .nil r'
  | @cons l m r hread _ ih =>
    refine .cons (hpiece l m (List.suffix_append l m) hread) (ih ?_)
    exact fun x m' hm' => hpiece x m' (hm'.trans (List.suffix_append l m))

theorem Chain.append {a : Reader} {l m r : List Char} (h : Chain a l (m ++ r)) (hm : Chain a m r) :
    Chain a (l ++ m) r := by
  generalize hs : m ++ r = s at h
  induction h with
  | nil => exact hm
  | cons hread _ ih =>
    subst hs
    rw [List.append_assoc]
    refine .cons ?_ (ih rfl)
    rwa [List.append_assoc]

/-- What is read character by character is a chain. -/
theorem Chain.of_chars {a : Reader} {l : List Char}
    (h : ∀ c ∈ l, ∀ s, a.read (c :: s) = some ([c], s)) (r : List Char) : Chain a l r := by
  induction l with
  | nil => exact .nil r
  | cons c l ih =>
    obtain ⟨hc, hl⟩ := List.forall_mem_cons.1 h
    exact .cons (l := [c]) (hc _) (ih hl)

theorem Chain.of_local {a : Reader} {l r : List Char} (h : Chain a l r) (ha : a.Local)
    (r' : List Char) : Chain a l r' :=
  h.transfer fun x _ _ hread => ha _ x _ hread _

theorem Chain.many_append {a : Reader} {m r : List Char} (h : Chain a m r) (ha : a.Local)
    (t : List Char) : a.many (m ++ t) = (m ++ (a.many t).1, (a.many t).2) := by
  induction h with
  | nil => rfl
  | cons hread _ ih =>
    rw [List.append_assoc, many_of_some (ha _ _ _ hread _), ih, List.append_assoc]

theorem Chain.drop_blank {a : Reader} (ha : a.Tidy) {l r : List Char} {c : Char}
    (h : Chain a (l ++ [c]) r) (hc : isBlank c = true) : Chain a l (c :: r) := by
  generalize hl : l ++ [c] = lc at h
  induction h generalizing l with
  | nil => simp at hl
  | @cons x m r hread hm ih =>
    rcases m.eq_nil_or_concat with rfl | ⟨m', d, rfl⟩
    · rw [List.append_nil] at hl
      subst hl
      rw [ha _ _ _ _ hread hc]
      exact .nil _
    · rw [List.concat_eq_append, ← List.append_assoc] at hl
      obtain ⟨rfl, hd⟩ := List.append_inj' hl rfl
      cases hd
      refine .cons ?_ (ih List.concat_eq_append.symm)
      simpa using hread

/-- The blanks at the end of a chain are pieces of their own. -/
theorem Chain.trimEnd {a : Reader} (ha : a.Tidy) {l r : List Char} (h : Chain a l r) :
    ∃ b, AllBlank b ∧ l = trimEnd l ++ b ∧ Chain a (trimEnd l) (b ++ r) := by
  obtain ⟨b, hb, hl⟩ := exists_trimEnd l
  refine ⟨b, hb, hl, ?_⟩
  rw [hl] at h
  generalize Text.trimEnd l = core at h ⊢
  clear hl
  induction hn : b.length generalizing b r with
  | zero =>
    obtain rfl := List.length_eq_zero_iff.1 hn
    simpa using h
  | succ n ih =>
    rcases b.eq_nil_or_concat with rfl | ⟨b', d, rfl⟩
    · cases hn
    · rw [List.concat_eq_append] at hb h hn ⊢
      rw [← List.append_assoc] at h
      have dropped := h.drop_blank ha (hb d (by simp))
      have := ih b' (fun c hc => hb c (List.mem_append_left _ hc)) dropped (by simpa using hn)
      simpa using this

/-! ## A first piece and more -/

theorem followedBy_eq_some_iff {a b : Reader} {s l r : List Char} :
    (a.followedBy b).read s = some (l, r) ↔
      ∃ x m, l = x ++ m ∧ a.read s = some (x, m ++ r) ∧ Chain b m r ∧ b.read r = none := by
  constructor
  · intro h
    obtain ⟨⟨x, t⟩, hx, he⟩ := Option.map_eq_some_iff.1 h
    cases he
    exact ⟨x, (b.many t).1, rfl, by rw [← many_append]; exact hx, chain_many b t,
      many_declines b t⟩
  · rintro ⟨x, m, rfl, hx, hm, hr⟩
    simp only [followedBy, hx, Option.map_some, hm.many_eq hr]

theorem followedBy_local {a b : Reader} (ha : a.Local) (hb : b.Local) {s l r r' : List Char}
    (h : (a.followedBy b).read s = some (l, r)) (hr' : b.read r' = none) :
    (a.followedBy b).read (l ++ r') = some (l, r') := by
  obtain ⟨x, m, rfl, hx, hm, -⟩ := followedBy_eq_some_iff.1 h
  refine followedBy_eq_some_iff.2 ⟨x, m, rfl, ?_, hm.of_local hb r', hr'⟩
  rw [List.append_assoc]
  exact ha _ _ _ hx _

/-- A piece without blanks at its ends starts with ink, whatever is put behind it. -/
theorem Inked.head_append {a : Reader} (ha : a.Inked) {s x r : List Char}
    (h : a.read s = some (x, r)) (t : List Char) : ∀ c ∈ (x ++ t).head?, isBlank c = false := by
  obtain ⟨c, x, rfl⟩ := List.exists_cons_of_ne_nil (a.splits h).2
  exact (ha _ _ _ h).1

theorem Inked.head_followedBy {a b : Reader} (ha : a.Inked) {s l r : List Char}
    (h : (a.followedBy b).read s = some (l, r)) (t : List Char) :
    ∀ c ∈ (l ++ t).head?, isBlank c = false := by
  obtain ⟨x, m, rfl, hx, -⟩ := followedBy_eq_some_iff.1 h
  rw [List.append_assoc]
  exact ha.head_append hx _

/-- A first piece without blanks at its ends is what trimming stops at. -/
theorem Inked.trim_append {a : Reader} (ha : a.Inked) {s x m r : List Char}
    (h : a.read s = some (x, r)) : trim (x ++ m) = x ++ Text.trimEnd m := by
  rw [trim_of_head (ha.head_append h m), trimEnd_append (ha _ _ _ h).2]

theorem followedBy_trim {a b : Reader} (ha : a.Local) (hinked : a.Inked) (hb : b.Local)
    (htidy : b.Tidy) {s l r r' : List Char} (h : (a.followedBy b).read s = some (l, r))
    (hr' : b.read r' = none) :
    (a.followedBy b).read (trim l ++ r') = some (trim l, r') := by
  obtain ⟨x, m, rfl, hx, hm, -⟩ := followedBy_eq_some_iff.1 h
  obtain ⟨_, _, -, hcore⟩ := hm.trimEnd htidy
  rw [hinked.trim_append hx]
  refine followedBy_eq_some_iff.2 ⟨x, Text.trimEnd m, rfl, ?_, hcore.of_local hb r', hr'⟩
  rw [List.append_assoc]
  exact ha _ _ _ hx _

/-! ## Readers of one piece -/

theorem char_cons {p : Char → Bool} {c : Char} (s : List Char) (h : p c = true) :
    (char p).read (c :: s) = some ([c], s) := by
  simp only [char, h, if_true]

theorem char_declines {p : Char → Bool} {c : Char} (s : List Char) (h : p c = false) :
    (char p).read (c :: s) = none := by
  simp only [char, h, Bool.false_eq_true, if_false]

theorem char_eq_some {p : Char → Bool} {s l r : List Char} (h : (char p).read s = some (l, r)) :
    ∃ c, p c = true ∧ l = [c] ∧ s = c :: r := by
  cases s with
  | nil => cases h
  | cons c s =>
    simp only [char, Option.ite_none_right_eq_some, Option.some.injEq, Prod.mk.injEq] at h
    obtain ⟨hp, rfl, rfl⟩ := h
    exact ⟨c, hp, rfl, rfl⟩

theorem chain_char {p : Char → Bool} {l r : List Char} (h : Chain (char p) l r) :
    ∀ c ∈ l, p c = true := by
  induction h with
  | nil => exact nofun
  | cons hread _ ih =>
    obtain ⟨c, hc, rfl, -⟩ := char_eq_some hread
    exact List.forall_mem_cons.2 ⟨hc, ih⟩

theorem chain_of_char {p : Char → Bool} {l : List Char} (h : ∀ c ∈ l, p c = true)
    (r : List Char) : Chain (char p) l r :=
  .of_chars (fun c hc s => char_cons s (h c hc)) r

theorem char_local (p : Char → Bool) : (char p).Local := by
  intro s l r h r'
  obtain ⟨c, hp, rfl, -⟩ := char_eq_some h
  exact char_cons r' hp

theorem char_tidy (p : Char → Bool) : (char p).Tidy := by
  intro s l c r h _
  obtain ⟨d, -, hl, -⟩ := char_eq_some h
  cases l with
  | nil => rfl
  | cons e l => simp at hl

theorem char_inked {p : Char → Bool} (h : ∀ c, p c = true → isBlank c = false) :
    (char p).Inked := by
  intro s l r hread
  obtain ⟨c, hp, rfl, -⟩ := char_eq_some hread
  simpa using h c hp

/-! ## One of two readers -/

theorem orElse_eq_some_iff {a b : Reader} {s : List Char} {p : List Char × List Char} :
    (a.orElse b).read s = some p ↔ a.read s = some p ∨ a.read s = none ∧ b.read s = some p :=
  Option.or_eq_some_iff

theorem orElse_eq_none_iff {a b : Reader} {s : List Char} :
    (a.orElse b).read s = none ↔ a.read s = none ∧ b.read s = none :=
  Option.or_eq_none_iff

theorem orElse_of_none {a b : Reader} {s : List Char} (h : a.read s = none) :
    (a.orElse b).read s = b.read s := by
  simp [orElse, h]

theorem orElse_of_some {a b : Reader} {s : List Char} {p : List Char × List Char}
    (h : a.read s = some p) : (a.orElse b).read s = some p := by
  simp [orElse, h]

/-- The first reader declines whatever starts with a piece of the second. -/
def Yields (a b : Reader) : Prop :=
  ∀ s l r, b.read s = some (l, r) → ∀ r', a.read (l ++ r') = none

theorem Local.orElse {a b : Reader} (ha : a.Local) (hb : b.Local) (hab : a.Yields b) :
    (a.orElse b).Local := by
  intro s l r h r'
  rcases orElse_eq_some_iff.1 h with h | ⟨-, h⟩
  · exact orElse_of_some (ha _ _ _ h r')
  · rw [orElse_of_none (hab _ _ _ h r')]
    exact hb _ _ _ h r'

theorem Inked.orElse {a b : Reader} (ha : a.Inked) (hb : b.Inked) : (a.orElse b).Inked := by
  intro s l r h
  rcases orElse_eq_some_iff.1 h with h | ⟨-, h⟩
  · exact ha _ _ _ h
  · exact hb _ _ _ h

theorem Tidy.orElse {a b : Reader} (ha : a.Tidy) (hb : b.Tidy) : (a.orElse b).Tidy := by
  intro s l c r h hc
  rcases orElse_eq_some_iff.1 h with h | ⟨-, h⟩
  · exact ha _ _ _ _ h hc
  · exact hb _ _ _ _ h hc

theorem Yields.of_orElse {a b c : Reader} (ha : a.Yields c) (hb : b.Yields c) :
    (a.orElse b).Yields c :=
  fun s l r h r' => orElse_eq_none_iff.2 ⟨ha s l r h r', hb s l r h r'⟩

end Reader

end Spriting.Css
