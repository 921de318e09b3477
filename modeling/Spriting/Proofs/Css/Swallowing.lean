import Spriting.Proofs.Css.Passing

/-!
# Preludes that take what follows

A prelude that leaves a comment open ends at a stop only because nothing behind it closes the
comment.  Where other text that does close it comes later, the prelude goes on over the stop, and
no at-rule has the prelude that it had.

* `prelude_goes_on`: such a prelude takes the stop and more;
* `Passes.split_open`: the first prelude on the way that leaves a comment open;
* `Passes.closed_of_preludes`: so where the same preludes are read, none of those on the way does.
-/

namespace Spriting.Css

open Text Reader

variable {p q : Pending} {s l m r u w x : List Char} {c : Char}
  {ts : List (Terminal × List Char)} {ns : List Node}

/-! ## Closing what was open -/

/-- A comment that is not closed before a stop is closed behind it. -/
theorem closeComment_beyond (h : Quiet (s ++ c :: r)) (hc : c ≠ '/') (hw : ¬ Quiet w) :
    ∃ k b, closeComment (s ++ c :: w) = some (s ++ c :: k, b) := by
  have quiet : Quiet (s ++ [c]) := by
    refine quiet_append.2 ⟨h.left, quiet_cons.2 ⟨?_, quiet_nil⟩, ?_⟩
    · rintro ⟨-, ⟨⟩⟩
    · rintro ⟨-, hslash⟩
      exact hc (Option.some.inj hslash)
  cases hclose : closeComment (s ++ c :: w) with
  | none =>
    have hquiet : Quiet (s ++ c :: w) := hclose
    exact absurd (quiet_cons.1 hquiet.right).2 hw
  | some found =>
    obtain ⟨a, b⟩ := found
    have loud : ¬ Quiet a := by
      intro hquiet
      have alone := closeComment_local hclose []
      rw [List.append_nil, hquiet] at alone
      cases alone
    have split : (s ++ [c]) ++ w = a ++ b := by
      simpa using closeComment_append hclose
    rcases List.append_eq_append_iff.1 split with ⟨k, rfl, -⟩ | ⟨k, hk, -⟩
    · exact ⟨k, b, by simp⟩
    · exact absurd (hk ▸ quiet).left loud

theorem opensComment_nil : opensComment [] = false := by
  rw [opensComment]
  split
  · rfl
  · rename_i hread
    cases hread

/-- Where a comment is left open among the pieces, closing it takes the stop along. -/
theorem many_goes_on (h : Chain preludePiece l (c :: r)) (hc : IsStop c)
    (hopen : opensComment l = true) (hw : ¬ Quiet w) :
    ∃ k, (preludePiece.many (l ++ c :: w)).1 = l ++ c :: k := by
  have hstar : c ≠ '*' := by rcases hc with rfl | rfl | rfl <;> decide
  have hslash : c ≠ '/' := by rcases hc with rfl | rfl | rfl <;> decide
  generalize hs : c :: r = s at h
  induction h with
  | nil =>
    rw [opensComment_nil] at hopen
    cases hopen
  | @cons x m s hread hm ih =>
    subst hs
    rw [opensComment_eq (preludePiece_alone hread)] at hopen
    by_cases hfirst : x = ['/'] ∧ m.head? = some '*'
    · -- the piece opens the comment, and now it is closed
      obtain ⟨rfl, hm⟩ := hfirst
      obtain ⟨t, rfl⟩ := List.head?_eq_some_iff.1 hm
      obtain ⟨k, b, hclose⟩ := closeComment_beyond (quiet_of_slash hread) hslash hw
      have hcomment : preludePiece.read ('/' :: '*' :: (t ++ c :: w)) =
          some ('/' :: '*' :: (t ++ c :: k), b) := by
        refine orElse_of_some (orElse_of_some (orElse_of_some ?_))
        rw [comment_open, hclose]
        rfl
      refine ⟨k ++ (preludePiece.many b).1, ?_⟩
      have many := many_of_some hcomment
      rw [List.append_assoc, List.singleton_append, List.cons_append, many]
      simp
    · have hrest : opensComment m = true := by
        rw [Bool.or_eq_true] at hopen
        exact hopen.resolve_left fun hopens => hfirst (by simpa using hopens)
      have piece : preludePiece.read (x ++ (m ++ c :: w)) = some (x, m ++ c :: w) := by
        refine preludePiece_congr hread ?_
        rintro rfl -
        refine comment_declines fun _ hhead => ?_
        cases m with
        | nil => exact hstar (Option.some.inj hhead)
        | cons d m => exact hfirst ⟨rfl, hhead⟩
      obtain ⟨k, hk⟩ := ih hrest rfl
      refine ⟨k, ?_⟩
      rw [List.append_assoc, many_of_some piece, hk, List.append_assoc]

/-- A prelude that leaves a comment open goes on over a stop where the comment is closed later. -/
theorem prelude_goes_on
    (h : Terminal.prelude.reader.read (l ++ c :: r) = some (l, c :: r)) (hc : IsStop c)
    (hopen : leavesOpen l = true) (hw : ¬ Quiet w) :
    ∃ k b, Terminal.prelude.reader.read (l ++ c :: w) = some (l ++ c :: k, b) := by
  obtain ⟨x, m, rfl, hx, hm, -⟩ := (followedBy_eq_some_iff (a := valueStart)).1 h
  have alone : valueStart.read (x ++ m) = some (x, m) := valueStart_local _ _ _ hx m
  simp only [leavesOpen, alone] at hopen
  obtain ⟨k, hk⟩ := many_goes_on hm hc hopen hw
  refine ⟨k, (preludePiece.many (m ++ c :: w)).2, ?_⟩
  have start : valueStart.read (x ++ (m ++ c :: w)) = some (x, m ++ c :: w) :=
    valueStart_local _ _ _ hx _
  rw [List.append_assoc, List.append_assoc, ← hk]
  exact congrArg (Option.map _) start

/-! ## The prelude of an at-rule -/

/-- The prelude of a node that has one. -/
def Node.prelude? : Node → Option String
  | atRule a => some a.prelude
  | _ => none

/-- An at-rule with this prelude is open. -/
def Pending.Preluded (x : List Char) : Pending → Prop
  | prelude _ y => y = x
  | block _ y _ _ => y = x
  | _ => False

theorem Pending.Preluded.shift {p' : Pending} {t : Terminal} {node? : Option Node}
    (h : p.Preluded x) (hs : p.Shifts l t node? p') :
    (node? = none ∧ p'.Preluded x) ∨
      ∃ n, node? = some n ∧ n.prelude? = some (String.ofList (trim x)) := by
  cases hs with
  | statement hhead =>
    cases hhead with
    | keyword => exact h.elim
    | prelude =>
      obtain rfl := h
      exact .inr ⟨_, rfl, rfl⟩
  | openBlock hhead =>
    cases hhead with
    | keyword => exact h.elim
    | prelude => exact .inl ⟨rfl, h⟩
  | blockText => exact .inl ⟨rfl, h⟩
  | openInner => exact .inl ⟨rfl, h⟩
  | closeInner => exact .inl ⟨rfl, h⟩
  | closeBlock =>
    obtain rfl := h
    exact .inr ⟨_, rfl, rfl⟩
  | semicolon hbody => cases hbody <;> exact h.elim
  | closeBody hbody => cases hbody <;> exact h.elim
  | _ => exact h.elim

/-- An at-rule that is open is read with its prelude. -/
theorem Reads.prelude_eq (h : Reads p s ts ns) (hp : p.Preluded x) :
    ∃ n ns', ns = n :: ns' ∧ n.prelude? = some (String.ofList (trim x)) :=
  h.first_node id (fun p _ hp => by cases p <;> exact hp) Pending.Preluded.shift hp

/-! ## The first prelude that leaves a comment open -/

theorem Passes.split_open (h : Passes p s ts ns q r)
    (hopen : ∃ l, (.prelude, l) ∈ ts ∧ leavesOpen l = true) :
    ∃ ts₁ ns₁ n l m ts₂ ns₂, Passes p s ts₁ ns₁ (.keyword n) (l ++ m) ∧
      (∀ l', (.prelude, l') ∈ ts₁ → leavesOpen l' = false) ∧
      Terminal.prelude.reader.read (l ++ m) = some (l, m) ∧ leavesOpen l = true ∧
      Passes (.prelude n l) m ts₂ ns₂ q r ∧ ns = ns₁ ++ ns₂ := by
  induction h with
  | start =>
    obtain ⟨l, hl, -⟩ := hopen
    cases hl
  | gap hgap _ ih =>
    obtain ⟨ts₁, ns₁, n, l, m, ts₂, ns₂, h₁, hclosed, hrest⟩ := ih hopen
    exact ⟨ts₁, ns₁, n, l, m, ts₂, ns₂, .gap hgap h₁, hclosed, hrest⟩
  | @lexeme p p' q s l' s' r t node? ts ns hgap hfirst hshift hrest ih =>
    have hread := (firstLexeme_eq_some hfirst).2
    by_cases here : t = .prelude ∧ leavesOpen l' = true
    · obtain ⟨rfl, hl'⟩ := here
      obtain ⟨rfl, -⟩ := Terminal.prelude.reader.splits hread
      cases Pending.shift_eq_some_iff.1 hshift with
      | @prelude n =>
        exact ⟨[], [], n, l', s', ts, ns, .start, nofun, hread, hl', hrest, rfl⟩
    · obtain ⟨l, hl, hlopen⟩ := hopen
      have later : (.prelude, l) ∈ ts := by
        rcases List.mem_cons.1 hl with heq | hl
        · cases heq
          exact absurd ⟨rfl, hlopen⟩ here
        · exact hl
      obtain ⟨ts₁, ns₁, n, l, m, ts₂, ns₂, h₁, hclosed, hread', hopen', h₂, rfl⟩ :=
        ih ⟨l, later, hlopen⟩
      refine ⟨_, _, n, l, m, ts₂, ns₂, .lexeme hgap hfirst hshift h₁, ?_, hread', hopen', h₂,
        (List.append_assoc ..).symm⟩
      intro l'' hl''
      rcases List.mem_cons.1 hl'' with heq | hl''
      · cases heq
        exact Bool.eq_false_iff.2 fun hopens => here ⟨rfl, hopens⟩
      · exact hclosed l'' hl''

/-- A prelude that goes on over a stop is another one. -/
theorem trim_ne_of_goes_on {k : List Char} (hl : ∀ d ∈ l.head?, isBlank d = false) (hne : l ≠ [])
    (hc : IsStop c) : trim (l ++ c :: k) ≠ trim l := by
  have hink : ∀ d ∈ (l ++ [c]).getLast?, isBlank d = false := by
    rw [List.getLast?_append]
    rintro _ ⟨⟩
    rcases hc with rfl | rfl | rfl <;> decide
  have hhead : ∀ d ∈ (l ++ c :: k).head?, isBlank d = false := by
    obtain ⟨d, l, rfl⟩ := List.exists_cons_of_ne_nil hne
    exact hl
  intro heq
  obtain ⟨b, -, hb⟩ := exists_trimEnd l
  have hshort := congrArg List.length hb
  have hlength := congrArg List.length heq
  rw [trim_of_head hhead, trim_of_head hl, List.append_cons, trimEnd_append hink] at hlength
  simp only [List.length_append, List.length_singleton] at hlength hshort
  omega

/-- The at-rule that a keyword and a prelude start. -/
theorem prelude_of_parseFrom {n : List Char} {all : List Node}
    (hread : Terminal.prelude.reader.read (l ++ m) = some (l, m))
    (h : parseFrom (.keyword n) (l ++ m) = .ok all) :
    ∃ a rest, all = a :: rest ∧ a.prelude? = some (String.ofList (trim l)) := by
  rw [parseFrom_shift (q := .prelude n l) hread rfl] at h
  obtain ⟨ts, hreads⟩ := exists_reads h
  exact hreads.prelude_eq rfl

/-- Of the preludes on the way that leave a comment open, the first ends at a stop. -/
theorem Passes.first_open (h : Passes p (m ++ r) ts ns q r) (hq : ∀ n l, q ≠ .prelude n l)
    (hopen : ∃ l, (.prelude, l) ∈ ts ∧ leavesOpen l = true) :
    ∃ m₁ l c m₂ ts₁ ns₁ n, m = m₁ ++ (l ++ c :: m₂) ∧ IsStop c ∧ leavesOpen l = true ∧
      Passes p (m ++ r) ts₁ ns₁ (.keyword n) (l ++ c :: (m₂ ++ r)) ∧
      (∀ l', (.prelude, l') ∈ ts₁ → leavesOpen l' = false) ∧
      Terminal.prelude.reader.read (l ++ c :: (m₂ ++ r)) = some (l, c :: (m₂ ++ r)) := by
  obtain ⟨ts₁, ns₁, n, l, m', ts₂, ns₂, h₁, hclosed, hread, hlopen, h₂, -⟩ := h.split_open hopen
  obtain ⟨m', rfl⟩ := h₂.splits
  have hm' : m' ≠ [] := by
    rintro rfl
    exact hq _ _ h₂.eq_of_nil.symm
  obtain ⟨-, -, -, -, -, stops⟩ := (followedBy_eq_some_iff (b := preludePiece)).1 hread
  obtain ⟨c, w, hw, hc⟩ := h₂.starts_stop hm' (by simp [Pending.expected, Terminal.mark?, IsStop])
    (not_gap_of_declines (by decide) stops)
  obtain ⟨d, m₂, rfl⟩ := List.exists_cons_of_ne_nil hm'
  obtain ⟨rfl, -⟩ : d = c ∧ _ := List.cons_eq_cons.1 hw
  obtain ⟨m₁, hm₁⟩ := h₁.splits
  refine ⟨m₁, l, d, m₂, ts₁, ns₁, n, ?_, hc, hlopen, h₁, hclosed, hread⟩
  rw [← List.append_assoc, ← List.append_assoc] at hm₁
  exact List.append_cancel_right (by simpa using hm₁)

/-- Where the same preludes are read in front of a text that closes a comment, no prelude on the
way there leaves one open. -/
theorem Passes.closed_of_preludes {all all' : List Node}
    (h : Passes .nothing (m ++ r) ts ns q r) (hq : ∀ n l, q ≠ .prelude n l) (hu : ¬ Quiet u)
    (hall : parseFrom .nothing (m ++ r) = .ok all)
    (hall' : parseFrom .nothing (m ++ u) = .ok all')
    (hsame : all'.map Node.prelude? = all.map Node.prelude?) :
    ∀ l, (.prelude, l) ∈ ts → leavesOpen l = false := by
  by_contra hopen
  simp only [not_forall, Bool.not_eq_false] at hopen
  obtain ⟨l, hl, hlopen⟩ := hopen
  obtain ⟨m₁, l, c, m₂, ts₁, ns₁, n, rfl, hc, hlopen, h₁, hclosed, hread⟩ :=
    h.first_open hq ⟨l, hl, hlopen⟩
  -- up to the keyword nothing changes
  have allows : (Pending.keyword n).Allows (l ++ c :: (m₂ ++ r)) (l ++ c :: (m₂ ++ u)) := by
    intro hname
    rw [List.append_cons] at hname ⊢
    exact char_declines_append hname (by simp) _
  have front := h₁.parseFrom_front (m := m₁) (by simp) (fun l' hl' => .inl (hclosed l' hl')) allows
  -- and there the prelude goes on over the stop
  obtain ⟨k, b, hread'⟩ := prelude_goes_on (w := m₂ ++ u) hread hc hlopen fun hquiet => hu hquiet.right
  have split : l ++ c :: (m₂ ++ u) = (l ++ c :: k) ++ b :=
    (Terminal.prelude.reader.splits hread').1
  have whole : m₁ ++ (l ++ c :: m₂) ++ u = m₁ ++ (l ++ c :: (m₂ ++ u)) := by simp
  rw [whole, front, except_map_append_eq_ok] at hall'
  obtain ⟨rest', hrest', rfl⟩ := hall'
  rw [h₁.parseFrom_eq, except_map_append_eq_ok] at hall
  obtain ⟨rest, hrest, rfl⟩ := hall
  obtain ⟨a, ns, rfl, ha⟩ := prelude_of_parseFrom hread hrest
  rw [split] at hrest'
  obtain ⟨a', ns', rfl, ha'⟩ := prelude_of_parseFrom (read_append hread') hrest'
  rw [List.map_append, List.map_append, List.append_cancel_left_eq, List.map_cons, List.map_cons,
    List.cons_eq_cons, ha, ha'] at hsame
  have heq := congrArg String.toList (Option.some.inj hsame.1)
  rw [String.toList_ofList, String.toList_ofList] at heq
  have ink : ∀ d ∈ l.head?, isBlank d = false := by
    simpa using valueStart_inked.head_followedBy hread []
  exact trim_ne_of_goes_on ink (Terminal.prelude.reader.splits hread).2 hc heq

end Spriting.Css
