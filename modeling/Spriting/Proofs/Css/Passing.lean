import Spriting.Proofs.Css.Blocks
import Spriting.Proofs.Css.Preludes
import Spriting.Proofs.Css.SelectorRun

/-!
# The front of a source

A lexeme ends where its reader stops, and most readers know that by the next character.  A
quoted string, a bracket or a comment could be closed further on, but where one is open the
parser does not pass, but for a comment in a prelude: there a slash before an asterisk stands for
itself as long as nothing closes the comment.

* `leavesOpen`: the preludes for which it matters what follows much later;
* `Passes p s ts ns q r`: the front of `s` is read, up to where `r` is left;
* `Pending.Allows`: the texts in front of which the last lexeme ends where it ended;
* `Passes.parseFrom_front`: in front of these, the front of a source is read as it was.
-/

namespace Spriting.Css

open Text Reader

/-! ## Comments that a prelude leaves open -/

/-- Whether, past its first piece, a prelude has a slash before an asterisk that opens no comment
of its own, because nothing in the prelude closes it. -/
def opensComment (q : List Char) : Bool :=
  match _h : preludePiece.read q with
  | none => false
  | some (l, r) => l = ['/'] && r.head? = some '*' || opensComment r
termination_by q.length
decreasing_by exact preludePiece.length_rest_lt _h

/-- Whether a prelude leaves a comment open.  The first piece of a prelude is never a comment. -/
def leavesOpen (q : List Char) : Bool :=
  match valueStart.read q with
  | none => false
  | some (_, r) => opensComment r

theorem opensComment_eq {q l r : List Char} (h : preludePiece.read q = some (l, r)) :
    opensComment q = (l = ['/'] && r.head? = some '*' || opensComment r) := by
  rw [opensComment]
  split
  · simp_all
  · rename_i h'
    rw [h] at h'
    cases h'
    rfl

theorem quiet_of_slash {r : List Char}
    (h : preludePiece.read ('/' :: '*' :: r) = some (['/'], '*' :: r)) : Quiet r := by
  rw [Quiet]
  cases hclose : closeComment r with
  | none => rfl
  | some p =>
    have hcomment : Reader.comment.read ('/' :: '*' :: r) = some ('/' :: '*' :: p.1, p.2) := by
      rw [comment_open, hclose]
      rfl
    rw [preludePiece, orElse_of_some (orElse_of_some (orElse_of_some hcomment))] at h
    cases h

theorem exists_open_of_opensComment {q : List Char} (h : opensComment q = true) :
    ∃ a t, q = a ++ '/' :: '*' :: t ∧ Quiet t := by
  fun_induction opensComment q with
  | case1 => cases h
  | case2 q l r hread ih =>
    obtain ⟨rfl, -⟩ := preludePiece.splits hread
    rw [Bool.or_eq_true] at h
    rcases h with h | h
    · simp only [Bool.and_eq_true, decide_eq_true_eq] at h
      obtain ⟨rfl, hstar⟩ := h
      obtain ⟨t, rfl⟩ := List.head?_eq_some_iff.1 hstar
      exact ⟨[], t, rfl, quiet_of_slash hread⟩
    · obtain ⟨a, t, rfl, hquiet⟩ := ih h
      exact ⟨l ++ a, t, (List.append_assoc ..).symm, hquiet⟩

/-- What a prelude leaves open is a slash before an asterisk that nothing in it closes. -/
theorem exists_open_of_leavesOpen {q : List Char} (h : leavesOpen q = true) :
    ∃ a t, q = a ++ '/' :: '*' :: t ∧ Quiet t := by
  simp only [leavesOpen] at h
  split at h
  · cases h
  · rename_i x r hread
    obtain ⟨rfl, -⟩ := valueStart.splits hread
    obtain ⟨a, t, rfl, hquiet⟩ := exists_open_of_opensComment h
    exact ⟨x ++ a, t, (List.append_assoc ..).symm, hquiet⟩

/-! ## Reading a front -/

/-- From `p` the front of `s` is read until `q` is open and `r` is left; `ts` are the lexemes on
the way and `ns` the nodes that they finish. -/
inductive Passes :
    Pending → List Char → List (Terminal × List Char) → List Node → Pending → List Char → Prop where
  | start {p : Pending} {s : List Char} : Passes p s [] [] p s
  | gap {p q : Pending} {s g m r : List Char} {ts : List (Terminal × List Char)}
      {ns : List Node} :
    gap.read s = some (g, m) → Passes (p.skip g) m ts ns q r → Passes p s ts ns q r
  | lexeme {p p' q : Pending} {s l m r : List Char} {t : Terminal} {node? : Option Node}
      {ts : List (Terminal × List Char)} {ns : List Node} :
    gap.read s = none → firstLexeme p.expected s = some (t, l, m) →
    p.shift l t = some (node?, p') → Passes p' m ts ns q r →
    Passes p s ((t, l) :: ts) (node?.toList ++ ns) q r

variable {p q : Pending} {s r l m u : List Char} {t : Terminal} {node? : Option Node}
  {ts : List (Terminal × List Char)} {ns : List Node}

/-- A source that is read is read up to its end. -/
theorem Reads.passes (h : Reads p s ts ns) : Passes p s ts ns .nothing [] := by
  induction h with
  | done => exact .start
  | gap hgap _ ih => exact .gap hgap ih
  | lexeme hgap hfirst hshift _ ih => exact .lexeme hgap hfirst hshift ih

theorem Passes.parseFrom_eq (h : Passes p s ts ns q r) :
    parseFrom p s = (parseFrom q r).map (ns ++ ·) := by
  induction h with
  | start => exact (except_map_nil_append _).symm
  | gap hgap _ ih => rw [parseFrom_gap hgap, ih]
  | lexeme hgap hfirst hshift _ ih =>
    rw [parseFrom_lexeme hgap hfirst hshift, ih, except_map_append]

theorem Passes.splits (h : Passes p s ts ns q r) : ∃ m, s = m ++ r := by
  induction h with
  | start => exact ⟨[], rfl⟩
  | gap hgap _ ih =>
    obtain ⟨m, rfl⟩ := ih
    exact ⟨_, (Css.gap.splits hgap).1.trans (List.append_assoc ..).symm⟩
  | lexeme _ hfirst _ _ ih =>
    obtain ⟨m, rfl⟩ := ih
    exact ⟨_, ((Reader.splits _ (firstLexeme_eq_some hfirst).2).1).trans
      (List.append_assoc ..).symm⟩

/-- Where nothing is read, nothing changes. -/
theorem Passes.eq_of_nil (h : Passes p r ts ns q r) : p = q := by
  cases h with
  | start => rfl
  | gap hgap hrest =>
    obtain ⟨m, rfl⟩ := hrest.splits
    have hlength := Css.gap.length_rest_lt hgap
    rw [List.length_append] at hlength
    omega
  | lexeme _ hfirst _ hrest =>
    obtain ⟨m, rfl⟩ := hrest.splits
    have hlength := Reader.length_rest_lt _ (firstLexeme_eq_some hfirst).2
    rw [List.length_append] at hlength
    omega

/-! ## What comes next -/

/-- Where no gap stands, a lexeme of a class that may come next does. -/
theorem Passes.exists_lexeme (h : Passes p (m ++ r) ts ns q r) (hm : m ≠ [])
    (hgap : ∀ c ∈ (m ++ r).head?, ¬ IsGap c) :
    ∃ t ∈ p.expected, ∃ a, t.reader.read (m ++ r) = some a := by
  generalize hs : m ++ r = s at h hgap
  cases h with
  | start => exact absurd (List.append_left_eq_self.1 hs) hm
  | gap hread _ =>
    rw [gap_declines hgap] at hread
    cases hread
  | lexeme _ hfirst _ _ =>
    obtain ⟨ht, hread⟩ := firstLexeme_eq_some hfirst
    exact ⟨_, ht, _, hread⟩

/-- The first character of `s` is one of these. -/
def Starts (P : Char → Prop) (s : List Char) : Prop := ∃ c s', s = c :: s' ∧ P c

theorem Starts.append {P : Char → Prop} (h : Starts P (m ++ r)) (hm : m ≠ []) (u : List Char) :
    Starts P (m ++ u) := by
  obtain ⟨c, m, rfl⟩ := List.exists_cons_of_ne_nil hm
  obtain ⟨_, _, heq, hc⟩ := h
  cases heq
  exact ⟨c, m ++ u, rfl, hc⟩

theorem starts_of_mark {P : Char → Prop} {c : Char} {a : List Char × List Char}
    (hmark : t.mark? = some c) (hc : P c) (h : t.reader.read s = some a) : Starts P s := by
  obtain ⟨s', rfl⟩ := List.head?_eq_some_iff.1 (Terminal.head?_of_mark (l := a.1) (r := a.2) hmark h)
  exact ⟨c, s', rfl, hc⟩

/-- Where a piece of plain text could stand, no gap does. -/
theorem not_gap_of_declines {b : Reader} {stops : List Char}
    (hstops : [' ', '\t', '\x0c', '\r', '\n'].all (!stops.contains ·) = true)
    (h : (b.orElse (outside stops)).read r = none) : ∀ c ∈ r.head?, ¬ IsGap c := by
  intro c hc hgap
  obtain ⟨t, rfl⟩ := List.head?_eq_some_iff.1 hc
  have declines := (orElse_eq_none_iff.1 h).2
  rw [outside_cons t (hgap.notMem hstops)] at declines
  cases declines

/-- Where only a stop may come next, a stop does. -/
theorem Passes.starts_stop (h : Passes p (m ++ r) ts ns q r) (hm : m ≠ [])
    (hp : ∀ t ∈ p.expected, ∃ c, t.mark? = some c ∧ IsStop c)
    (hgap : ∀ c ∈ (m ++ r).head?, ¬ IsGap c) : Starts IsStop (m ++ r) := by
  obtain ⟨t, ht, a, hread⟩ := h.exists_lexeme hm hgap
  obtain ⟨c, hc, hstop⟩ := hp t ht
  exact starts_of_mark hc hstop hread

/-- Where the text of a block stops, a brace stands. -/
theorem Passes.starts_brace {n x : List Char} {depth : Nat} {pieces : List (List Char)}
    (h : Passes (.block n x depth pieces) (m ++ r) ts ns q r) (hm : m ≠ [])
    (stops : blockPiece.read (m ++ r) = none) : Starts IsBrace (m ++ r) := by
  obtain ⟨t, ht, a, hread⟩ := h.exists_lexeme hm (not_gap_of_declines (by decide) stops)
  simp only [Pending.expected, List.mem_cons, List.not_mem_nil, or_false] at ht
  rcases ht with rfl | rfl | rfl
  · obtain ⟨b, hb, -⟩ := Option.map_eq_some_iff.1 hread
    rw [blockPiece_of_start hb] at stops
    cases stops
  · exact starts_of_mark rfl (.inl rfl) hread
  · exact starts_of_mark rfl (.inr rfl) hread

/-! ## Other text behind the front -/

/-- In front of `u`, where `r` stood, the last lexeme ends where it ended. -/
def Pending.Allows (r u : List Char) : Pending → Prop
  | selector _ | value _ _ _ _ | prelude _ _ => Starts IsStop u
  | property _ _ _ | keyword _ => nameChar.read r = none → nameChar.read u = none
  | block _ _ _ pieces => pieces = [] ∨ Starts IsBrace u
  | _ => True

/-- The pieces of a prelude that leaves no comment open do not notice what follows, unless it
starts with an asterisk. -/
theorem Reader.Chain.of_closed {l r r' : List Char} (h : Chain preludePiece l r)
    (hr' : r'.head? ≠ some '*') (hopen : opensComment l = false) : Chain preludePiece l r' := by
  induction h with
  | nil => exact .nil _
  | @cons x m r hread hm ih =>
    rw [opensComment_eq (preludePiece_alone hread), Bool.or_eq_false_iff] at hopen
    refine .cons (preludePiece_congr hread ?_) (ih hopen.2)
    rintro rfl -
    refine comment_declines fun _ hstar => ?_
    cases m with
    | nil => exact hr' hstar
    | cons d m =>
      have hd : d ≠ '*' := by simpa using hopen.1
      exact hd (Option.some.inj hstar)

/-- A prelude ends at a stop where it ended before if it leaves no comment open, or if what
follows closes none. -/
theorem prelude_front (h : Terminal.prelude.reader.read (l ++ (m ++ r)) = some (l, m ++ r))
    (hstop : Starts IsStop (m ++ u)) (hopen : leavesOpen l = false ∨ Shields r u) :
    Terminal.prelude.reader.read (l ++ (m ++ u)) = some (l, m ++ u) := by
  obtain ⟨x, y, rfl, hx, hy, -⟩ := (followedBy_eq_some_iff (a := valueStart)).1 h
  have start : valueStart.read (x ++ y ++ (m ++ u)) = some (x, y ++ (m ++ u)) := by
    rw [List.append_assoc]
    exact valueStart_local _ _ _ hx _
  obtain ⟨c, w, hw, hc⟩ := hstop
  refine followedBy_eq_some_iff.2 ⟨x, y, rfl, start, ?_, ?_⟩
  · rcases hopen with hclosed | hshields
    · have alone : valueStart.read (x ++ y) = some (x, y) := valueStart_local _ _ _ hx y
      simp only [leavesOpen, alone] at hclosed
      refine hy.of_closed ?_ hclosed
      rw [hw]
      rcases hc with rfl | rfl | rfl <;> simp
    · refine hy.transfer fun x z _ hread => ?_
      rw [← List.append_assoc z] at hread ⊢
      exact preludePiece_transfer hshields hread
  · rw [hw]
    exact preludePiece_stops w hc

theorem char_declines_append {p : Char → Bool} (h : (Reader.char p).read (m ++ r) = none)
    (hm : m ≠ []) (u : List Char) : (Reader.char p).read (m ++ u) = none := by
  obtain ⟨c, m, rfl⟩ := List.exists_cons_of_ne_nil hm
  rw [List.cons_append] at h ⊢
  cases hc : p c with
  | true =>
    rw [char_cons _ hc] at h
    cases h
  | false => exact char_declines _ hc

/-! ## What comes next in front of other text

Either something is left of the front, and what came next still does, or the front ends here and
what comes next is what its end allows. -/

theorem Passes.starts_stop_front (h : Passes p (m ++ r) ts ns q r) (hq : q.Allows r u)
    (hend : p.Allows r u → Starts IsStop u)
    (hp : ∀ t ∈ p.expected, ∃ c, t.mark? = some c ∧ IsStop c)
    (hgap : ∀ c ∈ (m ++ r).head?, ¬ IsGap c) : Starts IsStop (m ++ u) := by
  by_cases hm : m = []
  · subst hm
    exact hend (h.eq_of_nil ▸ hq)
  · exact (h.starts_stop hm hp hgap).append hm u

theorem Passes.starts_brace_front {n x : List Char} {depth : Nat} {pieces : List (List Char)}
    (h : Passes (.block n x depth pieces) (m ++ r) ts ns q r) (hq : q.Allows r u)
    (hpieces : pieces ≠ []) (stops : blockPiece.read (m ++ r) = none) :
    Starts IsBrace (m ++ u) := by
  by_cases hm : m = []
  · subst hm
    have allowed : (Pending.block n x depth pieces).Allows r u := h.eq_of_nil ▸ hq
    exact allowed.resolve_left hpieces
  · exact (h.starts_brace hm stops).append hm u

theorem Passes.name_stops_front (h : Passes p (m ++ r) ts ns q r) (hq : q.Allows r u)
    (hend : p.Allows r u → nameChar.read r = none → nameChar.read u = none)
    (stops : nameChar.read (m ++ r) = none) : nameChar.read (m ++ u) = none := by
  by_cases hm : m = []
  · subst hm
    exact hend (h.eq_of_nil ▸ hq) stops
  · exact char_declines_append stops hm u

/-- A lexeme that is read on the way is read there whatever the end of the way allows, unless it
is a prelude that leaves a comment open which could be closed there. -/
theorem Passes.lexeme_front (hread : t.reader.read (l ++ (m ++ r)) = some (l, m ++ r))
    (hshift : p.Shifts l t node? p') (h : Passes p' (m ++ r) ts ns q r) (hq : q.Allows r u)
    (hopen : t = .prelude → leavesOpen l = false ∨ Shields r u) :
    t.reader.read (l ++ (m ++ u)) = some (l, m ++ u) := by
  cases hshift with
  | comment => exact comment_local _ _ _ hread _
  | bodyComment => exact comment_local _ _ _ hread _
  | selector =>
    obtain ⟨-, -, -, -, -, stops⟩ := (followedBy_eq_some_iff (b := selectorPiece)).1 hread
    obtain ⟨d, w, hw, hd⟩ := h.starts_stop_front hq id
      (by simp [Pending.expected, Terminal.mark?, IsStop]) (not_gap_of_declines (by decide) stops)
    obtain ⟨⟨c, hc, hleads⟩, m', hrun, hm'⟩ := selector_run hread
    obtain ⟨x, rfl⟩ := List.head?_eq_some_iff.1 hc
    rw [hw]
    exact selector_of_run hleads hd hrun hm'
  | value =>
    obtain ⟨-, -, -, -, -, stops⟩ := (followedBy_eq_some_iff (b := valuePiece)).1 hread
    obtain ⟨d, w, hw, hd⟩ := h.starts_stop_front hq id
      (by simp [Pending.expected, Terminal.mark?, IsStop]) (not_gap_of_declines (by decide) stops)
    rw [hw]
    exact followedBy_local valueStart_local valuePiece_local hread (valuePiece_stops _ hd)
  | prelude =>
    obtain ⟨-, -, -, -, -, stops⟩ := (followedBy_eq_some_iff (b := preludePiece)).1 hread
    have stop : Starts IsStop (m ++ u) := h.starts_stop_front hq id
      (by simp [Pending.expected, Terminal.mark?, IsStop]) (not_gap_of_declines (by decide) stops)
    exact prelude_front hread stop (hopen rfl)
  | property =>
    obtain ⟨-, -, -, -, -, stops⟩ := (followedBy_eq_some_iff (b := nameChar)).1 hread
    exact followedBy_local (char_local _) (char_local _) hread (h.name_stops_front hq id stops)
  | atKeyword =>
    obtain ⟨x, t, rfl, -, hname⟩ := atKeyword_eq_some_iff.1 hread
    obtain ⟨-, -, -, -, -, stops⟩ := followedBy_eq_some_iff.1 hname
    exact atKeyword_reads_back hread (h.name_stops_front hq id stops)
  | blockText =>
    obtain ⟨-, -, -, -, -, stops⟩ := (followedBy_eq_some_iff (b := blockPiece)).1 hread
    obtain ⟨d, w, hw, hd⟩ := h.starts_brace_front hq (List.cons_ne_nil _ _) stops
    rw [hw]
    exact blockText_reads_back hread hd
  | _ => exact char_local _ _ _ _ hread _

/-- The front of a source is read as it was, whatever its end allows to come next. -/
theorem Passes.parseFrom_front (h : Passes p s ts ns q r) (hs : s = m ++ r)
    (hopen : ∀ l, (.prelude, l) ∈ ts → leavesOpen l = false ∨ Shields r u) (hq : q.Allows r u) :
    parseFrom p (m ++ u) = (parseFrom q u).map (ns ++ ·) := by
  induction h generalizing m with
  | start =>
    obtain rfl := List.append_left_eq_self.1 hs.symm
    exact (except_map_nil_append _).symm
  | @gap p q s g s' r ts ns hgap hrest ih =>
    obtain ⟨m', rfl⟩ := hrest.splits
    obtain rfl : m = g ++ m' := by
      rw [(Css.gap.splits hgap).1, ← List.append_assoc] at hs
      exact List.append_cancel_right hs.symm
    rw [List.append_assoc, ← ih rfl hopen hq]
    by_cases hp : ∀ g, p.skip g = p
    · rw [hp]
      exact parseFrom_skip_all hp (gap_chars hgap)
    · refine parseFrom_gap (gap_reads_back hgap ?_)
      by_cases hm : m' = []
      · -- the way ends with a gap of a block, which a brace has to follow
        subst hm
        have allowed : (p.skip g).Allows r u := hrest.eq_of_nil ▸ hq
        cases p with
        | block n x depth pieces =>
          obtain ⟨c, w, rfl, hc⟩ := allowed.resolve_left (List.cons_ne_nil _ _)
          rintro _ ⟨⟩
          rcases hc with rfl | rfl <;> decide
        | _ => exact absurd (fun _ => rfl) hp
      · obtain ⟨c, m', rfl⟩ := List.exists_cons_of_ne_nil hm
        exact (gap_head hgap).2
  | @lexeme p p' q s l s' r t node? ts ns hgap hfirst hshift hrest ih =>
    have hread := (firstLexeme_eq_some hfirst).2
    obtain ⟨m', rfl⟩ := hrest.splits
    obtain ⟨rfl, -⟩ := t.reader.splits hread
    obtain rfl : m = l ++ m' := by
      rw [← List.append_assoc] at hs
      exact List.append_cancel_right hs.symm
    have hl : t = .prelude → leavesOpen l = false ∨ Shields r u := by
      rintro rfl
      exact hopen l List.mem_cons_self
    have hfront := Passes.lexeme_front hread (Pending.shift_eq_some_iff.1 hshift) hrest hq hl
    rw [List.append_assoc, parseFrom_step hfront hshift,
      ih rfl (fun l' hl' => hopen l' (List.mem_cons_of_mem _ hl')) hq, except_map_append]

end Spriting.Css
