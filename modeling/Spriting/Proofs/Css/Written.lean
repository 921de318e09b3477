import Spriting.Proofs.Css.Standing

/-!
# Nodes that the parser makes

What is known of the nodes of every source that can be read, in whatever form they are
written afterwards: each is made of lexemes, and where the source closes no comment behind
a node, the nodes that follow it are quiet.

* `Node.Made`: a node that is made of lexemes;
* `Written`: nodes that follow one another in a source;
* `Pending.Sound`: what is open while a source is read, step by step;
* `Reads.written`: the nodes of a source follow one another;
* `Reads.legible`: their selectors can be read again unless a list starts with a comma.
-/

namespace Spriting.Css

open Text Reader

/-- A node that the parser makes in front of `r`; `P` holds of the selectors of a rule. -/
inductive Node.Made (P : List (List Char) → Prop) (r : List Char) : Node → Prop where
  | rule {es : List (List Char)} {body : List BodyItem} :
    Listed es → P es → (∀ i ∈ body, i.Written) → Made P r (listedRule es body)
  | comment {l : List Char} : Terminal.comment.Takes l → Made P r (.comment (commentOf l))
  | statement {n q : List Char} : Keyword n → PreludeOf q r → Made P r (atRuleOf n q none)
  | block {n q w : List Char} :
    Keyword n → BlockRest 0 w → PreludeOf q (w ++ r) → Made P r (atRuleOf n q (some w.dropLast))

/-- Nodes that the parser makes one after another. -/
inductive Written (P : List (List Char) → Prop) : List Node → Prop where
  | nil : Written P []
  | cons {n : Node} {ns : List Node} {r : List Char} :
    n.Made P r → (Quiet r → ∀ m ∈ ns, m.Quieted) → Written P ns → Written P (n :: ns)

variable {P : List (List Char) → Prop}

namespace Pending

/-- A selector list that the parser took. -/
def Begun (P : List (List Char) → Prop) (l : List Char) : Prop :=
  Terminal.selector.Takes l ∧ P (entries (pieces {} l))

/-- A rule of which the selector list and some items have been read. -/
def Opened (P : List (List Char) → Prop) (l : List Char) (items : List BodyItem) : Prop :=
  Begun P l ∧ ∀ i ∈ items, i.Written

/-- What has been read of the open node is made of lexemes when `s` is left of the source.  A
block is sound where it starts. -/
def Sound (P : List (List Char) → Prop) : Pending → List Char → Prop
  | nothing, _ => True
  | selector l, _ => Begun P l
  | body l items, _ => Opened P l items
  | property l items n, _ => Opened P l items ∧ Terminal.property.Takes n
  | colon l items n, _ => Opened P l items ∧ Terminal.property.Takes n
  | value l items n v, _ => Opened P l items ∧ Terminal.property.Takes n ∧ Terminal.value.Takes v
  | keyword n, _ => Keyword n
  | prelude n q, s => Keyword n ∧ PreludeOf q s
  | block n q depth pieces, s => depth = 0 ∧ pieces = [] ∧ Keyword n ∧ PreludeOf q s

theorem Sound.drop {p : Pending} {a s : List Char} (h : p.Sound P (a ++ s)) : p.Sound P s := by
  cases p with
  | prelude n q => exact ⟨h.1, h.2.drop⟩
  | block n q depth pieces => exact ⟨h.1, h.2.1, h.2.2.1, h.2.2.2.drop⟩
  | _ => exact h

theorem Opened.cons {l : List Char} {items : List BodyItem} {item : BodyItem}
    (h : Opened P l items) (hi : item.Written) : Opened P l (item :: items) :=
  ⟨h.1, List.forall_mem_cons.2 ⟨hi, h.2⟩⟩

theorem Opened.made {l : List Char} {items : List BodyItem} (h : Opened P l items)
    (r : List Char) : (ruleOf l items).Made P r := by
  obtain ⟨⟨⟨s, r₀, hread⟩, hP⟩, hi⟩ := h
  exact .rule (listed_entries hread) hP fun i hmem => hi i (List.mem_reverse.1 hmem)

theorem Sound.endsBody {p : Pending} {s l : List Char} {items : List BodyItem} (h : p.Sound P s)
    (hbody : p.EndsBody l items) : Opened P l items := by
  cases hbody with
  | body => exact h
  | colon => exact h.1.cons (.declaration h.2 (.inl rfl))
  | value => exact h.1.cons (.declaration h.2.1 (.inr h.2.2))

theorem Sound.endsHead {p : Pending} {s n q : List Char} (h : p.Sound P s)
    (hhead : p.EndsHead n q) : Keyword n ∧ PreludeOf q s := by
  cases hhead with
  | keyword => exact ⟨h, .inl rfl⟩
  | prelude => exact h

/-- Outside blocks, a lexeme keeps what is open sound, and a node that it finishes is made. -/
theorem Sound.shift {p p' : Pending} {l r : List Char} {t : Terminal} {node? : Option Node}
    (h : p.Sound P (l ++ r)) (hp : ∀ g, p.skip g = p)
    (hread : t.reader.read (l ++ r) = some (l, r))
    (hselector : t = .selector → P (entries (pieces {} l))) (hs : p.shift l t = some (node?, p')) :
    p'.Sound P r ∧ ∀ n ∈ node?, n.Made P r ∧ p' = .nothing := by
  have takes : t.Takes l := ⟨_, _, hread⟩
  cases Pending.shift_eq_some_iff.1 hs with
  | selector => exact ⟨⟨takes, hselector rfl⟩, nofun⟩
  | comment =>
    refine ⟨trivial, ?_⟩
    rintro _ ⟨⟩
    exact ⟨.comment takes, rfl⟩
  | atKeyword => exact ⟨⟨l, takes, rfl⟩, nofun⟩
  | openBody => exact ⟨⟨h, nofun⟩, nofun⟩
  | property => exact ⟨⟨h, takes⟩, nofun⟩
  | bodyComment => exact ⟨Opened.cons h (.comment takes), nofun⟩
  | colon => exact ⟨h, nofun⟩
  | value => exact ⟨⟨h.1, h.2, takes⟩, nofun⟩
  | semicolon hbody => exact ⟨h.endsBody hbody, nofun⟩
  | closeBody hbody =>
    refine ⟨trivial, ?_⟩
    rintro _ ⟨⟩
    exact ⟨(h.endsBody hbody).made r, rfl⟩
  | prelude => exact ⟨⟨h, .inr ⟨_, _, hread, id⟩⟩, nofun⟩
  | statement hhead =>
    obtain ⟨hn, hq⟩ := h.drop.endsHead hhead
    refine ⟨trivial, ?_⟩
    rintro _ ⟨⟩
    exact ⟨.statement hn hq, rfl⟩
  | openBlock hhead => exact ⟨⟨rfl, rfl, h.drop.endsHead hhead⟩, nofun⟩
  | _ =>
    -- inside a block a gap counts
    have := hp [' ']
    simp [Pending.skip] at this

theorem skip_or_block (p : Pending) :
    (∀ g, p.skip g = p) ∨ ∃ n q depth pieces, p = .block n q depth pieces := by
  cases p with
  | block n q depth pieces => exact .inr ⟨n, q, depth, pieces, rfl⟩
  | _ => exact .inl fun _ => rfl

end Pending

/-- The nodes of a source follow one another. -/
theorem Reads.written {p : Pending} {s : List Char} {ts : List (Terminal × List Char)}
    {ns : List Node} (h : Reads p s ts ns) (hp : p.Sound P s)
    (hselector : ∀ l, (Terminal.selector, l) ∈ ts → Terminal.selector.Takes l →
      P (entries (pieces {} l))) : Written P ns := by
  -- a block is taken in one step, so the induction is on the length of the source
  induction hlength : s.length using Nat.strongRecOn generalizing p s ts ns with
  | _ k ih =>
    subst hlength
    rcases p.skip_or_block with hskip | ⟨n, q, depth, pieces, rfl⟩
    · cases h with
      | done => exact .nil
      | gap hgap hr =>
        rename_i g r
        have shorter := Css.gap.length_rest_lt hgap
        obtain ⟨rfl, -⟩ := Css.gap.splits hgap
        rw [hskip] at hr
        exact ih _ shorter hr hp.drop hselector rfl
      | lexeme hgap hfirst hshift hr =>
        rename_i p' l r t node? ts ns
        have hread := (firstLexeme_eq_some hfirst).2
        have shorter := t.reader.length_rest_lt hread
        obtain ⟨rfl, -⟩ := t.reader.splits hread
        have head : t = .selector → P (entries (pieces {} l)) := by
          rintro rfl
          exact hselector l List.mem_cons_self ⟨_, _, hread⟩
        obtain ⟨hp', hnode⟩ := hp.shift hskip hread head hshift
        have hrest :=
          ih _ shorter hr hp' (fun l hl => hselector l (List.mem_cons_of_mem _ hl)) rfl
        cases node? with
        | none => exact hrest
        | some n =>
          obtain ⟨hn, rfl⟩ := hnode n rfl
          exact .cons hn (fun hquiet => hr.quieted hquiet) hrest
    · obtain ⟨rfl, rfl, hn, hq⟩ := hp
      obtain ⟨w, r, ts', ns', rfl, hw, hts, hr, rfl⟩ := h.block
      have shorter : r.length < (w ++ r).length := by
        have := List.length_pos_iff.2 hw.ne_nil
        rw [List.length_append]
        omega
      have hrest := ih _ shorter hr trivial (fun l hl => hselector l (hts hl)) rfl
      exact .cons (.block hn hw hq) (fun hquiet => hr.quieted hquiet) hrest

/-- A selector list that can be read again: it starts with a selector, and each selector but the
last ends where a comma separates. -/
def Legible (es : List (List Char)) : Prop := Headed es ∧ Cut {} es

/-- Where no list starts with a comma, the selectors of all rules can be read again. -/
theorem Reads.legible {p : Pending} {s : List Char} {ts : List (Terminal × List Char)}
    {ns : List Node} (h : Reads p s ts ns) (hp : p.Sound Legible s)
    (hcomma : ∀ l, (Terminal.selector, l) ∈ ts → l.head? ≠ some ',') : Written Legible ns := by
  refine h.written hp ?_
  rintro l hl ⟨s, r, hread⟩
  exact ⟨headed_entries hread (hcomma l hl), (cut_pieces {} l).entries Nesting.proper_start⟩

end Spriting.Css
