import Spriting.Proofs.Css.Preludes
import Spriting.Proofs.Css.Printing

/-!
# A quiet source is written quietly

Where nothing in a source closes a comment, nothing in the pretty form of its nodes
does: what is written are pieces of the source, and between two pieces stands
something that is neither an asterisk nor a slash.

* `Reads.quieted`: the nodes of a quiet source consist of quiet parts;
* `quiet_sheetChars`: such nodes are written quietly.
-/

namespace Spriting.Css

open Text Reader

/-! ## Putting quiet texts together -/

theorem Quiet.cons {c : Char} {s : List Char} (hc : c ≠ '*') (hs : Quiet s) : Quiet (c :: s) :=
  quiet_cons.2 ⟨fun h => hc h.1, hs⟩

theorem Quiet.glue {a b : List Char} {c : Char} (ha : Quiet a) (hb : Quiet b)
    (hc : c ≠ '*' ∧ c ≠ '/') : Quiet (a ++ c :: b) :=
  quiet_append.2 ⟨ha, hb.cons hc.1, fun h => hc.2 (Option.some.inj h.2)⟩

theorem Quiet.trim {s : List Char} (h : Quiet s) : Quiet (trim s) := by
  obtain ⟨b, b', -, -, hs⟩ := exists_trim s
  rw [hs] at h
  exact h.right.left

theorem Quiet.drop {s : List Char} (k : Nat) (h : Quiet s) : Quiet (s.drop k) := by
  rw [← List.take_append_drop k s] at h
  exact h.right

theorem quiet_of_mem_intercalate {l : List Char} {ls : List (List Char)}
    (h : Quiet ([','].intercalate ls)) (hl : l ∈ ls) : Quiet l := by
  induction ls with
  | nil => cases hl
  | cons l' ls ih =>
    by_cases hls : ls = []
    · subst hls
      rw [List.intercalate_singleton] at h
      obtain rfl := List.mem_singleton.1 hl
      exact h
    · rw [List.intercalate_cons_of_ne_nil hls, List.append_assoc] at h
      rcases List.mem_cons.1 hl with rfl | hl
      · exact h.left
      · exact ih h.right.right hl

theorem Quiet.entries {selector : List Char} (h : Quiet selector) :
    ∀ e ∈ entries (pieces {} selector), Quiet e := by
  intro e he
  obtain ⟨s, hs, rfl⟩ := List.mem_map.1 (List.mem_filter.1 he).1
  have flat : [','].intercalate (pieces {} selector) = selector := flatten_segments {} selector
  rw [← flat] at h
  exact (quiet_of_mem_intercalate h hs).trim

/-- Quiet texts are joined quietly by what glues two quiet texts. -/
theorem quiet_intercalate {ls : List (List Char)} {separator : List Char}
    (hglue : ∀ {a b : List Char}, Quiet a → Quiet b → Quiet (a ++ (separator ++ b)))
    (h : ∀ l ∈ ls, Quiet l) : Quiet (separator.intercalate ls) := by
  induction ls with
  | nil => exact quiet_nil
  | cons l ls ih =>
    obtain ⟨hl, hls⟩ := List.forall_mem_cons.1 h
    by_cases hne : ls = []
    · subst hne
      rw [List.intercalate_singleton]
      exact hl
    · rw [List.intercalate_cons_of_ne_nil hne, List.append_assoc]
      exact hglue hl (ih hls)

/-- A comma and a line feed, or two line feeds, glue quiet texts. -/
theorem Quiet.glue_line {c : Char} {a b : List Char} (hc : c ≠ '*' ∧ c ≠ '/') (ha : Quiet a)
    (hb : Quiet b) : Quiet (a ++ ([c, '\n'] ++ b)) :=
  ha.glue (hb.cons (by decide)) hc

/-! ## Quiet nodes -/

theorem quiet_declarationOf {n v : List Char} (hn : Quiet n) (hv : Quiet v) :
    Quiet (declarationOf n v).chars := by
  rw [chars_declarationOf]
  have hend : Quiet (trim v ++ [';']) := hv.trim.glue quiet_nil (by decide)
  exact hn.trim.glue (hend.cons (by decide)) (by decide)

theorem quiet_lines {items : List BodyItem} (h : ∀ i ∈ items, Quiet i.chars) :
    Quiet (items.flatMap BodyItem.line ++ ['\n', '\x7d']) := by
  induction items with
  | nil => exact (quiet_nil.cons (by decide)).cons (by decide)
  | cons item items ih =>
    obtain ⟨hitem, hitems⟩ := List.forall_mem_cons.1 h
    have hrest := ih hitems
    obtain ⟨t, ht⟩ : ∃ t, items.flatMap BodyItem.line ++ ['\n', '\x7d'] = '\n' :: t := by
      cases items with
      | nil => exact ⟨_, rfl⟩
      | cons item items => exact ⟨_, rfl⟩
    rw [ht] at hrest
    rw [List.flatMap_cons, List.append_assoc, ht]
    have hline : Quiet (item.chars ++ '\n' :: t) :=
      hitem.glue (quiet_cons.1 hrest).2 (by decide)
    exact ((hline.cons (by decide)).cons (by decide)).cons (by decide)

/-- Nothing that the node consists of closes a comment. -/
def Node.Quieted : Node → Prop
  | rule r => (∀ s ∈ r.selectors, Quiet s.toList) ∧ ∀ i ∈ r.body, Quiet i.chars
  | comment _ => False
  | atRule a => Quiet a.name.toList ∧ Quiet a.prelude.toList ∧ ∀ b ∈ a.block, Quiet b.toList

theorem quieted_ruleOf {selector : List Char} {items : List BodyItem} (hs : Quiet selector)
    (hi : ∀ i ∈ items, Quiet i.chars) : (ruleOf selector items).Quieted := by
  refine ⟨fun s hmem => hs.entries _ ?_, fun i h => hi i (List.mem_reverse.1 h)⟩
  rw [← selectors_toList]
  exact List.mem_map_of_mem hmem

theorem quieted_atRuleOf {n q : List Char} {block : Option (List Char)} (hn : Quiet n)
    (hq : Quiet q) (hblock : ∀ b ∈ block, Quiet b) : (atRuleOf n q block).Quieted := by
  refine ⟨by simpa [atRuleOf] using hn, by simpa [atRuleOf] using hq.trim, ?_⟩
  intro b hb
  obtain ⟨cs, hcs, rfl⟩ := Option.map_eq_some_iff.1 hb
  simpa using hblock cs hcs

/-- A node of quiet parts is written quietly: between its parts stands something that is
neither an asterisk nor a slash. -/
theorem Node.Quieted.chars {n : Node} (h : n.Quieted) : Quiet n.chars := by
  cases n with
  | rule r =>
    rw [chars_rule]
    have hselectors : ∀ l ∈ r.selectors.map String.toList, Quiet l := List.forall_mem_map.2 h.1
    exact (quiet_intercalate (Quiet.glue_line (by decide)) hselectors).glue
      ((quiet_lines h.2).cons (by decide)) (by decide)
  | comment c => exact h.elim
  | atRule a =>
    obtain ⟨hn, hq, hblock⟩ := h
    have hend : ∃ c t, blockChars (a.block.map String.toList) = c :: t ∧ (c ≠ '*' ∧ c ≠ '/') ∧
        Quiet t := by
      cases hb : a.block with
      | none => exact ⟨';', [], rfl, by decide, quiet_nil⟩
      | some b =>
        have : Quiet (b.toList ++ ['\x7d']) := (hblock b hb).glue quiet_nil (by decide)
        exact ⟨' ', _, rfl, by decide, this.cons (by decide)⟩
    obtain ⟨c, t, ht, hc, hquiet⟩ := hend
    rw [chars_atRule, ht]
    refine Quiet.cons (by decide) ?_
    split
    · exact hn.glue hquiet hc
    · exact hn.glue (hq.glue hquiet hc) (by decide)

/-! ## Quiet sources -/

/-- What has been read of the open node and what is left of the source is quiet. -/
def Pending.Quieted : Pending → List Char → Prop
  | nothing, s => Quiet s
  | selector l, s => Quiet l ∧ Quiet s
  | body l items, s => (Quiet l ∧ ∀ i ∈ items, Quiet i.chars) ∧ Quiet s
  | property l items n, s => (Quiet l ∧ ∀ i ∈ items, Quiet i.chars) ∧ Quiet n ∧ Quiet s
  | colon l items n, s => (Quiet l ∧ ∀ i ∈ items, Quiet i.chars) ∧ Quiet n ∧ Quiet s
  | value l items n v, s => (Quiet l ∧ ∀ i ∈ items, Quiet i.chars) ∧ (Quiet n ∧ Quiet v) ∧ Quiet s
  | keyword n, s => Quiet n ∧ Quiet s
  | prelude n q, s => (Quiet n ∧ Quiet q) ∧ Quiet s
  | block n q _ pieces, s => (Quiet n ∧ Quiet q) ∧ Quiet (joined pieces ++ s)

theorem Pending.Quieted.skip {p : Pending} {g r : List Char} (h : p.Quieted (g ++ r)) :
    (p.skip g).Quieted r := by
  cases p with
  | nothing => exact Quiet.right h
  | selector l => exact ⟨h.1, h.2.right⟩
  | body l items => exact ⟨h.1, h.2.right⟩
  | property l items n => exact ⟨h.1, h.2.1, h.2.2.right⟩
  | colon l items n => exact ⟨h.1, h.2.1, h.2.2.right⟩
  | value l items n v => exact ⟨h.1, h.2.1, h.2.2.right⟩
  | keyword n => exact ⟨h.1, h.2.right⟩
  | prelude n q => exact ⟨h.1, h.2.right⟩
  | block n q depth pieces =>
    refine ⟨h.1, ?_⟩
    rw [joined, List.reverse_cons, List.flatten_append, List.append_assoc]
    simpa [joined] using h.2

/-- Nothing that is quiet holds a whole comment. -/
theorem not_quiet_of_comment {s l r : List Char} (h : Reader.comment.read s = some (l, r)) :
    ¬ Quiet s := by
  obtain ⟨x, t, -, rfl, hclose⟩ := comment_eq_some h
  intro hq
  have hquiet : Quiet t := (quiet_cons.1 (quiet_cons.1 hq).2).2
  rw [Quiet, hclose] at hquiet
  cases hquiet

theorem quiet_cons_item {items : List BodyItem} {n v : List Char}
    (hi : ∀ i ∈ items, Quiet i.chars) (hn : Quiet n) (hv : Quiet v) :
    ∀ i ∈ declarationOf n v :: items, Quiet i.chars :=
  List.forall_mem_cons.2 ⟨quiet_declarationOf hn hv, hi⟩

theorem Pending.Quieted.endsBody {p : Pending} {s l : List Char} {items : List BodyItem}
    (h : p.Quieted s) (hbody : p.EndsBody l items) :
    (Quiet l ∧ ∀ i ∈ items, Quiet i.chars) ∧ Quiet s := by
  cases hbody with
  | body => exact h
  | colon => exact ⟨⟨h.1.1, quiet_cons_item h.1.2 h.2.1 quiet_nil⟩, h.2.2⟩
  | value => exact ⟨⟨h.1.1, quiet_cons_item h.1.2 h.2.1.1 h.2.1.2⟩, h.2.2⟩

theorem Pending.Quieted.endsHead {p : Pending} {s n q : List Char} (h : p.Quieted s)
    (hhead : p.EndsHead n q) : (Quiet n ∧ Quiet q) ∧ Quiet s := by
  cases hhead with
  | keyword => exact ⟨⟨h.1, quiet_nil⟩, h.2⟩
  | prelude => exact h

theorem Pending.Quieted.shift {p p' : Pending} {l r : List Char} {t : Terminal}
    {node? : Option Node} (h : p.Quieted (l ++ r)) (hread : t.reader.read (l ++ r) = some (l, r))
    (hs : p.shift l t = some (node?, p')) : p'.Quieted r ∧ ∀ n ∈ node?, n.Quieted := by
  have piece : ∀ {pieces : List (List Char)}, Quiet (joined pieces ++ (l ++ r)) →
      Quiet (joined (l :: pieces) ++ r) := by
    intro pieces hq
    simpa [joined] using hq
  cases Pending.shift_eq_some_iff.1 hs with
  | selector => exact ⟨⟨Quiet.left h, Quiet.right h⟩, nofun⟩
  | comment => exact absurd h (not_quiet_of_comment hread)
  | atKeyword => exact ⟨⟨(Quiet.left h).drop 1, Quiet.right h⟩, nofun⟩
  | openBody => exact ⟨⟨⟨h.1, nofun⟩, h.2.right⟩, nofun⟩
  | property => exact ⟨⟨h.1, h.2.left, h.2.right⟩, nofun⟩
  | bodyComment => exact absurd h.2 (not_quiet_of_comment hread)
  | colon => exact ⟨⟨h.1, h.2.1, h.2.2.right⟩, nofun⟩
  | value => exact ⟨⟨h.1, ⟨h.2.1, h.2.2.left⟩, h.2.2.right⟩, nofun⟩
  | semicolon hbody =>
    obtain ⟨hopen, hrest⟩ := h.endsBody hbody
    exact ⟨⟨hopen, hrest.right⟩, nofun⟩
  | closeBody hbody =>
    obtain ⟨⟨hselector, hitems⟩, hrest⟩ := h.endsBody hbody
    refine ⟨hrest.right, ?_⟩
    rintro _ ⟨⟩
    exact quieted_ruleOf hselector hitems
  | prelude => exact ⟨⟨⟨h.1, h.2.left⟩, h.2.right⟩, nofun⟩
  | statement hhead =>
    obtain ⟨⟨hname, hprelude⟩, hrest⟩ := h.endsHead hhead
    refine ⟨hrest.right, ?_⟩
    rintro _ ⟨⟩
    exact quieted_atRuleOf hname hprelude nofun
  | openBlock hhead =>
    obtain ⟨hopen, hrest⟩ := h.endsHead hhead
    exact ⟨⟨hopen, hrest.right⟩, nofun⟩
  | blockText => exact ⟨⟨h.1, piece h.2⟩, nofun⟩
  | openInner => exact ⟨⟨h.1, piece h.2⟩, nofun⟩
  | closeInner => exact ⟨⟨h.1, piece h.2⟩, nofun⟩
  | closeBlock =>
    refine ⟨h.2.right.right, ?_⟩
    rintro _ ⟨⟩
    refine quieted_atRuleOf h.1.1 h.1.2 ?_
    rintro _ ⟨⟩
    exact h.2.left

/-- The nodes of a quiet source are quiet. -/
theorem Reads.quieted {p : Pending} {s : List Char} {ts : List (Terminal × List Char)}
    {ns : List Node} (h : Reads p s ts ns) (hp : p.Quieted s) : ∀ n ∈ ns, n.Quieted := by
  induction h with
  | done => exact nofun
  | gap hread _ ih =>
    obtain ⟨rfl, -⟩ := Css.gap.splits hread
    exact ih hp.skip
  | @lexeme p p' s l r t node? ts ns _ hfirst hs _ ih =>
    have hread := (firstLexeme_eq_some hfirst).2
    obtain ⟨rfl, -⟩ := t.reader.splits hread
    obtain ⟨hp', hnode⟩ := hp.shift hread hs
    intro n hn
    rcases List.mem_append.1 hn with hn | hn
    · exact hnode n (by simpa using hn)
    · exact ih hp' n hn

/-- Quiet nodes are written quietly. -/
theorem quiet_sheetChars {ns : List Node} (h : ∀ n ∈ ns, n.Quieted) : Quiet (sheetChars ns) := by
  apply quiet_intercalate (Quiet.glue_line (by decide))
  intro l hl
  obtain ⟨n, hn, rfl⟩ := List.mem_map.1 hl
  exact (h n hn).chars

end Spriting.Css
