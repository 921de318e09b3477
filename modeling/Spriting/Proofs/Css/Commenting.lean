import Spriting.Proofs.Css.Rewording
import Spriting.Proofs.Css.Swallowing

/-!
# Comments in a block and in a value

Neither the text of a block nor a value steps over comments: to both a comment is text like any
other.  So it can stand there exactly if that text closes the strings, the brackets and the braces
that it opens.  Besides, a comment closes the comments that preludes in front of it left open.

* `block_comment_iff`: a comment at the start of a block;
* `value_comment_iff`: a comment at the end of a value;
* `parse_comment_iff`: what comes of the sheet;
* `BlockRest.comment`, `value_takes_comment`: comments that hold no such characters.
-/

namespace Spriting.Css

open Text Reader

variable {before after v : List Char} {ts : List (Terminal × List Char)} {ns : List Node}
  {items : List BodyItem}

/-- The comment with this text. -/
def commentChars (text : List Char) : List Char := '/' :: '*' :: (text ++ ['*', '/'])

theorem not_quiet_comment (a text b : List Char) : ¬ Quiet (a ++ (commentChars text ++ b)) := by
  intro h
  have hclose : Quiet (['/', '*'] ++ text ++ ['*', '/']) := by
    simpa [commentChars] using h.right.left
  simpa [Quiet, closeComment_close] using hclose.right

theorem trim_comment (v text : List Char)
    (h : ∀ c ∈ (v ++ commentChars text).head?, isBlank c = false) :
    trim (v ++ commentChars text) = v ++ commentChars text := by
  refine trim_eq_self h ?_
  have hlast : v ++ commentChars text = (v ++ (['/', '*'] ++ text ++ ['*'])) ++ ['/'] := by
    simp [commentChars]
  rw [hlast, List.getLast?_concat]
  rintro _ ⟨⟩
  decide

/-- No prelude among these lexemes leaves a comment open. -/
def ClosesComments (ts : List (Terminal × List Char)) : Prop :=
  ∀ l, (.prelude, l) ∈ ts → leavesOpen l = false

/-! ## At the start of a block -/

/-- Behind `before`, the block of an at-rule has just been opened; `ts` and `ns` are the lexemes
and the nodes before. -/
def OpensBlock (before after : List Char) (ts : List (Terminal × List Char)) (ns : List Node) :
    Prop :=
  ∃ n x, Passes .nothing (before ++ after) ts ns (.block n x 0 []) after

/-- A block that is read is ended by a brace. -/
theorem exists_block {n x : List Char} {all : List Node}
    (h : parseFrom (.block n x 0 []) after = .ok all) :
    ∃ inner rest ns', after = inner ++ '\x7d' :: rest ∧ BlockRest 0 (inner ++ ['\x7d']) ∧
      parseFrom .nothing rest = .ok ns' ∧ all = atRuleOf n x (some inner) :: ns' := by
  obtain ⟨ts, hreads⟩ := exists_reads h
  obtain ⟨w, rest, ts', ns', rfl, hw, -, hrest, rfl⟩ := hreads.block
  have hend := hw.eq_dropLast
  refine ⟨w.dropLast, rest, ns', ?_, hend ▸ hw, hrest.parseFrom_eq, by simp [joined]⟩
  conv => lhs; rw [hend]
  simp

/-- A comment can stand at the start of a block exactly if the block is balanced with it and no
prelude on the way leaves a comment open. -/
theorem block_comment_iff {n x : List Char} {all : List Node} (c : List Char)
    (h : Passes .nothing (before ++ after) ts ns (.block n x 0 []) after)
    (hall : parseFrom .nothing (before ++ after) = .ok all) :
    ∃ inner rest ns', after = inner ++ '\x7d' :: rest ∧ BlockRest 0 (inner ++ ['\x7d']) ∧
      all = ns ++ atRuleOf n x (some inner) :: ns' ∧
      (parseFrom .nothing (before ++ (commentChars c ++ after)) =
          .ok (ns ++ atRuleOf n x (some (commentChars c ++ inner)) :: ns') ↔
        ClosesComments ts ∧ BlockRest 0 (commentChars c ++ inner ++ ['\x7d'])) := by
  have hblock := hall
  rw [h.parseFrom_eq, except_map_append_eq_ok] at hblock
  obtain ⟨_, hblock, rfl⟩ := hblock
  obtain ⟨inner, rest, ns', rfl, hinner, hrest, rfl⟩ := exists_block hblock
  have front : ClosesComments ts →
      parseFrom .nothing (before ++ (commentChars c ++ (inner ++ '\x7d' :: rest))) =
        (parseFrom (.block n x 0 []) (commentChars c ++ (inner ++ '\x7d' :: rest))).map (ns ++ ·) :=
    fun hclosed => h.parseFrom_front rfl (fun l hl => .inl (hclosed l hl)) (.inl rfl)
  refine ⟨inner, rest, ns', rfl, hinner, rfl, ?_, ?_⟩
  · intro hparse
    have hclosed : ClosesComments ts :=
      h.closed_of_preludes (fun _ _ => nofun) (not_quiet_comment [] c _) hall hparse
        (by simp [atRuleOf, Node.prelude?])
    refine ⟨hclosed, ?_⟩
    rw [front hclosed, except_map_append_eq_ok] at hparse
    obtain ⟨_, hparse, heq⟩ := hparse
    obtain ⟨inner', rest', ns'', -, hbalanced, -, rfl⟩ := exists_block hparse
    have hsame := (List.cons_eq_cons.1 (List.append_cancel_left heq)).1
    have hinner : commentChars c ++ inner = inner' := by
      simpa only [atRuleOf, Node.atRule.injEq, AtRule.mk.injEq, Option.map_some, Option.some.injEq,
        String.ofList_inj, joined, List.reverse_nil, List.flatten_nil, List.nil_append, true_and,
        and_true] using hsame
    rwa [← hinner] at hbalanced
  · rintro ⟨hclosed, hbalanced⟩
    have htext : commentChars c ++ (inner ++ '\x7d' :: rest) =
        (commentChars c ++ inner ++ ['\x7d']) ++ rest := by simp
    rw [front hclosed, htext, hbalanced.parseFrom_eq, hrest]
    simp [Except.map, joined]

/-! ## At the end of a value -/

/-- Behind `before` stands the value `v` of a declaration, ended by a semicolon; `ts` and `ns` are
the lexemes and the nodes before, and `items` the items of the open body, last first. -/
def EndsValue (before v after : List Char) (ts : List (Terminal × List Char)) (ns : List Node)
    (items : List BodyItem) : Prop :=
  ∃ s n, Passes .nothing (before ++ (v ++ ';' :: after)) ts ns (.colon s items n)
      (v ++ ';' :: after) ∧
    Terminal.value.reader.read (v ++ ';' :: after) = some (v, ';' :: after)

theorem value_of_start {s x t : List Char} (h : valueStart.read s = some (x, t)) :
    Terminal.value.reader.read s = some (x ++ (valuePiece.many t).1, (valuePiece.many t).2) :=
  congrArg (Option.map _) h

/-- Behind a value go on pieces of the value. -/
theorem value_append {r : List Char} (h : Terminal.value.reader.read (v ++ r) = some (v, r))
    (t : List Char) :
    Terminal.value.reader.read (v ++ t) =
      some (v ++ (valuePiece.many t).1, (valuePiece.many t).2) := by
  obtain ⟨x, m, rfl, hx, hm, -⟩ :=
    (followedBy_eq_some_iff (a := valueStart) (b := valuePiece)).1 h
  rw [List.append_assoc, value_of_start (valueStart_local _ _ _ hx _),
    hm.many_append valuePiece_local, List.append_assoc]

/-- What the pieces of a value are in front of other text they are alone. -/
theorem many_alone {w r : List Char} (h : valuePiece.many (w ++ r) = (w, r)) :
    valuePiece.many w = (w, []) := by
  have chain := chain_many valuePiece (w ++ r)
  rw [h] at chain
  simpa using (chain.of_local valuePiece_local []).many_eq rfl

theorem many_stop_iff {w r : List Char} {d : Char} (hd : IsStop d) :
    valuePiece.many (w ++ d :: r) = (w, d :: r) ↔ valuePiece.many w = (w, []) := by
  refine ⟨many_alone, fun h => ?_⟩
  have chain := chain_many valuePiece w
  rw [h] at chain
  exact (chain.of_local valuePiece_local _).many_eq (valuePiece_stops r hd)

/-- A text that starts with a slash is a value exactly if it is made of pieces. -/
theorem takes_slash_iff {t : List Char} :
    Terminal.value.Takes ('/' :: t) ↔ valuePiece.many ('/' :: t) = ('/' :: t, []) := by
  have start : ∀ r, valueStart.read ('/' :: r) = some (['/'], r) := fun _ => rfl
  have piece : ∀ r, valuePiece.read ('/' :: r) = some (['/'], r) := fun _ => rfl
  constructor
  · rintro ⟨s, r, hread⟩
    have hread := read_append hread
    rw [List.cons_append, value_of_start (start _)] at hread
    refine many_alone (r := r) ?_
    rw [List.cons_append, many_of_some (piece _)]
    exact Option.some.inj hread
  · intro h
    refine ⟨'/' :: t, [], ?_⟩
    rw [value_of_start (start t), ← h, many_of_some (piece t)]

/-- What is behind a text that ends with ink, and leaves that text when trimmed, is blank. -/
theorem eq_of_trim_eq {s w y b r : List Char} {c : Char} (hc : isBlank c = false)
    (hsplit : w ++ c :: r = s ++ y ++ b) (hhead : ∀ d ∈ (s ++ y).head?, isBlank d = false)
    (htrim : trim (s ++ y) = w) : s ++ y = w ∧ b = c :: r := by
  obtain ⟨k, hk, hsy⟩ := exists_trimEnd (s ++ y)
  rw [← trim_of_head hhead, htrim] at hsy
  rw [hsy, List.append_assoc, List.append_cancel_left_eq] at hsplit
  cases k with
  | nil => exact ⟨by simpa using hsy, hsplit.symm⟩
  | cons d k =>
    cases hsplit
    have := hk c List.mem_cons_self
    rw [hc] at this
    cases this

/-- Where a declaration is read with the comment at the end of its value, the comment is one. -/
theorem takes_of_parseFrom {s n c : List Char} {more : List BodyItem}
    (hv : Terminal.value.reader.read (v ++ ';' :: after) = some (v, ';' :: after))
    (h : parseFrom (.colon s items n) (v ++ (commentChars c ++ ';' :: after)) =
      .ok (ruleOf s (more ++ declarationOf n (v ++ commentChars c) :: items) :: ns)) :
    Terminal.value.Takes (commentChars c) := by
  -- the value goes on with `y`, and that is the comment
  have hread := value_append hv (commentChars c ++ ';' :: after)
  have hsplit := valuePiece.many_append (commentChars c ++ ';' :: after)
  cases hmany : valuePiece.many (commentChars c ++ ';' :: after) with
  | mk y b =>
    rw [hmany] at hread hsplit
    have hwhole : v ++ (commentChars c ++ ';' :: after) = (v ++ y) ++ b := by
      rw [hsplit, List.append_assoc]
    rw [hwhole, parseFrom_shift (t := .value) (q := .value s items n (v ++ y))
      (hwhole ▸ hread) rfl] at h
    obtain ⟨ts, hreads⟩ := exists_reads h
    obtain ⟨more', rest, hnodes, -⟩ := hreads.rebased (.last (w := v) rfl rfl)
    have hbody : items.reverse ++ declarationOf n (v ++ commentChars c) :: more.reverse =
        items.reverse ++ declarationOf n (v ++ y) :: more'.reverse := by
      simpa [ruleOf] using (List.cons_eq_cons.1 hnodes).1
    have hitem := (List.cons_eq_cons.1 (List.append_cancel_left hbody)).1
    have hvalue : trim (v ++ commentChars c) = trim (v ++ y) := by
      simp only [declarationOf, BodyItem.declaration.injEq, Declaration.mk.injEq,
        String.ofList_inj] at hitem
      exact hitem.2.1
    rw [trim_comment v c (valueStart_inked.head_followedBy hv _)] at hvalue
    obtain ⟨hy, rfl⟩ := eq_of_trim_eq (by decide : isBlank ';' = false)
      (by rw [List.append_assoc, hwhole]) (valueStart_inked.head_followedBy hv y) hvalue.symm
    obtain rfl := List.append_cancel_left hy
    exact takes_slash_iff.2 ((many_stop_iff (.inl rfl)).1 hmany)

/-- A comment can stand at the end of a value exactly if a value takes it whole and no prelude on
the way leaves a comment open. -/
theorem value_comment_iff {s n : List Char} {all : List Node} (c : List Char)
    (h : Passes .nothing (before ++ (v ++ ';' :: after)) ts ns (.colon s items n)
      (v ++ ';' :: after))
    (hv : Terminal.value.reader.read (v ++ ';' :: after) = some (v, ';' :: after))
    (hall : parseFrom .nothing (before ++ (v ++ ';' :: after)) = .ok all) :
    ∃ more ns', all = ns ++ ruleOf s (more ++ declarationOf n v :: items) :: ns' ∧
      (parseFrom .nothing (before ++ (v ++ (commentChars c ++ ';' :: after))) =
          .ok (ns ++ ruleOf s (more ++ declarationOf n (v ++ commentChars c) :: items) :: ns') ↔
        ClosesComments ts ∧ Terminal.value.Takes (commentChars c)) := by
  have hrule := hall
  rw [h.parseFrom_eq, except_map_append_eq_ok] at hrule
  obtain ⟨_, hrule, rfl⟩ := hrule
  rw [parseFrom_shift (t := .value) (q := .value s items n v) hv rfl] at hrule
  obtain ⟨ts', hreads⟩ := exists_reads hrule
  obtain ⟨more, ns', rfl, hagain⟩ := hreads.rebased (.last (w := v ++ commentChars c) rfl rfl)
  have front : ClosesComments ts →
      parseFrom .nothing (before ++ (v ++ (commentChars c ++ ';' :: after))) =
        (parseFrom (.colon s items n) (v ++ (commentChars c ++ ';' :: after))).map (ns ++ ·) :=
    fun hclosed => h.parseFrom_front rfl (fun l hl => .inl (hclosed l hl)) trivial
  refine ⟨more, ns', rfl, ?_, ?_⟩
  · intro hparse
    have hclosed : ClosesComments ts :=
      h.closed_of_preludes (fun _ _ => nofun) (not_quiet_comment v c _) hall hparse
        (by simp [ruleOf, Node.prelude?])
    rw [front hclosed, except_map_append_eq_ok] at hparse
    obtain ⟨_, hparse, heq⟩ := hparse
    obtain rfl := List.append_cancel_left heq
    exact ⟨hclosed, takes_of_parseFrom hv hparse⟩
  · rintro ⟨hclosed, htakes⟩
    have hmany : valuePiece.many (commentChars c ++ ';' :: after) = (commentChars c, ';' :: after) :=
      (many_stop_iff (.inl rfl)).2 (takes_slash_iff.1 htakes)
    have hread := value_append hv (commentChars c ++ ';' :: after)
    rw [hmany] at hread
    rw [front hclosed]
    rw [← List.append_assoc] at hread ⊢
    rw [parseFrom_shift (t := .value) (q := .value s items n (v ++ commentChars c)) hread rfl,
      hagain]
    rfl

/-! ## Plain comments -/

/-- The delimiters of a comment mean nothing to the text of a block or to a value. -/
theorem commentChars_plain {stops text : List Char} (hslash : '/' ∉ stops) (hstar : '*' ∉ stops)
    (h : ∀ c ∈ text, c ∉ stops) : ∀ c ∈ commentChars text, c ∉ stops := by
  intro c hc
  simp only [commentChars, List.mem_cons, List.mem_append, List.not_mem_nil, or_false] at hc
  rcases hc with rfl | rfl | hc | rfl | rfl
  all_goals first | assumption | exact h c hc

/-- In front of a balanced rest, the text of a block goes on with it. -/
theorem BlockRest.text_append {x m w : List Char} {depth : Nat}
    (hx : blockStart.read x = some (x, [])) (hm : Chain blockPiece m []) (h : BlockRest depth w) :
    BlockRest depth (x ++ m ++ w) := by
  have start : ∀ r, blockStart.read (x ++ r) = some (x, r) := blockStart_local _ _ _ hx
  have head : ∀ y, ∀ c ∈ (x ++ y).head?, ¬ IsGap c := by
    intro y c hc hgap
    have ink := blockStart_inked.head_append hx y c hc
    rw [hgap.blank] at ink
    cases ink
  -- up to a brace all is text
  have brace : ∀ {m w : List Char} {depth : Nat} {c : Char}, Chain blockPiece m [] → IsBrace c →
      BlockRest depth (c :: w) → BlockRest depth (x ++ m ++ c :: w) := by
    intro m w depth c hm hc hw
    refine .text (head m) (fun r => ?_) hw
    refine (followedBy_eq_some_iff (a := blockStart)).2 ⟨x, m, rfl, ?_, hm.of_local blockPiece_local _,
      blockPiece_stops _ hc⟩
    rw [List.append_assoc]
    exact start _
  induction h generalizing m with
  | close => exact brace hm (.inr rfl) .close
  | inner h _ => exact brace hm (.inr rfl) h.inner
  | enter h _ => exact brace hm (.inl rfl) h.enter
  | @gap depth g w hread _ ih =>
    have hg : Chain blockPiece g [] := .of_chars (fun c hc s =>
      blockPiece_char s ((gap_chars (hread []) c hc).notMem (by decide))) _
    simpa using ih ((hm.of_local blockPiece_local _).append hg)
  | @text depth l w _ hread _ ih =>
    obtain ⟨y, k, rfl, hy, hk, -⟩ := (followedBy_eq_some_iff (a := blockStart)).1 (hread [])
    have hl : Chain blockPiece (y ++ k) [] :=
      .cons (blockPiece_of_start (blockStart_local _ _ _ hy _)) (hk.of_local blockPiece_local _)
    simpa using ih ((hm.of_local blockPiece_local _).append hl)

/-- A comment without quotes and braces can stand at the start of any block. -/
theorem BlockRest.comment {inner c : List Char} (hc : ∀ d ∈ c, d ∉ blockStops)
    (h : BlockRest 0 (inner ++ ['\x7d'])) : BlockRest 0 (commentChars c ++ inner ++ ['\x7d']) := by
  have plain := commentChars_plain (by decide) (by decide) hc
  have tail : Chain blockPiece ('*' :: (c ++ ['*', '/'])) [] :=
    .of_chars (fun d hd s => blockPiece_char s (plain d (List.mem_cons_of_mem _ hd))) _
  simpa [commentChars] using h.text_append (x := ['/']) rfl tail

/-- A comment without quotes, opening brackets, semicolons and braces is a value. -/
theorem value_takes_comment {c : List Char} (hc : ∀ d ∈ c, d ∉ valueStops) :
    Terminal.value.Takes (commentChars c) := by
  have plain := commentChars_plain (by decide) (by decide) hc
  exact value_takes (by decide) (by decide)
    (chain_plain _ fun d hd => plain d (List.mem_cons_of_mem _ hd))

/-! ## Comments in a source -/

variable {source : String} {sheet : Stylesheet}

theorem setBlock_atRuleOf (n x inner inner' : List Char) :
    Node.setBlock (String.ofList inner') (atRuleOf n x (some inner)) =
      atRuleOf n x (some inner') := rfl

theorem setValue_ruleOf (s n v : List Char) {w : List Char} (hw : trim w = w)
    (items more : List BodyItem) :
    Node.setValue items.length (String.ofList w) (ruleOf s (more ++ declarationOf n v :: items)) =
      ruleOf s (more ++ declarationOf n w :: items) := by
  have body : (more ++ declarationOf n v :: items).reverse =
      items.reverse ++ declarationOf n v :: more.reverse := by simp
  have body' : (more ++ declarationOf n w :: items).reverse =
      items.reverse ++ declarationOf n w :: more.reverse := by simp
  have item : (declarationOf n v).setValue (String.ofList w) = declarationOf n w := by
    simp [declarationOf, BodyItem.setValue, hw]
  rw [ruleOf, ruleOf, body, body', Node.setValue, ← List.length_reverse, modify_append, item]

/-- The at-rule of a sheet that a keyword, a prelude and a block are read as. -/
theorem exists_atRule {n x inner : List Char} {ns' : List Node}
    (h : ∀ m ∈ ns ++ atRuleOf n x (some inner) :: ns', m.Unnumbered) :
    ∃ a, (Stylesheet.ofNodes (ns ++ atRuleOf n x (some inner) :: ns')).nodes[ns.length]? =
        some (.atRule a) ∧ a.block = some (String.ofList inner) := by
  obtain ⟨m, hm, hbare⟩ := ofNodes_getElem? h
  cases m with
  | rule r => cases hbare
  | comment d => cases hbare
  | atRule a =>
    injection hbare with hbare
    exact ⟨a, hm, congrArg AtRule.block hbare⟩

/-- The declaration of a sheet that a name and a value are read as. -/
theorem exists_declaration {s n : List Char} {more : List BodyItem} {ns' : List Node}
    (h : ∀ m ∈ ns ++ ruleOf s (more ++ declarationOf n v :: items) :: ns', m.Unnumbered) :
    ∃ r d, (Stylesheet.ofNodes
          (ns ++ ruleOf s (more ++ declarationOf n v :: items) :: ns')).nodes[ns.length]? =
        some (.rule r) ∧
      r.body[items.length]? = some (.declaration d) ∧ d.value = String.ofList (trim v) := by
  obtain ⟨m, hm, hbare⟩ := ofNodes_getElem? h
  cases m with
  | comment d => cases hbare
  | atRule a => cases hbare
  | rule r =>
    have hitem : (r.body.map (BodyItem.withId 0))[items.length]? = some (declarationOf n v) := by
      injection hbare with hbare
      have hbody := congrArg Rule.body hbare
      simp only [Rule.bare] at hbody
      simp [hbody]
    obtain ⟨item, hitem, hbare⟩ := Option.map_eq_some_iff.1 (List.getElem?_map ▸ hitem)
    cases item with
    | comment k => cases hbare
    | declaration d =>
      injection hbare with hbare
      exact ⟨r, d, hm, hitem, congrArg Declaration.value hbare⟩

/-- **Where a comment can stand.** The block of an at-rule and the value of a declaration take a
comment as text.  A source with a comment at the start of a block, or at the end of a value in front
of the semicolon, is read as the same sheet with the comment in that block or value exactly if the
block is balanced with the comment in it, or the comment is a value; and if no prelude in front of
it leaves a comment open.  A comment without the characters that mean something there, the quotes,
the braces and in a value the opening brackets and the semicolons, always is one that can stand
there. -/
theorem parse_comment_iff (c : List Char) (h : parse source = .ok sheet) :
    (∀ before after ts ns, source.toList = before ++ after → OpensBlock before after ts ns →
      ∃ a inner, sheet.nodes[ns.length]? = some (.atRule a) ∧
        a.block = some (String.ofList inner) ∧ inner ++ ['\x7d'] <+: after ∧
        (parse (String.ofList (before ++ (commentChars c ++ after))) =
            .ok (sheet.modifyNode ns.length
              (Node.setBlock (String.ofList (commentChars c ++ inner)))) ↔
          ClosesComments ts ∧ BlockRest 0 (commentChars c ++ inner ++ ['\x7d'])) ∧
        ((∀ d ∈ c, d ∉ blockStops) → BlockRest 0 (commentChars c ++ inner ++ ['\x7d']))) ∧
    (∀ before v after ts ns items, source.toList = before ++ (v ++ ';' :: after) →
      EndsValue before v after ts ns items →
      ∃ r d, sheet.nodes[ns.length]? = some (.rule r) ∧
        r.body[items.length]? = some (.declaration d) ∧ d.value = String.ofList (trim v) ∧
        (parse (String.ofList (before ++ (v ++ (commentChars c ++ ';' :: after)))) =
            .ok (sheet.modifyNode ns.length
              (Node.setValue items.length (String.ofList (v ++ commentChars c)))) ↔
          ClosesComments ts ∧ Terminal.value.Takes (commentChars c))) ∧
    ((∀ d ∈ c, d ∉ valueStops) → Terminal.value.Takes (commentChars c)) := by
  obtain ⟨nodes, hnodes, rfl⟩ := parse_eq_ok_iff.1 h
  have hall := parseNodes_eq_ok_iff_parseFrom.1 hnodes
  have bare := unnumbered_of_parseNodes hnodes
  refine ⟨?_, ?_, value_takes_comment⟩
  · rintro before after ts ns hsource ⟨n, x, hpasses⟩
    rw [hsource] at hall
    obtain ⟨inner, rest, ns', rfl, hinner, rfl, hiff⟩ := block_comment_iff c hpasses hall
    obtain ⟨a, ha, hblock⟩ := exists_atRule bare
    refine ⟨a, inner, ha, hblock, ⟨rest, by simp⟩, ?_, fun hplain => .comment hplain hinner⟩
    rw [parse_modify_iff (setBlock_keepsIds _) _ hnodes, modify_append, setBlock_atRuleOf]
    exact hiff
  · rintro before v after ts ns items hsource ⟨s, n, hpasses, hread⟩
    rw [hsource] at hall
    obtain ⟨more, ns', rfl, hiff⟩ := value_comment_iff c hpasses hread hall
    obtain ⟨r, d, hr, hd, hvalue⟩ := exists_declaration bare
    have htrim := trim_comment v c (valueStart_inked.head_followedBy hread _)
    refine ⟨r, d, hr, hd, hvalue, ?_⟩
    rw [parse_modify_iff (setValue_keepsIds ..) _ hnodes, modify_append, setValue_ruleOf s n v htrim]
    exact hiff

theorem Passes.shift {p p' q : Pending} {s l m r : List Char} {t : Terminal}
    (hgap : Css.gap.read s = none) (hfirst : firstLexeme p.expected s = some (t, l, m))
    (hshift : p.shift l t = some (none, p')) (h : Passes p' m ts ns q r) :
    Passes p s ((t, l) :: ts) ns q r :=
  .lexeme hgap hfirst hshift h

theorem opensBlock_sample : OpensBlock "@m(w)\x7b".toList "b\x7d".toList
    [(.atKeyword, "@m".toList), (.prelude, "(w)".toList), (.openBrace, ['\x7b'])] [] := by
  have brace : Passes (.prelude ['m'] "(w)".toList) "\x7bb\x7d".toList
      [(.openBrace, ['\x7b'])] [] (.block ['m'] "(w)".toList 0 []) "b\x7d".toList :=
    .shift (by decide +kernel) (by decide +kernel) rfl .start
  have prelude : Passes (.keyword ['m']) "(w)\x7bb\x7d".toList
      [(.prelude, "(w)".toList), (.openBrace, ['\x7b'])] []
      (.block ['m'] "(w)".toList 0 []) "b\x7d".toList :=
    .shift (by decide +kernel) (by decide +kernel) rfl brace
  have keyword : Passes .nothing "@m(w)\x7bb\x7d".toList
      [(.atKeyword, "@m".toList), (.prelude, "(w)".toList), (.openBrace, ['\x7b'])] []
      (.block ['m'] "(w)".toList 0 []) "b\x7d".toList :=
    .shift (by decide +kernel) (by decide +kernel) rfl prelude
  exact ⟨_, _, keyword⟩

theorem endsValue_sample : EndsValue "a\x7bb:".toList ['c'] ['\x7d'] [(.selector, ['a']),
    (.openBrace, ['\x7b']), (.property, ['b']), (.colon, [':'])] [] [] := by
  have colon : Passes (.property ['a'] [] ['b']) ":c;\x7d".toList [(.colon, [':'])] []
      (.colon ['a'] [] ['b']) "c;\x7d".toList :=
    .shift (by decide +kernel) (by decide +kernel) rfl .start
  have property : Passes (.body ['a'] []) "b:c;\x7d".toList
      [(.property, ['b']), (.colon, [':'])] [] (.colon ['a'] [] ['b']) "c;\x7d".toList :=
    .shift (by decide +kernel) (by decide +kernel) rfl colon
  have brace : Passes (.selector ['a']) "\x7bb:c;\x7d".toList
      [(.openBrace, ['\x7b']), (.property, ['b']), (.colon, [':'])] []
      (.colon ['a'] [] ['b']) "c;\x7d".toList :=
    .shift (by decide +kernel) (by decide +kernel) rfl property
  have selector : Passes .nothing "a\x7bb:c;\x7d".toList
      [(.selector, ['a']), (.openBrace, ['\x7b']), (.property, ['b']), (.colon, [':'])] []
      (.colon ['a'] [] ['b']) "c;\x7d".toList :=
    .shift (by decide +kernel) (by decide +kernel) rfl brace
  exact ⟨_, _, selector, by decide +kernel⟩

/-- A comment of plain text at the start of a block and at the end of a value. -/
theorem parse_comment_iff_plain :
    let comment := commentChars " x ".toList
    let media : Stylesheet := ⟨[.atRule ⟨"m", "(w)", some "b", 1⟩], 1⟩
    let sheet : Stylesheet := ⟨[.rule ⟨["a"], [.declaration ⟨"b", "c", 2⟩], 1⟩], 2⟩
    (parse "@m(w)\x7bb\x7d" = .ok media ∧
      OpensBlock "@m(w)\x7b".toList "b\x7d".toList
        [(.atKeyword, "@m".toList), (.prelude, "(w)".toList), (.openBrace, ['\x7b'])] [] ∧
      parse (String.ofList ("@m(w)\x7b".toList ++ (comment ++ "b\x7d".toList))) =
        .ok (media.modifyNode 0 (Node.setBlock "/* x */b"))) ∧
    parse "a\x7bb:c;\x7d" = .ok sheet ∧
      EndsValue "a\x7bb:".toList ['c'] ['\x7d'] [(.selector, ['a']), (.openBrace, ['\x7b']),
        (.property, ['b']), (.colon, [':'])] [] [] ∧
      parse (String.ofList ("a\x7bb:".toList ++ (['c'] ++ (comment ++ ";\x7d".toList)))) =
        .ok (sheet.modifyNode 0 (Node.setValue 0 "c/* x */")) := by
  intro comment media sheet
  have hmedia : parse "@m(w)\x7bb\x7d" = .ok media := by decide +kernel
  have hsheet : parse "a\x7bb:c;\x7d" = .ok sheet := by decide +kernel
  have plain : " x ".toList.all (!valueStops.contains ·) = true ∧
      " x ".toList.all (!blockStops.contains ·) = true := by decide
  refine ⟨⟨hmedia, opensBlock_sample, ?_⟩, hsheet, endsValue_sample, ?_⟩
  · obtain ⟨a, inner, ha, hblock, -, hiff, hplain⟩ :=
      (parse_comment_iff " x ".toList hmedia).1 _ _ _ _ rfl opensBlock_sample
    cases ha
    obtain rfl : inner = ['b'] :=
      ((congrArg String.toList (Option.some.inj hblock)).trans String.toList_ofList).symm
    have closed : ClosesComments
        [(.atKeyword, "@m".toList), (.prelude, "(w)".toList), (.openBrace, ['\x7b'])] := by
      intro l hl
      obtain rfl : l = "(w)".toList := by simpa using hl
      decide +kernel
    exact hiff.2 ⟨closed, hplain fun d hd => by simpa using List.all_eq_true.1 plain.2 d hd⟩
  · obtain ⟨-, hvalue, hplain⟩ := parse_comment_iff " x ".toList hsheet
    obtain ⟨-, -, -, -, -, hiff⟩ := hvalue _ _ _ _ _ _ rfl endsValue_sample
    have closed : ClosesComments [(.selector, ['a']), (.openBrace, ['\x7b']), (.property, ['b']),
        (.colon, [':'])] := by
      intro l hl
      simp at hl
    exact hiff.2 ⟨closed, hplain fun d hd => by simpa using List.all_eq_true.1 plain.1 d hd⟩

/-- A quote in a comment opens a string in a value, and a brace ends a block. -/
theorem parse_comment_breaks :
    Quiet "don't".toList ∧ Quiet "\x7d".toList ∧
    parse "a\x7bb:c;\x7d" = .ok ⟨[.rule ⟨["a"], [.declaration ⟨"b", "c", 2⟩], 1⟩], 2⟩ ∧
    parse "a\x7bb:c/*don't*/;\x7d" = .error ⟨.character '\'', some ⟨1, 11⟩⟩ ∧
    parse "@m\x7b\x7d" = .ok ⟨[.atRule ⟨"m", "", some "", 1⟩], 1⟩ ∧
    parse "@m\x7b/*\x7d*/\x7d" ≠ .ok ⟨[.atRule ⟨"m", "", some "/*\x7d*/", 1⟩], 1⟩ := by
  have quiet : closeComment "don't".toList = none ∧ closeComment "\x7d".toList = none := by
    decide +kernel
  refine ⟨quiet.1, quiet.2, ?_⟩
  decide +kernel

end Spriting.Css
