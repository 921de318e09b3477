import Spriting.Proofs.Background.Grouping
import Spriting.Proofs.Background.Quoting

/-!
# Which names change how an image repeats

The repeat mode is looked for in all of a value, the names of the images included.  So the name of
an image may be all there is to a repeat mode: a rule that shows `repeat-x.png` repeats.

* `axisIn_append`, `IsLead.axisIn`: where a text may be cut without cutting an axis;
* `Renamed`, `RenamedRule`: values and rules that are equal but for the names in their references;
* `repeatMode_renamed`: the names that make no difference, and the rules in which none does.
-/

namespace Spriting.Background

open Css Text

variable {s s' w v v' pre lead name name' rest : List Char} {c : Char}
  {P : List Char → List Char → Prop} {r r' : Rule} {items items' : List BodyItem}

/-- The first axis that a text names. -/
def axisIn (s : List Char) : Option RepeatMode := firstWithin axisAt s

/-- Whether an axis may be written with `c`. -/
def isAxisChar (c : Char) : Bool := "repeat-xy".toList.contains c

/-! ## Where an axis cannot be cut -/

theorem axisIn_cons (c : Char) (s : List Char) :
    axisIn (c :: s) = (axisAt (c :: s)).or (axisIn s) := rfl

/-- If an axis stands in front of a text then it stands in front of what goes on with it. -/
theorem axisAt_isSome_of_prefix (hpre : pre <+: s) (h : (axisAt pre).isSome = true) :
    (axisAt s).isSome = true := by
  have found : ∀ {s : List Char}, (axisAt s).isSome = true ↔
      "repeat-x".toList <+: s ∨ "repeat-y".toList <+: s := by
    intro s
    rw [axisAt, ← List.isPrefixOf_iff_prefix, ← List.isPrefixOf_iff_prefix]
    split
    · exact iff_of_true rfl (.inl ‹_›)
    · rw [or_iff_right ‹_›]
      split
      · exact iff_of_true rfl ‹_›
      · exact iff_of_false (by simp) ‹_›
  rw [found] at h ⊢
  exact h.imp (·.trans hpre) (·.trans hpre)

/-- What is written with characters of axes tells which axis stands in front. -/
theorem axisAt_congr (h : ∀ w, (∀ c ∈ w, isAxisChar c = true) → (w <+: s ↔ w <+: s')) :
    axisAt s = axisAt s' := by
  have front : ∀ w : List Char, w.all isAxisChar = true → w.isPrefixOf s = w.isPrefixOf s' := by
    intro w hw
    rw [Bool.eq_iff_iff, List.isPrefixOf_iff_prefix, List.isPrefixOf_iff_prefix]
    exact h w (List.all_eq_true.1 hw)
  rw [axisAt, axisAt, front _ (by decide), front _ (by decide)]

/-- What stands behind another character is not reached. -/
theorem prefix_append_cons_iff (hc : isAxisChar c = false) (hw : ∀ d ∈ w, isAxisChar d = true) :
    w <+: s ++ c :: rest ↔ w <+: s := by
  constructor
  · rintro ⟨more, h⟩
    have hout : c ∉ w := fun hmem => by simpa [hc] using hw c hmem
    obtain ⟨es, rfl, -⟩ := front_of_notMem hout h
    exact List.prefix_append w es
  · exact fun h => h.trans (List.prefix_append s _)

theorem axisAt_append_cons (hc : isAxisChar c = false) (s rest : List Char) :
    axisAt (s ++ c :: rest) = axisAt s :=
  axisAt_congr fun _ hw => prefix_append_cons_iff hc hw

theorem axisIn_append_cons (hc : isAxisChar c = false) (s rest : List Char) :
    axisIn (s ++ c :: rest) = (axisIn s).or (axisIn rest) := by
  induction s with
  | nil =>
    have nothing : axisAt ([] ++ c :: rest) = none := axisAt_append_cons hc [] rest
    rw [List.nil_append] at nothing ⊢
    rw [axisIn_cons, nothing]
    rfl
  | cons d s ih =>
    rw [List.cons_append, axisIn_cons, axisIn_cons, ← List.cons_append,
      axisAt_append_cons hc, ih, Option.or_assoc]

/-- No axis is cut behind another character, and none in front of one. -/
theorem axisIn_append (h : (∀ c ∈ s.getLast?, isAxisChar c = false) ∨
    ∀ c ∈ rest.head?, isAxisChar c = false) :
    axisIn (s ++ rest) = (axisIn s).or (axisIn rest) := by
  rcases h with h | h
  · rcases List.eq_nil_or_concat s with rfl | ⟨front, c, rfl⟩
    · rfl
    · have hc : isAxisChar c = false := h c (by simp)
      rw [List.concat_eq_append, List.append_assoc, List.singleton_append,
        axisIn_append_cons hc, axisIn_append_cons hc]
      exact congrArg (Option.or · _) (Option.or_none).symm
  · cases rest with
    | nil => rw [List.append_nil]; exact Option.or_none.symm
    | cons c rest =>
      have hc := h c rfl
      have behind : axisIn ([] ++ c :: rest) = axisIn rest := axisIn_append_cons hc [] rest
      rw [axisIn_append_cons hc, ← behind, List.nil_append]

theorem axisIn_skip (h : ∀ c ∈ s, isAxisChar c = false) (rest : List Char) :
    axisIn (s ++ rest) = axisIn rest := by
  induction s with
  | nil => rfl
  | cons c s ih =>
    obtain ⟨hc, hs⟩ := List.forall_mem_cons.1 h
    rw [← ih hs]
    exact axisIn_append_cons hc [] (s ++ rest)

/-! ## References and the names in them -/

/-- What stands in front of the name in a reference: an opening, blanks and a quote or none. -/
def IsLead (lead : List Char) : Prop :=
  ∃ (opening gap : List Char) (mark : Option Char), lead = opening ++ (gap ++ mark.toList) ∧
    Folds urlOpening opening ∧ AllBlank gap ∧ ∀ q ∈ mark, isQuoteMark q = true

/-- Whether a name ends in front of `c`. -/
def endsName (c : Char) : Bool := !isPathChar c || isBlank c || c == '?' || c == '#'

/-- `name` is the name in a reference that goes on with `rest`: that of an image, or any text
without quotes and round brackets that ends there. -/
def IsNameBefore (name rest : List Char) : Prop :=
  (∀ c ∈ name, isPathChar c = true) ∧ ')' ∈ rest ∧
    (IsImagePath name ∨ ∀ c ∈ rest.head?, endsName c = true)

theorem isAxisChar_of_endsName (h : endsName c = true) : isAxisChar c = false := by
  have all : "repeat-xy".toList.all (fun c => !endsName c) = true := by decide
  rw [Bool.eq_false_iff]
  intro hc
  simpa [h] using List.all_eq_true.1 all c (List.contains_iff_mem.1 hc)

theorem isAxisChar_of_isBlank (h : isBlank c = true) : isAxisChar c = false :=
  isAxisChar_of_endsName (by simp [endsName, h])

theorem isAxisChar_of_isQuoteMark (h : isQuoteMark c = true) : isAxisChar c = false :=
  isAxisChar_of_endsName (by simp [endsName, isPathChar_of_isQuoteMark h])

theorem isAxisChar_of_foldsTo {m : Char} (h : foldsTo m c = true)
    (hm : (forms m).all (!isAxisChar ·) = true) : isAxisChar c = false := by
  simpa using List.all_eq_true.1 hm c (mem_forms h)

/-- The name of an image does not end like an axis that is not over. -/
theorem IsEnding.getLast_axis (h : IsEnding s) (hc : c ∈ s.getLast?) : isAxisChar c = false := by
  obtain ⟨extension, hmem, hfolds⟩ := h
  have all : ∀ x ∈ imageExtensions,
      x.reverse.head?.all (fun m => (forms m).all (!isAxisChar ·)) = true := by decide
  have hlast := all extension hmem
  have hback : Folds extension.reverse s.reverse := List.forall₂_reverse_iff.2 hfolds
  rw [List.getLast?_eq_head?_reverse] at hc
  generalize extension.reverse = model at hlast hback
  generalize s.reverse = front at hc hback
  cases hback with
  | nil => cases hc
  | cons hfold _ =>
    cases hc
    exact isAxisChar_of_foldsTo hfold hlast

theorem IsImagePath.getLast_axis (h : IsImagePath name) (hc : c ∈ name.getLast?) :
    isAxisChar c = false := by
  obtain ⟨ending, hending, hlast⟩ := h.getLast?_eq
  exact hending.getLast_axis (hlast ▸ hc)

/-- No axis reaches beyond a name. -/
theorem IsNameBefore.axisIn (h : IsNameBefore name rest) :
    Background.axisIn (name ++ rest) = (Background.axisIn name).or (Background.axisIn rest) := by
  refine axisIn_append (h.2.2.imp (fun himage c hc => himage.getLast_axis hc) fun hend c hc => ?_)
  exact isAxisChar_of_endsName (hend c hc)

/-- An opening starts with a character of no axis, and so do its last two. -/
theorem IsLead.split (h : IsLead lead) :
    ∃ a b d behind, lead = a :: b :: d :: behind ∧ isAxisChar a = false ∧ isAxisChar d = false ∧
      ∀ c ∈ behind, isAxisChar c = false := by
  obtain ⟨opening, gap, mark, rfl, hopening, hgap, hmark⟩ := h
  obtain ⟨a, b, d, e, rfl, ⟨ha, -, hd, he⟩, -⟩ := opening_chars hopening
  refine ⟨a, b, d, e :: (gap ++ mark.toList), rfl, isAxisChar_of_foldsTo ha (by decide),
    isAxisChar_of_foldsTo hd (by decide), ?_⟩
  simp only [List.forall_mem_cons, List.forall_mem_append, Option.mem_toList]
  exact ⟨isAxisChar_of_foldsTo he (by decide), fun c hc => isAxisChar_of_isBlank (hgap c hc),
    fun c hc => isAxisChar_of_isQuoteMark (hmark c hc)⟩

/-- What stands in front of a name names no axis, and no axis reaches into it or beyond it. -/
theorem IsLead.axisIn (h : IsLead lead) (pre rest : List Char) :
    Background.axisIn (pre ++ (lead ++ rest)) =
      (Background.axisIn pre).or (Background.axisIn rest) := by
  obtain ⟨a, b, d, behind, rfl, ha, hd, hbehind⟩ := h.split
  have single : Background.axisIn [b] = none := by
    simp [Background.axisIn, firstWithin, axisAt]
  have rest_eq : Background.axisIn ([b] ++ d :: (behind ++ rest)) = Background.axisIn rest := by
    rw [axisIn_append_cons hd, single, Option.none_or, axisIn_skip hbehind]
  rw [← rest_eq]
  exact axisIn_append_cons ha pre _

/-- What is written with characters of axes does not tell references apart. -/
theorem IsLead.prefix_iff (h : IsLead lead) (hw : ∀ c ∈ w, isAxisChar c = true)
    (rest : List Char) : w <+: lead ++ rest ↔ w = [] := by
  obtain ⟨a, b, d, behind, rfl, ha, -⟩ := h.split
  have nothing : w <+: [] ++ a :: (b :: d :: behind ++ rest) ↔ w <+: [] :=
    prefix_append_cons_iff ha hw
  exact nothing.trans List.prefix_nil

/-! ## Values with other names in them -/

/-- The values are equal but for the names in their references, and `P` holds of those. -/
inductive Renamed (P : List Char → List Char → Prop) : List Char → List Char → Prop where
  | nil : Renamed P [] []
  | char {v v' : List Char} (c : Char) : Renamed P v v' → Renamed P (c :: v) (c :: v')
  | name {lead name name' v v' : List Char} : IsLead lead → IsNameBefore name v →
      IsNameBefore name' v' → P name name' → Renamed P v v' →
      Renamed P (lead ++ (name ++ v)) (lead ++ (name' ++ v'))

theorem Renamed.append_left (h : Renamed P v v') (pre : List Char) :
    Renamed P (pre ++ v) (pre ++ v') := by
  induction pre with
  | nil => exact h
  | cons c pre ih => exact ih.char c

theorem Renamed.refl (v : List Char) : Renamed P v v := by
  simpa using Renamed.nil.append_left v

theorem Renamed.prefix_iff (h : Renamed P v v') (hw : ∀ c ∈ w, isAxisChar c = true) :
    w <+: v ↔ w <+: v' := by
  induction h generalizing w with
  | nil => rfl
  | char c _ ih =>
    cases w with
    | nil => simp
    | cons d w =>
      rw [List.cons_prefix_cons, List.cons_prefix_cons, ih (List.forall_mem_cons.1 hw).2]
  | name hlead => rw [hlead.prefix_iff hw, hlead.prefix_iff hw]

theorem Renamed.axisAt_eq (h : Renamed P v v') : axisAt v = axisAt v' :=
  axisAt_congr fun _ hw => h.prefix_iff hw

/-- Other names make no difference if they name the same axis, or none as well. -/
theorem Renamed.axisIn_eq (h : Renamed P v v')
    (hP : ∀ name name', P name name' → axisIn name = axisIn name') : axisIn v = axisIn v' := by
  induction h with
  | nil => rfl
  | char c h ih =>
    rw [axisIn_cons, axisIn_cons, ih, (h.char c).axisAt_eq]
  | name hlead hname hname' hsame _ ih =>
    have cut := hlead.axisIn []
    simp only [List.nil_append] at cut
    rw [cut, cut, hname.axisIn, hname'.axisIn, hP _ _ hsame, ih]

/-- In front of every reference in the value an axis is named. -/
def NamedBefore (value : List Char) : Prop :=
  ∀ pre lead name rest, value = pre ++ (lead ++ (name ++ rest)) → IsLead lead →
    IsNameBefore name rest → (axisIn pre).isSome = true

/-- No name makes a difference if an axis is named in front of each. -/
theorem Renamed.axisIn_eq_of_namedBefore (h : Renamed P v v') (hv : NamedBefore v) :
    axisIn v = axisIn v' := by
  induction h with
  | nil => rfl
  | @char v v' c h ih =>
    rw [axisIn_cons, axisIn_cons, ← (h.char c).axisAt_eq]
    cases hc : axisAt (c :: v) with
    | some axis => rfl
    | none =>
      rw [Option.none_or, Option.none_or]
      apply ih
      intro pre lead name rest hsplit hlead hname
      have hfound := hv (c :: pre) lead name rest (by rw [hsplit]; rfl) hlead hname
      rw [axisIn_cons, Option.isSome_or, Bool.or_eq_true] at hfound
      refine hfound.resolve_left fun hstart => ?_
      have hpre : c :: pre <+: c :: v := List.cons_prefix_cons.2 ⟨rfl, _, hsplit.symm⟩
      simpa [hc] using axisAt_isSome_of_prefix hpre hstart
  | name hlead hname => exact absurd (hv [] _ _ _ rfl hlead hname) (by decide)

/-! ## Rules with other names in them -/

/-- The items are equal but for the names in the references of their values. -/
inductive RenamedItem (P : List Char → List Char → Prop) : BodyItem → BodyItem → Prop where
  | declaration {d d' : Declaration} : d'.property = d.property → d'.id = d.id →
      Renamed P d.value.toList d'.value.toList → RenamedItem P (.declaration d) (.declaration d')
  | comment (c : Comment) : RenamedItem P (.comment c) (.comment c)

/-- The rules are equal but for the names in the references of their values, and `P` holds of
those. -/
structure RenamedRule (P : List Char → List Char → Prop) (r r' : Rule) : Prop where
  id : r'.id = r.id
  selectors : r'.selectors = r.selectors
  body : List.Forall₂ (RenamedItem P) r.body r'.body

/-- The axis that the last of the items that names one names. -/
def axisOf (items : List BodyItem) : Option RepeatMode :=
  ((items.filterMap BodyItem.declaration?).filter (sets repeatProperties)).reverse.findSome?
    fun d => axisIn d.value.toList

theorem repeatMode_eq (r : Rule) : repeatMode r = (axisOf r.body).getD .once := rfl

theorem axisOf_append (items later : List BodyItem) :
    axisOf (items ++ later) = (axisOf later).or (axisOf items) := by
  simp [axisOf, List.findSome?_append]

theorem axisOf_cons (item : BodyItem) (items : List BodyItem) :
    axisOf (item :: items) = (axisOf items).or (axisOf [item]) :=
  axisOf_append [item] items

theorem axisOf_declaration (d : Declaration) :
    axisOf [.declaration d] = if sets repeatProperties d then axisIn d.value.toList else none := by
  by_cases hd : sets repeatProperties d = true <;> simp [axisOf, BodyItem.declaration?, hd]

theorem RenamedItem.refl (item : BodyItem) : RenamedItem P item item := by
  cases item with
  | declaration d => exact .declaration rfl rfl (.refl _)
  | comment c => exact .comment c

theorem renamedItems_refl (items : List BodyItem) : List.Forall₂ (RenamedItem P) items items :=
  List.forall₂_same.2 fun item _ => .refl item

/-- Items with other names name the same axis if their values do. -/
theorem RenamedItem.axisOf_eq {item item' : BodyItem} (h : RenamedItem P item item')
    (hvalue : ∀ d v', item = .declaration d → sets repeatProperties d = true →
      Renamed P d.value.toList v' → axisIn d.value.toList = axisIn v') :
    axisOf [item] = axisOf [item'] := by
  cases h with
  | @declaration d d' hproperty _ hrenamed =>
    have hsets : sets repeatProperties d' = sets repeatProperties d := by
      rw [sets, sets, hproperty]
    rw [axisOf_declaration, axisOf_declaration, hsets]
    split
    · exact hvalue d _ rfl ‹_› hrenamed
    · rfl
  | comment c => rfl

theorem axisOf_renamed (h : List.Forall₂ (RenamedItem P) items items')
    (hP : ∀ name name', P name name' → axisIn name = axisIn name') :
    axisOf items = axisOf items' := by
  induction h with
  | nil => rfl
  | @cons item item' items items' hitem _ ih =>
    rw [axisOf_cons, axisOf_cons item', ih,
      hitem.axisOf_eq fun d _ _ _ hrenamed => hrenamed.axisIn_eq hP]

/-- At every reference an axis has been named by what is read before it: by a later declaration,
or in front of the reference. -/
def Foregone (items : List BodyItem) : Prop :=
  ∀ before d after, items = before ++ .declaration d :: after → sets repeatProperties d = true →
    ∀ pre lead name rest, d.value.toList = pre ++ (lead ++ (name ++ rest)) → IsLead lead →
      IsNameBefore name rest → (axisOf after).isSome = true ∨ (axisIn pre).isSome = true

/-- Nothing is read of names that come too late. -/
theorem axisOf_foregone (h : List.Forall₂ (RenamedItem P) items items') (hitems : Foregone items) :
    axisOf items = axisOf items' := by
  induction h with
  | nil => rfl
  | @cons item item' items items' hitem _ ih =>
    have hrest : Foregone items := fun before d after hsplit =>
      hitems (item :: before) d after (by rw [hsplit]; rfl)
    rw [axisOf_cons, axisOf_cons item', ← ih hrest]
    cases hlater : axisOf items with
    | some axis => rfl
    | none =>
      refine congrArg _ (hitem.axisOf_eq fun d v' hd hsets hrenamed => ?_)
      apply hrenamed.axisIn_eq_of_namedBefore
      intro pre lead name rest hsplit hlead hname
      have hfound := hitems [] d items (by rw [hd]; rfl) hsets pre lead name rest hsplit hlead hname
      simpa [hlater] using hfound

/-- An axis that is not foregone is what a name tells it to be. -/
theorem repeatMode_spell {before after : List BodyItem} {d : Declaration} {mode : RepeatMode}
    (hd : sets repeatProperties d = true) (hlead : IsLead lead) (hname : IsNameBefore name rest)
    (hafter : axisOf after = none) (hpre : axisIn pre = none) (hmode : axisIn name = some mode) :
    repeatMode (spell r before d after (String.ofList (pre ++ (lead ++ (name ++ rest))))) =
      mode := by
  have hsets : sets repeatProperties { d with
      value := String.ofList (pre ++ (lead ++ (name ++ rest))) } = true := hd
  rw [repeatMode_eq, spell, axisOf_append, axisOf_cons, axisOf_declaration, if_pos hsets,
    String.toList_ofList, hlead.axisIn, hname.axisIn, hafter, hpre, hmode]
  rfl

theorem isImagePath_png (front : List Char) (hne : front ≠ [])
    (h : front.all isPathChar = true) : IsImagePath (front ++ ".png".toList) :=
  ⟨front, ".png".toList, rfl, hne, List.all_eq_true.1 h, ".png".toList, by decide, by decide⟩

/-- With another name in it a value is still the same but for that. -/
theorem renamedRule_spell {before after : List BodyItem} {d : Declaration}
    (hbody : r.body = before ++ .declaration d :: after)
    (hsplit : d.value.toList = pre ++ (lead ++ (name ++ rest))) (hlead : IsLead lead)
    (hname : IsNameBefore name rest) (hname' : IsNameBefore name' rest) (hP : P name name') :
    RenamedRule P r
      (spell r before d after (String.ofList (pre ++ (lead ++ (name' ++ rest))))) := by
  refine ⟨rfl, rfl, ?_⟩
  rw [hbody]
  refine List.rel_append (renamedItems_refl before) (.cons ?_ (renamedItems_refl after))
  refine .declaration rfl rfl ?_
  rw [hsplit, String.toList_ofList]
  exact (Renamed.name hlead hname hname' hP (.refl rest)).append_left pre

/-- If no name makes a difference, then none is read. -/
theorem foregone_of_renamed
    (h : ∀ r', RenamedRule (fun _ _ => True) r r' → repeatMode r' = repeatMode r) :
    Foregone r.body := by
  intro before d after hbody hd pre lead name rest hsplit hlead hname
  by_contra hnone
  rw [not_or, Option.not_isSome_iff_eq_none, Option.not_isSome_iff_eq_none] at hnone
  have told : ∀ {name' mode}, IsImagePath name' → axisIn name' = some mode →
      repeatMode r = mode := by
    intro name' mode himage hmode
    have hname' : IsNameBefore name' rest := ⟨himage.pathChar, hname.2.1, .inl himage⟩
    rw [← h _ (renamedRule_spell hbody hsplit hlead hname hname' trivial)]
    exact repeatMode_spell hd hlead hname' hnone.1 hnone.2 hmode
  have hx : repeatMode r = .horizontal :=
    told (isImagePath_png "repeat-x".toList (by decide) (by decide)) (by decide)
  have hy : repeatMode r = .vertical :=
    told (isImagePath_png "repeat-y".toList (by decide) (by decide)) (by decide)
  rw [hx] at hy
  cases hy

/-! ## Groups -/

/-- The groups of any two sheets have one repeat mode for the images of the two rules. -/
def GroupedAlike (r r' : Rule) : Prop :=
  ∀ (sheet sheet' : Stylesheet) (g g' : Group) (ref ref' : Reference),
    sheet.ruleIds.Nodup → sheet'.ruleIds.Nodup → r ∈ sheet.rules → r' ∈ sheet'.rules →
    g ∈ groups sheet → g' ∈ groups sheet' → ref ∈ g.members → ref' ∈ g'.members →
    ref.ruleId = r.id → ref'.ruleId = r'.id → g.key.repeatMode = g'.key.repeatMode

theorem repeatMode_of_candidate {key : GroupKey} {ref : Reference}
    (h : candidate r = some (key, ref)) : key.repeatMode = repeatMode r := by
  obtain ⟨ref', -, hp⟩ := Option.map_eq_some_iff.1 h
  cases hp
  rfl

theorem groupedAlike_of_repeatMode (h : repeatMode r' = repeatMode r) : GroupedAlike r r' := by
  intro sheet sheet' g g' ref ref' hids hids' hr hr' hg hg' href href' hid hid'
  rw [repeatMode_of_candidate (candidate_of_ruleId hids hr hg href hid),
    repeatMode_of_candidate (candidate_of_ruleId hids' hr' hg' href' hid'), h]

/-- **Which names change how an image repeats.** Rules that are equal but for the names in their
references have the same repeat mode, and are grouped with it, if every two names in the same place
name the same axis or none.  But whatever the names are, the rules have the same repeat mode
exactly if at every reference an axis has been named by what is read before it. -/
theorem repeatMode_renamed (r : Rule) :
    (∀ r', RenamedRule (fun name name' => axisIn name = axisIn name') r r' →
      repeatMode r' = repeatMode r ∧ GroupedAlike r r') ∧
    ((∀ r', RenamedRule (fun _ _ => True) r r' →
      repeatMode r' = repeatMode r ∧ GroupedAlike r r') ↔ Foregone r.body) := by
  have alike : ∀ r', axisOf r.body = axisOf r'.body →
      repeatMode r' = repeatMode r ∧ GroupedAlike r r' := by
    intro r' haxis
    have hmode : repeatMode r' = repeatMode r := by rw [repeatMode_eq, repeatMode_eq, haxis]
    exact ⟨hmode, groupedAlike_of_repeatMode hmode⟩
  refine ⟨fun r' h => alike r' (axisOf_renamed h.body fun _ _ => id), ?_, ?_⟩
  · intro h
    exact foregone_of_renamed fun r' hr' => (h r' hr').1
  · intro h r' hr'
    exact alike r' (axisOf_foregone hr'.body h)

/-- A rule that shows one image, and the same rule with another image. -/
theorem renamed_backgroundRule (hname : IsImagePath name) (hname' : IsImagePath name')
    (hP : P name name') :
    RenamedRule P (backgroundRule (reference [] "url(".toList [] name []))
      (backgroundRule (reference [] "url(".toList [] name' [])) := by
  have hlead : IsLead "url(".toList :=
    ⟨"url(".toList, [], none, by decide, by decide, nofun, nofun⟩
  have hclose : ')' ∈ [')'] := List.mem_singleton_self _
  have hvalue : Renamed P ("url(".toList ++ (name ++ [')'])) ("url(".toList ++ (name' ++ [')'])) :=
    .name hlead ⟨hname.pathChar, hclose, .inl hname⟩ ⟨hname'.pathChar, hclose, .inl hname'⟩ hP
      (.refl _)
  refine ⟨rfl, rfl, .cons (.declaration rfl rfl ?_) .nil⟩
  simpa only [reference, String.toList_ofList, List.nil_append] using hvalue

/-- Two names that name no axis. -/
theorem repeatMode_renamed_dot :
    RenamedRule (fun name name' => axisIn name = axisIn name') (backgroundRule "url(dot.png)")
      (backgroundRule "url(bar.png)") ∧
    repeatMode (backgroundRule "url(bar.png)") = repeatMode (backgroundRule "url(dot.png)") := by
  have hrenamed : RenamedRule (fun name name' => axisIn name = axisIn name')
      (backgroundRule "url(dot.png)") (backgroundRule "url(bar.png)") :=
    renamed_backgroundRule (isImagePath_png "dot".toList (by decide) (by decide))
      (isImagePath_png "bar".toList (by decide) (by decide)) (by decide)
  exact ⟨hrenamed, ((repeatMode_renamed _).1 _ hrenamed).1⟩

/-- A name that is all there is to a repeat mode. -/
theorem repeatMode_axis_in_name :
    RenamedRule (fun _ _ => True) (backgroundRule "url(dot.png)")
      (backgroundRule "url(repeat-x.png)") ∧
    repeatMode (backgroundRule "url(dot.png)") = .once ∧
    repeatMode (backgroundRule "url(repeat-x.png)") = .horizontal := by
  refine ⟨?_, by decide +kernel, by decide +kernel⟩
  exact renamed_backgroundRule (isImagePath_png "dot".toList (by decide) (by decide))
    (isImagePath_png "repeat-x".toList (by decide) (by decide)) trivial

end Spriting.Background
