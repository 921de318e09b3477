import Spriting.Proofs.Css.Numbering
import Spriting.Proofs.Css.SelectorList

/-!
# Selector lists without a selector

The parser takes a selector list as it stands, and one of commas and blanks alone is cut into
entries of which none is a selector.

* `splitSelectors_eq_nil_iff`: only such lists have no selector;
* `parse_rules_selectors`: the rules of a sheet have the selectors of its lists, in their order.
-/

namespace Spriting.Css

open Text

/-- The list holds commas and blanks, and so no selector. -/
def NoSelector (raw : List Char) : Prop := ∀ c ∈ raw, c = ',' ∨ isBlank c = true

theorem pieces_blank_cons {c : Char} (h : isBlank c = true) (cs : List Char) :
    pieces {} (c :: cs) = (c :: (segments {} cs).1) :: (segments {} cs).2 := by
  have hwithin : Nesting.within {} [c] = some {} :=
    Nesting.proper_start.within_blank (List.forall_mem_singleton.2 h)
  have cut : segments {} ([c] ++ cs) = _ := segments_append cs hwithin
  rw [List.singleton_append] at cut
  rw [pieces, cut]
  rfl

/-- All pieces between the commas are blank if all but the commas is. -/
theorem pieces_blank_iff {cs : List Char} :
    (∀ piece ∈ pieces {} cs, AllBlank piece) ↔ NoSelector cs := by
  induction cs with
  | nil => simp [pieces, segments, AllBlank, NoSelector]
  | cons c cs ih =>
    rw [NoSelector, List.forall_mem_cons, ← NoSelector, ← ih]
    by_cases hcomma : c = ','
    · rw [hcomma, pieces, segments_comma, List.forall_mem_cons]
      simp [AllBlank]
    · by_cases hblank : isBlank c = true
      · rw [pieces_blank_cons hblank, pieces, List.forall_mem_cons, List.forall_mem_cons]
        simp [AllBlank, hblank]
      · -- the first piece starts with ink
        have hsep : ¬ Nesting.separates {} c = true := by simp [Nesting.separates, hcomma]
        rw [pieces, segments, if_neg hsep]
        simp [AllBlank, hcomma, hblank]

/-- A list has no selector exactly if it holds nothing but commas and blanks. -/
theorem splitSelectors_eq_nil_iff {raw : List Char} : splitSelectors raw = [] ↔ NoSelector raw := by
  rw [splitSelectors_eq, List.map_eq_nil_iff, entries, List.filter_eq_nil_iff, List.forall_mem_map,
    ← pieces_blank_iff]
  simp only [decide_not, Bool.not_eq_true', decide_eq_false_iff_not, not_not, trim_eq_nil_iff]

/-! ## The lists of a source -/

/-- The selector list of the rule that is open, if one is. -/
def Pending.listed : Pending → List (List Char)
  | selector l => [l]
  | body l _ => [l]
  | property l _ _ => [l]
  | colon l _ _ => [l]
  | value l _ _ _ => [l]
  | _ => []

/-- The selectors of the rules among nodes. -/
def selectorsOf (ns : List Node) : List (List String) :=
  (ns.filterMap Node.rule?).map Rule.selectors

/-- The selector lists among lexemes. -/
def listsOf (ts : List (Terminal × List Char)) : List (List Char) :=
  ts.filterMap fun p => if p.1 = .selector then some p.2 else none

/-- The selectors of a rule have nothing to do with ids. -/
theorem selectorsOf_bare (ns : List Node) : selectorsOf (ns.map Node.bare) = selectorsOf ns := by
  simp only [selectorsOf, List.filterMap_map, List.map_filterMap]
  refine congrArg (ns.filterMap ·) (funext fun n => ?_)
  cases n <;> rfl

/-- A selector list waits for its rule, and is then given to it. -/
theorem Pending.listed_shift {p p' : Pending} {l : List Char} {t : Terminal} {node? : Option Node}
    (h : p.shift l t = some (node?, p')) :
    selectorsOf node?.toList ++ p'.listed.map splitSelectors =
      (p.listed ++ listsOf [(t, l)]).map splitSelectors := by
  have ends : ∀ {p : Pending} {s : List Char} {items : List BodyItem}, p.EndsBody s items →
      p.listed = [s] := by
    intro p s items hbody
    cases hbody <;> rfl
  have heads : ∀ {p : Pending} {n q : List Char}, p.EndsHead n q → p.listed = [] := by
    intro p n q hhead
    cases hhead <;> rfl
  cases Pending.shift_eq_some_iff.1 h with
  | semicolon hbody =>
    rw [ends hbody]
    simp [listed, selectorsOf, listsOf]
  | closeBody hbody =>
    rw [ends hbody]
    simp [listed, selectorsOf, listsOf, ruleOf, Node.rule?]
  | statement hhead =>
    rw [heads hhead]
    simp [listed, selectorsOf, listsOf, atRuleOf, Node.rule?]
  | openBlock hhead =>
    rw [heads hhead]
    simp [listed, selectorsOf, listsOf]
  | _ => simp [listed, selectorsOf, listsOf, atRuleOf, Node.rule?]

theorem Reads.selectorsOf_eq {p : Pending} {s : List Char} {ts : List (Terminal × List Char)}
    {ns : List Node} (h : Reads p s ts ns) :
    selectorsOf ns = (p.listed ++ listsOf ts).map splitSelectors := by
  induction h with
  | done => rfl
  | @gap p s g r ts ns _ _ ih =>
    have same : (p.skip g).listed = p.listed := by cases p <;> rfl
    rw [ih, same]
  | @lexeme p p' s l r t node? ts ns _ _ hs _ ih =>
    have step := Pending.listed_shift hs
    have split : listsOf ((t, l) :: ts) = listsOf [(t, l)] ++ listsOf ts :=
      List.filterMap_append (l := [(t, l)])
    have nodes : selectorsOf (node?.toList ++ ns) = selectorsOf node?.toList ++ selectorsOf ns := by
      simp [selectorsOf]
    rw [nodes, ih, split, List.map_append, ← List.append_assoc, step, ← List.map_append,
      List.append_assoc]

/-- The rules of a sheet have the selectors of the lists in the source. -/
theorem parse_rules_selectors {source : String} {sheet : Stylesheet}
    (h : parse source = .ok sheet) :
    sheet.rules.map Rule.selectors = (selectorTexts source).map splitSelectors := by
  obtain ⟨ns, hns, rfl⟩ := parse_eq_ok_iff.1 h
  obtain ⟨ts, hreads⟩ := parseNodes_eq_ok_iff.1 hns
  have lists : selectorTexts source = listsOf ts := by
    rw [selectorTexts, hreads.lexemesFrom_eq, listsOf]
  rw [lists]
  calc (Stylesheet.ofNodes ns).rules.map Rule.selectors
      = selectorsOf ((Stylesheet.ofNodes ns).nodes.map Node.bare) := (selectorsOf_bare _).symm
    _ = selectorsOf ns := by rw [ofNodes_bare (unnumbered_of_parseNodes hns)]
    _ = (listsOf ts).map splitSelectors := hreads.selectorsOf_eq

end Spriting.Css
