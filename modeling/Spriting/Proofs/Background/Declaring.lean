import Spriting.Background.Placement
import Spriting.Proofs.Css.Legibility

/-!
# Declarations of placed images

The declarations that placing writes into a sheet are made as the parser makes them: the
lengths of a position and of a size are plain values, and so is the reference to a sprite
sheet, whatever its URL, unless that holds a closing bracket.

* `positionDeclaration_written`, `sizeDeclaration_written`: what is put into the rule of a member;
* `sheetRule_made`: the rule of a sprite sheet.
-/

namespace Spriting.Background

open Css Text Reader

/-! ## Values -/

/-- Brackets are closed by the first closing one. -/
theorem closeGroup_of_notMem {l : List Char} (h : ')' ∉ l) (r : List Char) :
    closeGroup (l ++ ')' :: r) = some (l ++ [')'], r) := by
  induction l with
  | nil => rfl
  | cons c l ih =>
    obtain ⟨hc, hl⟩ := not_or.1 (mt List.mem_cons.2 h)
    rw [List.cons_append, closeGroup, if_neg fun hclose => hc hclose.symm, ih hl]
    rfl

/-- The value that names the sprite sheet at a URL. -/
theorem sheetValue_takes {url : List Char} (h : ')' ∉ url) :
    Terminal.value.Takes ('u' :: (['r', 'l'] ++
      (('(' :: (url ++ [')'])) ++ " no-repeat -9999px -9999px".toList))) := by
  refine value_takes (by decide) (by decide) ?_
  have plain : " no-repeat -9999px -9999px".toList.all (!valueStops.contains ·) = true := by decide
  have tail : Chain valuePiece " no-repeat -9999px -9999px".toList [';'] :=
    chain_plain _ fun c hc => by simpa using List.all_eq_true.1 plain c hc
  refine .cons (l := ['r']) (valuePiece_char _ (by decide)) (.cons (l := ['l'])
    (valuePiece_char _ (by decide)) (.cons ?_ tail))
  apply orElse_of_some
  rw [List.cons_append, List.append_assoc, List.singleton_append,
    orElse_of_none (string_declines _ (by decide)), group_open, closeGroup_of_notMem h]
  rfl

/-! ## Lengths -/

/-- A character of a length. -/
def IsUnitChar (c : Char) : Prop := c.isDigit = true ∨ c ∈ ['-', 'p', 'r']

theorem IsUnitChar.ink {c : Char} (h : IsUnitChar c) : isBlank c = false := by
  rcases h with h | h
  · have hzero : '0'.val ≤ c.val := of_decide_eq_true (Bool.and_eq_true_iff.1 h).1
    have hlow : 48 ≤ c.toNat := UInt32.le_iff_toNat_le.1 hzero
    exact isBlank_of_between hlow (toNat_of_isDigit h) (by decide)
  · have : ['-', 'p', 'r'].all (!isBlank ·) = true := by decide
    simpa using List.all_eq_true.1 this c h

/-- No character of a length means anything in a value or in a comment. -/
theorem IsUnitChar.plain {c : Char} (h : IsUnitChar c) : c ∉ '*' :: valueStops := by
  intro hmem
  have : ('*' :: valueStops).all (fun d => !d.isDigit && !(['-', 'p', 'r'].contains d)) = true := by
    decide
  have apart : c.isDigit = false ∧ c ∉ ['-', 'p', 'r'] := by
    simpa using List.all_eq_true.1 this c hmem
  rcases h with h | h
  · rw [apart.1] at h
    cases h
  · exact apart.2 h

theorem toUnit_ne_nil (n : Int) : (toUnit n).toList ≠ [] := by
  unfold toUnit
  split <;> simp

theorem isUnitChar_of_mem {n : Int} {c : Char} (h : c ∈ (toUnit n).toList) : IsUnitChar c := by
  unfold toUnit at h
  split at h
  · obtain rfl : c = '0' := by simpa using h
    exact .inl rfl
  · rw [String.toList_append, List.mem_append] at h
    rcases h with h | h
    · cases n with
      | ofNat k =>
        have digits : c ∈ (toString k).toList := h
        rw [Nat.toString_eq_ofList_toDigits, String.toList_ofList] at digits
        exact .inl (Nat.isDigit_of_mem_toDigits (by decide) (by decide) digits)
      | negSucc k =>
        have digits : c ∈ '-' :: (toString (k + 1)).toList := by
          simpa using (show c ∈ ("-" ++ toString (k + 1)).toList from h)
        rw [Nat.toString_eq_ofList_toDigits, String.toList_ofList] at digits
        rcases List.mem_cons.1 digits with rfl | digits
        · exact .inr (by decide)
        · exact .inl (Nat.isDigit_of_mem_toDigits (by decide) (by decide) digits)
    · have unit : c ∈ ['p', 'r'] := h
      exact .inr (List.mem_cons_of_mem '-' unit)

theorem toUnits_toList (x y : Int) :
    (toUnits x y).toList = (toUnit x).toList ++ ' ' :: (toUnit y).toList := by
  simp [toUnits]

/-- Two lengths are a value, from the first character to the last. -/
theorem toUnits_takes (x y : Int) :
    Terminal.value.Takes (toUnits x y).toList ∧ trim (toUnits x y).toList = (toUnits x y).toList := by
  rw [toUnits_toList]
  have hx := fun c => isUnitChar_of_mem (n := x) (c := c)
  have hy := fun c => isUnitChar_of_mem (n := y) (c := c)
  have hne := toUnit_ne_nil y
  obtain ⟨c, l, hl⟩ := List.exists_cons_of_ne_nil (toUnit_ne_nil x)
  generalize (toUnit y).toList = ys at hy hne
  rw [hl] at hx ⊢
  have stops : ∀ d, IsUnitChar d → d ∉ valueStops :=
    fun d hd hmem => hd.plain (List.mem_cons_of_mem '*' hmem)
  constructor
  · refine value_takes (hx c List.mem_cons_self).ink (stops c (hx c List.mem_cons_self))
      (chain_plain _ ?_)
    intro d hd
    rcases List.mem_append.1 hd with hd | hd
    · exact stops d (hx d (List.mem_cons_of_mem c hd))
    · rcases List.mem_cons.1 hd with rfl | hd
      · decide
      · exact stops d (hy d hd)
  · apply trim_eq_self
    · rintro d ⟨⟩
      exact (hx c List.mem_cons_self).ink
    · intro d hd
      rcases ys.eq_nil_or_concat with hnil | ⟨m, e, rfl⟩
      · exact absurd hnil hne
      · rw [List.concat_eq_append, ← List.cons_append, ← List.append_assoc,
          List.getLast?_concat] at hd
        obtain rfl := Option.some.inj hd
        exact (hy e (by simp)).ink

theorem toUnits_quiet (x y : Int) : Quiet (toUnits x y).toList := by
  apply quiet_of_notMem
  rw [toUnits_toList]
  intro h
  have unit : ∀ n, '*' ∉ (toUnit n).toList :=
    fun n hmem => (isUnitChar_of_mem hmem).plain List.mem_cons_self
  rcases List.mem_append.1 h with h | h
  · exact unit x h
  · rcases List.mem_cons.1 h with h | h
    · cases h
    · exact unit y h

/-! ## Declarations -/

/-- A name of a property that is read from its first to its last character. -/
structure NamesProperty (name : List Char) : Prop where
  takes : Terminal.property.Takes name
  trimmed : trim name = name
  quiet : Quiet name

theorem namesProperty {c : Char} {l : List Char} (hc : c.isAlpha = true)
    (hall : l.all (fun d => d == '-' || d.isAlpha) = true) : NamesProperty (c :: l) := by
  have hl : ∀ d ∈ l, d = '-' ∨ d.isAlpha = true := by
    intro d hd
    simpa using List.all_eq_true.1 hall d hd
  have goes_on : ∀ d ∈ l, (d == '-' || isWord d) = true := by
    intro d hd
    rcases hl d hd with rfl | h
    · rfl
    · simp [isWord_of_isAlphanum (Bool.or_eq_true_iff.2 (.inl h))]
  have ink : ∀ d ∈ c :: l, isBlank d = false ∧ d ≠ '*' := by
    have letter : ∀ d : Char, d.isAlpha = true → isBlank d = false ∧ d ≠ '*' :=
      fun d h => ⟨isBlank_of_isAlpha h, by rintro rfl; cases h⟩
    intro d hd
    rcases List.mem_cons.1 hd with rfl | hd
    · exact letter d hc
    · rcases hl d hd with rfl | h
      · decide
      · exact letter d h
  constructor
  · refine ⟨c :: l ++ [':'], [':'], (followedBy_eq_some_iff (a := propertyStart)).2
      ⟨[c], l, rfl, char_cons _ (by simp [hc]), chain_of_char goes_on _, char_declines _ (by decide)⟩⟩
  · refine trim_eq_self ?_ fun d hd => (ink d (List.mem_of_getLast? hd)).1
    rintro d ⟨⟩
    exact (ink c List.mem_cons_self).1
  · exact quiet_of_notMem fun hstar => (ink '*' hstar).2 rfl

/-- A declaration of a name and a value that are read from end to end. -/
theorem declaration_eq {property value : String} (hproperty : NamesProperty property.toList)
    (hvalue : trim value.toList = value.toList) :
    BodyItem.declaration { property, value } = declarationOf property.toList value.toList := by
  simp [declarationOf, hproperty.trimmed, hvalue]

theorem declaration_written {property value : String} (hproperty : NamesProperty property.toList)
    (hvalue : Terminal.value.Takes value.toList ∧ trim value.toList = value.toList) :
    (BodyItem.declaration { property, value }).Written := by
  rw [declaration_eq hproperty hvalue.2]
  exact .declaration hproperty.takes (.inr hvalue.1)

theorem lengths_written (property : String) (hproperty : NamesProperty property.toList) (x y : Int) :
    (BodyItem.declaration { property, value := toUnits x y }).Written ∧
      Quiet (BodyItem.declaration { property, value := toUnits x y }).chars := by
  refine ⟨declaration_written hproperty (toUnits_takes x y), ?_⟩
  rw [declaration_eq hproperty (toUnits_takes x y).2]
  exact quiet_declarationOf hproperty.quiet (toUnits_quiet x y)

theorem positionDeclaration_written (box : Layout.Box) :
    (BodyItem.declaration (positionDeclaration box 0)).Written ∧
      Quiet (BodyItem.declaration (positionDeclaration box 0)).chars :=
  lengths_written "background-position"
    (namesProperty (c := 'b') (l := "ackground-position".toList) (by decide) (by decide)) _ _

theorem sizeDeclaration_written (sprite : SpriteMap) :
    (BodyItem.declaration (sizeDeclaration sprite 0)).Written ∧
      Quiet (BodyItem.declaration (sizeDeclaration sprite 0)).chars :=
  lengths_written "background-size"
    (namesProperty (c := 'b') (l := "ackground-size".toList) (by decide) (by decide)) _ _

/-- The rule of a sprite sheet is made as the parser makes it, in front of any text. -/
theorem sheetRule_made {url : String} {selectors : List String} (hurl : ')' ∉ url.toList)
    (hselectors : Listed (selectors.map String.toList)) (s : List Char) :
    (Node.rule (sheetRule url selectors)).Made (fun _ => True) s := by
  refine made_rule_iff.2 ⟨rfl, hselectors, trivial, ?_⟩
  have hname : NamesProperty "background".toList :=
    namesProperty (c := 'b') (l := "ackground".toList) (by decide) (by decide)
  have hvalue : ("url(" ++ url ++ ") no-repeat -9999px -9999px").toList =
      'u' :: (['r', 'l'] ++ (('(' :: (url.toList ++ [')'])) ++
        " no-repeat -9999px -9999px".toList)) := by
    simp
  have hlast : ("url(" ++ url ++ ") no-repeat -9999px -9999px").toList =
      ("url(" ++ url ++ ") no-repeat -9999px -9999p").toList ++ ['x'] := by
    simp
  refine List.forall_mem_singleton.2 (declaration_written hname ⟨?_, trim_eq_self ?_ ?_⟩)
  · rw [hvalue]
    exact sheetValue_takes hurl
  · rw [hvalue]
    rintro c ⟨⟩
    decide
  · rw [hlast, List.getLast?_concat]
    rintro c ⟨⟩
    decide

end Spriting.Background
