import Spriting.Proofs.Css.Lexemes

/-!
# Regular expressions

A class of lexemes is given by a regular expression, and its lexeme at the front of a text is
the first match that backtracking finds.  A reader takes it in one pass.

* `Pattern.ways`: every way to match, in the order in which they are tried;
* `Terminal.pattern`: the expression of each class;
* `Terminal.first_pattern`, `first_gap`: the readers take the first match.
-/

namespace Spriting.Css

open Text

/-- An item of a character class. -/
inductive ClassItem where
  | one (c : Char)
  | range (low high : Char)
  | blank
  | ink
  | word
deriving DecidableEq, Repr

def ClassItem.has : ClassItem → Char → Bool
  | one d, c => c == d
  | range low high, c => low ≤ c && c ≤ high
  | blank, c => isBlank c
  | ink, c => !isBlank c
  | word, c => isWord c

@[simp] theorem ClassItem.has_one (d c : Char) : (one d).has c = (c == d) := rfl

@[simp] theorem ClassItem.has_range (low high c : Char) :
    (range low high).has c = (decide (low ≤ c) && decide (c ≤ high)) := rfl

@[simp] theorem ClassItem.has_blank (c : Char) : blank.has c = isBlank c := rfl

@[simp] theorem ClassItem.has_ink (c : Char) : ink.has c = !isBlank c := rfl

@[simp] theorem ClassItem.has_word (c : Char) : word.has c = isWord c := rfl

/-- A match at the front of a text: what was matched and the rest. -/
abbrev Match := List Char × List Char

/-- A match behind a text that was matched before it. -/
def Match.behind (l : List Char) (m : Match) : Match := (l ++ m.1, m.2)

/-- The matches of one character that has a property. -/
def oneChar (p : Char → Bool) : List Char → List Match
  | [] => []
  | c :: s => if p c then [([c], s)] else []

theorem oneChar_cons (p : Char → Bool) (c : Char) (s : List Char) :
    oneChar p (c :: s) = if p c then [([c], s)] else [] := rfl

/-- The matches of as many repetitions as there are, a longer run before a shorter one.  A
repetition that matches nothing is not tried again. -/
def mostFirst (ways : List Char → List Match) (s : List Char) : List Match :=
  ((ways s).flatMap fun m =>
    if _h : m.2.length < s.length then (mostFirst ways m.2).map (Match.behind m.1) else []) ++
  [([], s)]
termination_by s.length

/-- The same matches, a shorter run before a longer one. -/
def leastFirst (ways : List Char → List Match) (s : List Char) : List Match :=
  ([], s) :: (ways s).flatMap fun m =>
    if _h : m.2.length < s.length then (leastFirst ways m.2).map (Match.behind m.1) else []
termination_by s.length

/-- A regular expression. -/
inductive Pattern where
  /-- One of a class of characters, `[...]`. -/
  | anyOf (items : List ClassItem)
  /-- A character outside a class, `[^...]`. -/
  | noneOf (items : List ClassItem)
  /-- A character other than a line feed, `.`. -/
  | dot
  | seq (a b : Pattern)
  /-- `a|b`. -/
  | alt (a b : Pattern)
  /-- `a*`. -/
  | star (a : Pattern)
  /-- `a*?`. -/
  | lazyStar (a : Pattern)
  /-- `(?!a)`. -/
  | notAhead (a : Pattern)

namespace Pattern

/-- The ways to match at the front of a text, in the order in which they are tried. -/
def ways : Pattern → List Char → List Match
  | anyOf items => oneChar fun c => items.any (·.has c)
  | noneOf items => oneChar fun c => !items.any (·.has c)
  | dot => oneChar (· != '\n')
  | seq a b => fun s => (a.ways s).flatMap fun m => (b.ways m.2).map (Match.behind m.1)
  | alt a b => fun s => a.ways s ++ b.ways s
  | star a => mostFirst a.ways
  | lazyStar a => leastFirst a.ways
  | notAhead a => fun s => if a.ways s = [] then [([], s)] else []

/-- The match that is found first. -/
def first (a : Pattern) (s : List Char) : Option Match := (a.ways s).head?

theorem head?_ways (a : Pattern) (s : List Char) : (a.ways s).head? = a.first s := rfl

theorem ways_anyOf (items : List ClassItem) (c : Char) (s : List Char) :
    (anyOf items).ways (c :: s) = if items.any (·.has c) then [([c], s)] else [] := rfl

theorem ways_noneOf (items : List ClassItem) (c : Char) (s : List Char) :
    (noneOf items).ways (c :: s) = if !items.any (·.has c) then [([c], s)] else [] := rfl

theorem ways_dot (c : Char) (s : List Char) :
    dot.ways (c :: s) = if c != '\n' then [([c], s)] else [] := rfl

theorem ways_seq (a b : Pattern) (s : List Char) :
    (a.seq b).ways s = (a.ways s).flatMap fun m => (b.ways m.2).map (Match.behind m.1) := rfl

theorem ways_alt (a b : Pattern) (s : List Char) : (a.alt b).ways s = a.ways s ++ b.ways s := rfl

theorem ways_notAhead (a : Pattern) (s : List Char) :
    (notAhead a).ways s = if a.ways s = [] then [([], s)] else [] := rfl

/-- The character itself. -/
def lit (c : Char) : Pattern := anyOf [.one c]

theorem ways_lit (c : Char) (s : List Char) : (lit c).ways (c :: s) = [([c], s)] := by
  rw [lit, ways_anyOf, if_pos (by simp)]

theorem ways_lit_of_ne {c d : Char} (h : d ≠ c) (s : List Char) : (lit c).ways (d :: s) = [] := by
  rw [lit, ways_anyOf, if_neg (by simp [h])]

theorem first_lit_of_ne {c d : Char} (h : d ≠ c) (s : List Char) :
    (lit c).first (d :: s) = none := by
  rw [first, ways_lit_of_ne h]
  rfl

/-- `a+`. -/
def plus (a : Pattern) : Pattern := a.seq a.star

end Pattern

/-! ## Expressions of the classes -/

namespace Pattern

/-- `\\.|[^"\\]`, with any mark for the quote. -/
def quotedPiece (mark : Char) : Pattern :=
  ((lit '\\').seq dot).alt (noneOf [.one mark, .one '\\'])

/-- `"(?:\\.|[^"\\])*"` -/
def quoted (mark : Char) : Pattern := (lit mark).seq ((quotedPiece mark).star.seq (lit mark))

/-- A string in double or single quotes. -/
def string : Pattern := (quoted '"').alt (quoted '\'')

/-- `\([^)]*\)` -/
def group : Pattern := (lit '(').seq ((noneOf [.one ')']).star.seq (lit ')'))

/-- `/\*[\s\S]*?\*/` -/
def comment : Pattern :=
  (lit '/').seq ((lit '*').seq ((anyOf [.blank, .ink]).lazyStar.seq ((lit '*').seq (lit '/'))))

/-- `/(?!\*)` -/
def slash : Pattern := (lit '/').seq (notAhead (lit '*'))

/-- `[-\w]` -/
def nameChar : Pattern := anyOf [.one '-', .word]

/-- `[ \t\f\r\n]+` -/
def gap : Pattern := (anyOf [.one ' ', .one '\t', .one '\x0c', .one '\r', .one '\n']).plus

end Pattern

/-- What a run of plain text in a selector stops at. -/
def selectorMarks : List ClassItem :=
  [.one '\x7b', .one '\x7d', .one ';', .one '/', .one '"', .one '\'']

/-- What a run of plain text in a value or a prelude stops at. -/
def valueMarks : List ClassItem :=
  [.one ';', .one '\x7b', .one '\x7d', .one '"', .one '\'', .one '(']

/-- What a run of plain text in a block stops at. -/
def blockMarks : List ClassItem := [.one '\x7b', .one '\x7d', .one '"', .one '\'']

theorem selectorMarks_eq : selectorMarks = selectorStops.map .one := rfl

theorem valueMarks_eq : valueMarks = valueStops.map .one := rfl

theorem blockMarks_eq : blockMarks = blockStops.map .one := rfl

open Pattern in
/-- The regular expression of a class. -/
def Terminal.pattern : Terminal → Pattern
  | selector =>
    (string.alt (noneOf (.blank :: .one '@' :: selectorMarks))).seq
      (((string.alt Pattern.comment).alt slash).alt (noneOf selectorMarks)).star
  | comment => Pattern.comment
  | atKeyword => (lit '@').seq nameChar.plus
  | property =>
    (anyOf [.one '-', .one '_', .range 'a' 'z', .range 'A' 'Z', .one '*', .one '$']).seq
      nameChar.star
  | value =>
    ((string.alt group).alt (noneOf (.blank :: valueMarks))).seq
      ((string.alt group).alt (noneOf valueMarks)).star
  | prelude =>
    ((string.alt group).alt (noneOf (.blank :: valueMarks))).seq
      (((Pattern.comment.alt string).alt group).alt (noneOf valueMarks)).star
  | blockText =>
    (string.alt (noneOf (.blank :: blockMarks))).seq (string.alt (noneOf blockMarks)).star
  | colon => lit ':'
  | semicolon => lit ';'
  | openBrace => lit '\x7b'
  | closeBrace => lit '\x7d'

/-! ## First matches -/

theorem behind_behind (l l' : List Char) (m : Match) :
    (m.behind l').behind l = m.behind (l ++ l') := by
  simp [Match.behind]

theorem map_behind_nil (m : Option Match) : m.map (Match.behind []) = m := by
  cases m <;> rfl

namespace Pattern

variable {a b : Pattern} {ra rb : Reader}

theorem first_alt (s : List Char) : (a.alt b).first s = (a.first s).or (b.first s) :=
  List.head?_append

/-- The first match of `b` behind one of some matches. -/
def firstBehind (b : Pattern) (ms : List Match) : Option Match :=
  ms.findSome? fun m => (b.first m.2).map (Match.behind m.1)

theorem first_seq (s : List Char) : (a.seq b).first s = b.firstBehind (a.ways s) := by
  rw [first, ways_seq, List.head?_flatMap]
  simp only [List.head?_map, head?_ways]
  rfl

theorem firstBehind_one (m : Match) :
    b.firstBehind [m] = (b.first m.2).map (Match.behind m.1) :=
  List.findSome?_singleton

theorem firstBehind_append (ms ms' : List Match) :
    b.firstBehind (ms ++ ms') = (b.firstBehind ms).or (b.firstBehind ms') :=
  List.findSome?_append

theorem firstBehind_start (s : List Char) : b.firstBehind [([], s)] = b.first s := by
  rw [firstBehind_one, map_behind_nil]

theorem firstBehind_map (l : List Char) (ms : List Match) :
    b.firstBehind (ms.map (Match.behind l)) = (b.firstBehind ms).map (Match.behind l) := by
  simp only [firstBehind, List.findSome?_map, List.map_findSome?, Function.comp_def,
    Option.map_map, behind_behind]
  rfl

theorem first_lit_seq (c : Char) (s : List Char) :
    ((lit c).seq b).first (c :: s) = (b.first s).map (Match.behind [c]) := by
  rw [first_seq, ways_lit, firstBehind_one]

theorem first_lit_seq_of_ne {c d : Char} (h : d ≠ c) (s : List Char) :
    ((lit c).seq b).first (d :: s) = none := by
  rw [first_seq, ways_lit_of_ne h]
  rfl

/-! ## Repetitions -/

theorem ways_star (s : List Char) :
    a.star.ways s =
      ((a.ways s).flatMap fun m =>
        if m.2.length < s.length then (a.star.ways m.2).map (Match.behind m.1) else []) ++
      [([], s)] := by
  rw [ways, mostFirst]
  simp only [dite_eq_ite]

theorem ways_lazyStar (s : List Char) :
    a.lazyStar.ways s =
      ([], s) :: (a.ways s).flatMap fun m =>
        if m.2.length < s.length then (a.lazyStar.ways m.2).map (Match.behind m.1) else [] := by
  rw [ways, leastFirst]
  simp only [dite_eq_ite]

theorem first_star_seq_of_none {s : List Char} (h : a.ways s = []) :
    (a.star.seq b).first s = b.first s := by
  rw [first_seq, ways_star, h, List.flatMap_nil, List.nil_append, firstBehind_start]

/-- A repetition goes on behind the only match that there is, or else ends at once. -/
theorem first_star_seq {s l r : List Char} (h : a.ways s = [(l, r)])
    (hr : r.length < s.length) :
    (a.star.seq b).first s =
      (((a.star.seq b).first r).map (Match.behind l)).or (b.first s) := by
  rw [first_seq, ways_star, h, List.flatMap_singleton, if_pos hr, firstBehind_append,
    firstBehind_map, firstBehind_start, first_seq]

/-- A lazy repetition ends at once or else goes on behind the only match that there is. -/
theorem first_lazyStar_seq {s l r : List Char} (h : a.ways s = [(l, r)])
    (hr : r.length < s.length) :
    (a.lazyStar.seq b).first s =
      (b.first s).or (((a.lazyStar.seq b).first r).map (Match.behind l)) := by
  rw [first_seq, ways_lazyStar, h, List.flatMap_singleton, if_pos hr,
    ← List.singleton_append, firstBehind_append, firstBehind_map, firstBehind_start, first_seq]

theorem first_lazyStar_seq_of_none {s : List Char} (h : a.ways s = []) :
    (a.lazyStar.seq b).first s = b.first s := by
  rw [first_seq, ways_lazyStar, h, List.flatMap_nil, firstBehind_start]

/-! ## Closing marks -/

theorem first_closeGroup (s : List Char) :
    ((noneOf [.one ')']).star.seq (lit ')')).first s = closeGroup s := by
  induction s with
  | nil => rw [first_star_seq_of_none rfl]; rfl
  | cons c s ih =>
    by_cases hc : c = ')'
    · subst hc
      rw [first_star_seq_of_none rfl]
      rfl
    · have one : (noneOf [.one ')']).ways (c :: s) = [([c], s)] := by
        rw [ways_noneOf, if_pos (by simp [hc])]
      rw [first_star_seq one (by simp), first_lit_of_ne hc, Option.or_none, ih, closeGroup,
        if_neg hc]
      rfl

theorem ways_quotedPiece_mark {mark : Char} (hmark : mark ≠ '\\') (s : List Char) :
    (quotedPiece mark).ways (mark :: s) = [] := by
  rw [quotedPiece, ways_alt, ways_seq, ways_lit_of_ne hmark, ways_noneOf, if_neg (by simp)]
  rfl

theorem ways_quotedPiece_escape {mark : Char} (s : List Char) :
    (quotedPiece mark).ways ('\\' :: s) = (dot.ways s).map (Match.behind ['\\']) := by
  rw [quotedPiece, ways_alt, ways_seq, ways_lit, ways_noneOf, if_neg (by simp),
    List.flatMap_singleton, List.append_nil]

theorem ways_quotedPiece_plain {mark c : Char} (hmark : c ≠ mark) (hc : c ≠ '\\') (s : List Char) :
    (quotedPiece mark).ways (c :: s) = [([c], s)] := by
  rw [quotedPiece, ways_alt, ways_seq, ways_lit_of_ne hc, ways_noneOf,
    if_pos (by simp [hmark, hc])]
  rfl

theorem first_closeQuote {mark : Char} (hmark : mark ≠ '\\') (s : List Char) :
    ((quotedPiece mark).star.seq (lit mark)).first s = closeQuote mark s := by
  fun_induction closeQuote mark s with
  | case1 =>
    rw [first_star_seq_of_none rfl]
    rfl
  | case2 s =>
    rw [first_star_seq_of_none (ways_quotedPiece_mark hmark s), first, ways_lit]
    rfl
  | case3 hne =>
    rw [first_star_seq_of_none (ways_quotedPiece_escape []), first_lit_of_ne hne]
  | case4 s hne =>
    rw [first_star_seq_of_none (ways_quotedPiece_escape _), first_lit_of_ne hne]
  | case5 d ds hd hne ih =>
    have escaped : (quotedPiece mark).ways ('\\' :: d :: ds) = [(['\\', d], ds)] := by
      rw [ways_quotedPiece_escape, ways_dot, if_pos (by simpa using hd)]
      rfl
    have shorter : ds.length < ('\\' :: d :: ds).length := by
      simp only [List.length_cons]
      omega
    rw [first_star_seq escaped shorter, first_lit_of_ne hne, Option.or_none, ih]
    rfl
  | case6 c s hne hc ih =>
    rw [first_star_seq (ways_quotedPiece_plain hne hc s) (by simp), first_lit_of_ne hne,
      Option.or_none, ih]
    rfl

theorem first_closeComment (s : List Char) :
    ((anyOf [.blank, .ink]).lazyStar.seq ((lit '*').seq (lit '/'))).first s = closeComment s := by
  have one : ∀ (c : Char) (s : List Char),
      (anyOf [.blank, .ink]).ways (c :: s) = [([c], s)] := by
    intro c s
    rw [ways_anyOf, if_pos (by simp)]
  fun_induction closeComment s with
  | case1 s =>
    rw [first_lazyStar_seq (one _ _) (by simp), first_lit_seq]
    rfl
  | case2 c s hc ih =>
    have goes_on : ((lit '*').seq (lit '/')).first (c :: s) = none := by
      by_cases hstar : c = '*'
      · subst hstar
        rw [first_lit_seq]
        cases s with
        | nil => rfl
        | cons d s =>
          have hd : d ≠ '/' := by
            rintro rfl
            exact hc s rfl rfl
          rw [first_lit_of_ne hd]
          rfl
      · exact first_lit_seq_of_ne hstar s
    rw [first_lazyStar_seq (one c s) (by simp), goes_on, Option.none_or, ih]
    rfl
  | case3 =>
    rw [first_lazyStar_seq_of_none rfl]
    rfl

/-! ## Readers -/

/-- A reader takes what a pattern matches first. -/
def Read (a : Pattern) (r : Reader) : Prop := ∀ s, a.first s = r.read s

theorem head?_oneChar (p : Char → Bool) (s : List Char) :
    (oneChar p s).head? = (Reader.char p).read s := by
  cases s with
  | nil => rfl
  | cons c s =>
    cases hp : p c with
    | true =>
      rw [oneChar_cons, if_pos hp, Reader.char_cons s hp]
      rfl
    | false =>
      rw [oneChar_cons, if_neg (by simp [hp]), Reader.char_declines s hp]
      rfl

theorem read_anyOf {items : List ClassItem} {p : Char → Bool}
    (h : ∀ c, items.any (·.has c) = p c) : (anyOf items).Read (Reader.char p) := by
  intro s
  obtain rfl : (fun c => items.any (·.has c)) = p := funext h
  exact head?_oneChar _ s

theorem read_noneOf {items : List ClassItem} {p : Char → Bool}
    (h : ∀ c, (!items.any (·.has c)) = p c) : (noneOf items).Read (Reader.char p) := by
  intro s
  obtain rfl : (fun c => !items.any (·.has c)) = p := funext h
  exact head?_oneChar _ s

theorem Read.alt (ha : a.Read ra) (hb : b.Read rb) : (a.alt b).Read (ra.orElse rb) := by
  intro s
  rw [first_alt, ha, hb]
  rfl

/-- A reader that is repeated takes what a repetition matches first. -/
theorem Read.first_star (ha : a.Read ra) (s : List Char) : a.star.first s = some (ra.many s) := by
  fun_induction Reader.many ra s with
  | case1 s hread =>
    have none_first : a.ways s = [] := List.head?_eq_none_iff.1 ((ha s).trans hread)
    rw [first, ways_star, none_first]
    rfl
  | case2 s l r hread more ih =>
    obtain ⟨ms, hways⟩ := List.head?_eq_some_iff.1 ((ha s).trans hread)
    rw [first] at ih
    rw [first, ways_star, hways, List.flatMap_cons, if_pos (ra.length_rest_lt hread),
      List.append_assoc, List.head?_append, List.head?_map, ih]
    rfl

theorem Read.seq_star (ha : a.Read ra) (hb : b.Read rb) :
    (a.seq b.star).Read (ra.followedBy rb) := by
  intro s
  have hfirst : (a.ways s).head? = ra.read s := ha s
  have unfolded : (ra.followedBy rb).read s =
      (ra.read s).map fun m => Match.behind m.1 (rb.many m.2) := rfl
  rw [first_seq, firstBehind, unfolded, ← hfirst]
  simp only [hb.first_star]
  cases a.ways s <;> rfl

theorem Read.plus (ha : a.Read ra) : a.plus.Read ra.oneOrMore := ha.seq_star ha

theorem read_lit (c : Char) : (lit c).Read (Reader.char (· == c)) :=
  read_anyOf fun _ => by simp

theorem read_quoted {mark : Char} (hmark : mark ≠ '\\') :
    (quoted mark).Read (Reader.quotedBy mark) := by
  intro s
  cases s with
  | nil => rfl
  | cons c s =>
    by_cases hc : c = mark
    · subst hc
      rw [quoted, first_lit_seq, first_closeQuote hmark]
      simp only [Reader.quotedBy, if_true]
      rfl
    · rw [quoted, first_lit_seq_of_ne hc]
      simp [Reader.quotedBy, hc]

theorem read_string : string.Read Reader.string :=
  (read_quoted (by decide)).alt (read_quoted (by decide))

theorem read_group : group.Read Reader.group := by
  intro s
  cases s with
  | nil => rfl
  | cons c s =>
    by_cases hc : c = '('
    · subst hc
      rw [group, first_lit_seq, first_closeGroup]
      rfl
    · rw [group, first_lit_seq_of_ne hc, Reader.group_declines s hc]

theorem read_comment : comment.Read Reader.comment := by
  intro s
  cases s with
  | nil => rfl
  | cons c s =>
    by_cases hc : c = '/'
    · subst hc
      rw [comment, first_lit_seq]
      cases s with
      | nil => rfl
      | cons d s =>
        by_cases hd : d = '*'
        · subst hd
          rw [first_lit_seq, first_closeComment, Reader.comment_open, Option.map_map]
          rfl
        · rw [first_lit_seq_of_ne hd, Reader.comment_declines fun _ => by simpa using hd]
          rfl
    · rw [comment, first_lit_seq_of_ne hc, Reader.comment_declines fun h => absurd h hc]

theorem read_slash : slash.Read Reader.slash := by
  intro s
  cases s with
  | nil => rfl
  | cons c s =>
    by_cases hc : c = '/'
    · subst hc
      rw [slash, first_lit_seq]
      cases s with
      | nil => rfl
      | cons d s =>
        by_cases hd : d = '*'
        · subst hd
          rfl
        · have ahead : (notAhead (lit '*')).first (d :: s) = some ([], d :: s) := by
            rw [first, ways_notAhead, if_pos (ways_lit_of_ne hd s)]
            rfl
          rw [ahead]
          simp [Reader.slash, hd, Match.behind]
    · rw [slash, first_lit_seq_of_ne hc]
      simp [Reader.slash, hc]

theorem read_nameChar : nameChar.Read Reader.nameChar :=
  read_anyOf fun _ => by simp

theorem any_has_one (stops : List Char) (c : Char) :
    (stops.map ClassItem.one).any (·.has c) = stops.contains c := by
  rw [List.any_map, List.contains_eq_any_beq]
  rfl

theorem read_outside {items : List ClassItem} {stops : List Char}
    (h : items = stops.map ClassItem.one) : (noneOf items).Read (Reader.outside stops) :=
  read_noneOf fun c => by rw [h, any_has_one]

theorem read_inkOutside {items : List ClassItem} {stops : List Char}
    (h : items = stops.map ClassItem.one) :
    (noneOf (.blank :: items)).Read (Reader.inkOutside stops) :=
  read_noneOf fun c => by rw [List.any_cons, h, any_has_one, ClassItem.has_blank, Bool.not_or]

theorem isAlpha_iff {c : Char} :
    c.isAlpha = true ↔ ('A' ≤ c ∧ c ≤ 'Z') ∨ 'a' ≤ c ∧ c ≤ 'z' := by
  have upper : c.isUpper = decide ('A' ≤ c ∧ c ≤ 'Z') := rfl
  have lower : c.isLower = (decide ('a' ≤ c) && decide (c ≤ 'z')) := rfl
  have alpha : c.isAlpha = (c.isUpper || c.isLower) := rfl
  simp only [alpha, upper, lower, Bool.or_eq_true, Bool.and_eq_true, decide_eq_true_eq]

theorem read_propertyStart :
    (anyOf [.one '-', .one '_', .range 'a' 'z', .range 'A' 'Z', .one '*', .one '$']).Read
      propertyStart := by
  refine read_anyOf fun c => Bool.eq_iff_iff.2 ?_
  have letter := isAlpha_iff (c := c)
  simp only [List.any_cons, List.any_nil, ClassItem.has_one, ClassItem.has_range,
    List.contains_cons, List.contains_nil]
  grind

end Pattern

open Pattern in
/-- A class takes what its expression matches first. -/
theorem Terminal.first_pattern (t : Terminal) (s : List Char) :
    t.pattern.first s = t.reader.read s := by
  revert s
  change t.pattern.Read t.reader
  cases t with
  | selector =>
    have start : (noneOf (.blank :: .one '@' :: selectorMarks)).Read
        (Reader.inkOutside ('@' :: selectorStops)) := read_inkOutside rfl
    exact (read_string.alt start).seq_star
      (((read_string.alt read_comment).alt read_slash).alt (read_outside selectorMarks_eq))
  | comment => exact read_comment
  | atKeyword =>
    intro s
    cases s with
    | nil => rfl
    | cons c s =>
      by_cases hc : c = '@'
      · subst hc
        rw [pattern, first_lit_seq, read_nameChar.plus]
        rfl
      · rw [pattern, first_lit_seq_of_ne hc]
        simp [reader, Reader.andThen, Reader.char_declines s (p := (· == '@')) (by simpa using hc)]
  | property => exact read_propertyStart.seq_star read_nameChar
  | value =>
    exact ((read_string.alt read_group).alt (read_inkOutside valueMarks_eq)).seq_star
      ((read_string.alt read_group).alt (read_outside valueMarks_eq))
  | prelude =>
    exact ((read_string.alt read_group).alt (read_inkOutside valueMarks_eq)).seq_star
      (((read_comment.alt read_string).alt read_group).alt (read_outside valueMarks_eq))
  | blockText =>
    exact (read_string.alt (read_inkOutside blockMarks_eq)).seq_star
      (read_string.alt (read_outside blockMarks_eq))
  | _ => exact read_lit _

theorem first_gap (s : List Char) : Pattern.gap.first s = gap.read s :=
  Pattern.Read.plus
    (Pattern.read_anyOf fun c => Bool.eq_iff_iff.2 (by simp)) s

end Spriting.Css
