import Spriting.Proofs.Css.Written

/-!
# Reading what was written

A stylesheet that has been read is written in its pretty form and read again as the
same stylesheet, ids included, as long as no selector list starts with a comma: the
list of such a rule can come out empty, and a rule is not written without one.

* `Written.reads_back`: nodes that follow one another are read back;
* `parse_render`: so is the stylesheet.
-/

namespace Spriting.Css

open Text Reader

/-- A node that the parser makes is read back, if its selectors can be read again. -/
theorem Node.Made.stands {n : Node} {r : List Char} (h : n.Made Legible r) : n.Stands r := by
  cases h with
  | rule hl hP hi => exact rule_stands hl hP.1 hP.2 hi r
  | comment hl => exact comment_stands hl r
  | statement hn hq => exact statement_stands hn hq
  | block hn hw hq => exact blockRule_stands hn hw hq

/-- What is written behind a node is read as if it stood there alone. -/
theorem parseFrom_behind {n : Node} {ns : List Node} {f : List Node → List Node}
    (h : ∀ t, (t = [] ∨ t = '\n' :: '\n' :: sheetChars ns) →
      parseFrom .nothing (n.chars ++ t) = (parseFrom .nothing t).map f) :
    parseFrom .nothing (sheetChars (n :: ns)) = (parseFrom .nothing (sheetChars ns)).map f := by
  rw [sheetChars_cons]
  split
  · rename_i hnil
    subst hnil
    exact h [] (.inl rfl)
  · rw [h _ (.inr rfl), parseFrom_skip (fun _ => rfl) (by decide),
      parseFrom_skip (fun _ => rfl) (by decide)]

theorem quiet_behind {ns : List Node} {t : List Char} (h : ∀ m ∈ ns, m.Quieted)
    (ht : t = [] ∨ t = '\n' :: '\n' :: sheetChars ns) : Quiet t := by
  rcases ht with rfl | rfl
  · exact quiet_nil
  · exact ((quiet_sheetChars h).cons (by decide)).cons (by decide)

/-- A node that stands is read in front of the nodes that follow it. -/
theorem Node.Stands.parseFrom_cons {n : Node} {ns : List Node} {r : List Char} (h : n.Stands r)
    (hquiet : Quiet r → ∀ m ∈ ns, m.Quieted) :
    parseFrom .nothing (sheetChars (n :: ns)) =
      (parseFrom .nothing (sheetChars ns)).map (n :: ·) :=
  parseFrom_behind fun t ht => h t fun hr => quiet_behind (hquiet hr) ht

theorem Written.reads_back {ns : List Node} (h : Written Legible ns) :
    parseFrom .nothing (sheetChars ns) = .ok ns := by
  induction h with
  | nil => rw [sheetChars, List.map_nil, List.intercalate_nil, parseFrom_nil, if_pos rfl]
  | cons hn hquiet _ ih =>
    rw [hn.stands.parseFrom_cons hquiet, ih]
    rfl

/-- Nodes that are read from a source are read again from their pretty form. -/
theorem Reads.reads_back {p : Pending} {s : List Char} {ts : List (Terminal × List Char)}
    {ns : List Node} (h : Reads p s ts ns) (hp : p.Sound Legible s)
    (hcomma : ∀ l, (Terminal.selector, l) ∈ ts → l.head? ≠ some ',') :
    parseFrom .nothing (sheetChars ns) = .ok ns :=
  (h.legible hp hcomma).reads_back

/-- **A stylesheet that has been read is read again from its pretty form**, if no selector
list of the source starts with a comma. -/
theorem parse_render {source : String} {sheet : Stylesheet} (h : parse source = .ok sheet)
    (hcomma : ∀ l ∈ selectorTexts source, l.head? ≠ some ',') :
    parse (sheet.render (.pretty "  ")) = .ok sheet := by
  obtain ⟨ns, hns, rfl⟩ := parse_eq_ok_iff.1 h
  obtain ⟨ts, hreads⟩ := parseNodes_eq_ok_iff.1 hns
  have hback : parseFrom .nothing (sheetChars ns) = .ok ns :=
    hreads.reads_back trivial fun l hl => hcomma l (hreads.mem_selectorTexts.2 hl)
  have written : sheetChars (Stylesheet.ofNodes ns).nodes = sheetChars ns :=
    congrArg (['\n', '\n'].intercalate ·) (chars_numberNodes _ ns)
  refine parse_eq_ok_iff.2 ⟨ns, ?_, rfl⟩
  rw [renderPretty_toList, written]
  exact parseNodes_eq_ok_iff.2 (exists_reads hback)

/-- A list with an empty entry, a brace in a string, a comment between two declarations and one
that a prelude leaves open. -/
def mixedSource : String := "p , ,q\x7bc:'\x7d' ;/*d*/e:\x7d@media a/* \x7bb\x7b\x7d\x7d"

def mixedSheet : Stylesheet where
  nodes :=
    [.rule
      { selectors := ["p", "q"]
        body := [.declaration ⟨"c", "'\x7d'", 2⟩, .comment ⟨"d", 3⟩, .declaration ⟨"e", "", 4⟩]
        id := 1 },
     .atRule { name := "media", prelude := "a/*", block := some "b\x7b\x7d", id := 5 }]
  lastId := 5

theorem parse_render_mixed :
    parse mixedSource = .ok mixedSheet ∧ (∀ l ∈ selectorTexts mixedSource, l.head? ≠ some ',') ∧
      parse (mixedSheet.render (.pretty "  ")) = .ok mixedSheet := by
  have accepted : parse mixedSource = .ok mixedSheet := by decide +kernel
  have headed : ∀ l ∈ selectorTexts mixedSource, l.head? ≠ some ',' := by decide +kernel
  exact ⟨accepted, headed, parse_render accepted headed⟩

end Spriting.Css
