import Spriting.Proofs.Css.Numbering
import Spriting.Proofs.Css.Passing

/-!
# Sources one after another

A source that is read is read up to its end whatever follows it, as long as no prelude leaves a
comment open that could be closed there.

* `ofNodes_append`: nodes that follow get the ids that follow;
* `parse_append`: the sheet of two sources that are read one after another.
-/

namespace Spriting.Css

open Text Reader

/-- The preludes of a source, as they stand behind the keywords. -/
def preludeTexts (source : String) : List (List Char) :=
  (lexemesFrom .nothing source.toList).filterMap fun p => if p.1 = .prelude then some p.2 else none

theorem Reads.mem_preludeTexts {source : String} {ts : List (Terminal × List Char)}
    {ns : List Node} (h : Reads .nothing source.toList ts ns) {q : List Char} :
    q ∈ preludeTexts source ↔ (.prelude, q) ∈ ts := by
  simp [preludeTexts, h.lexemesFrom_eq]

/-! ## Ids that follow -/

/-- An item with its id raised. -/
def BodyItem.raise (k : Int) (item : BodyItem) : BodyItem := item.withId (item.id + k)

/-- A node with its id and the ids in its body raised. -/
def Node.raise (k : Int) : Node → Node
  | rule r => rule { r with body := r.body.map (BodyItem.raise k), id := r.id + k }
  | comment c => comment { c with id := c.id + k }
  | atRule a => atRule { a with id := a.id + k }

theorem numberBody_raise (k last : Int) {items : List BodyItem} (h : ∀ i ∈ items, i.id = 0) :
    numberBody (last + k) items =
      ((numberBody last items).1.map (BodyItem.raise k), (numberBody last items).2 + k) := by
  induction items generalizing last with
  | nil => rfl
  | cons item items ih =>
    obtain ⟨hitem, hitems⟩ := List.forall_mem_cons.1 h
    have next : last + k + 1 = last + 1 + k := by omega
    have head : item.withId (last + 1 + k) = (item.withId (last + 1)).raise k := by
      cases item <;> rfl
    simp only [numberBody, claimId, hitem, if_pos, next, ih _ hitems, head, List.map_cons]

/-- Nodes that are numbered from a higher id get higher ids. -/
theorem numberNodes_raise (k last : Int) {nodes : List Node} (h : ∀ n ∈ nodes, n.Unnumbered) :
    numberNodes (last + k) nodes =
      ((numberNodes last nodes).1.map (Node.raise k), (numberNodes last nodes).2 + k) := by
  induction nodes generalizing last with
  | nil => rfl
  | cons node nodes ih =>
    obtain ⟨hnode, hnodes⟩ := List.forall_mem_cons.1 h
    have next : last + k + 1 = last + 1 + k := by omega
    cases node with
    | rule r =>
      obtain ⟨hid, hbody⟩ := List.forall_mem_cons.1 hnode
      have items := numberBody_raise k (last + 1) (List.forall_mem_map.1 hbody)
      simp only [numberNodes, claimId, hid, if_pos, next, items, ih _ hnodes, List.map_cons,
        Node.raise]
    | comment c =>
      have hid : c.id = 0 := hnode c.id (List.mem_singleton_self _)
      simp only [numberNodes, claimId, Node.id, hid, if_pos, next, ih _ hnodes, List.map_cons]
      rfl
    | atRule a =>
      have hid : a.id = 0 := hnode a.id (List.mem_singleton_self _)
      simp only [numberNodes, claimId, Node.id, hid, if_pos, next, ih _ hnodes, List.map_cons]
      rfl

/-- Nodes that follow others get the ids that follow theirs. -/
theorem ofNodes_append {nodes nodes' : List Node} (h : ∀ n ∈ nodes, n.Unnumbered)
    (h' : ∀ n ∈ nodes', n.Unnumbered) :
    Stylesheet.ofNodes (nodes ++ nodes') =
      { nodes := (Stylesheet.ofNodes nodes).nodes ++
          (Stylesheet.ofNodes nodes').nodes.map (Node.raise (Stylesheet.ofNodes nodes).lastId)
        lastId := (Stylesheet.ofNodes nodes).lastId + (Stylesheet.ofNodes nodes').lastId } := by
  have all : ∀ n ∈ nodes ++ nodes', n.Unnumbered := List.forall_mem_append.2 ⟨h, h'⟩
  simp only [Stylesheet.ofNodes, highestId_of_unnumbered h, highestId_of_unnumbered h',
    highestId_of_unnumbered all, numberNodes_append]
  have raised := numberNodes_raise (numberNodes 0 nodes).2 0 h'
  rw [Int.zero_add] at raised
  rw [raised, Int.add_comm]

/-- **Sources are read one after another.** Where no prelude of a source leaves a comment open,
the source and another behind it are read as one that has the nodes of the first, with the same
ids, and behind them those of the second, with every id raised by the last id of the first. -/
theorem parse_append {source source' : String} {sheet sheet' : Stylesheet}
    (h : parse source = .ok sheet) (h' : parse source' = .ok sheet')
    (hopen : ∀ q ∈ preludeTexts source, leavesOpen q = false) :
    parse (source ++ source') = .ok
      { nodes := sheet.nodes ++ sheet'.nodes.map (Node.raise sheet.lastId)
        lastId := sheet.lastId + sheet'.lastId } := by
  obtain ⟨ns, hns, rfl⟩ := parse_eq_ok_iff.1 h
  obtain ⟨ns', hns', rfl⟩ := parse_eq_ok_iff.1 h'
  obtain ⟨ts, hreads⟩ := parseNodes_eq_ok_iff.1 hns
  have closed : ∀ q, (.prelude, q) ∈ ts → leavesOpen q = false ∨ Shields [] source'.toList :=
    fun q hq => .inl (hopen q (hreads.mem_preludeTexts.2 hq))
  have hfront : parseFrom .nothing (source.toList ++ source'.toList) =
      (parseFrom .nothing source'.toList).map (ns ++ ·) :=
    hreads.passes.parseFrom_front (List.append_nil _).symm closed trivial
  have joined : parseNodes (source ++ source').toList = .ok (ns ++ ns') := by
    rw [parseNodes_eq_ok_iff_parseFrom, String.toList_append, hfront,
      parseNodes_eq_ok_iff_parseFrom.1 hns']
    rfl
  exact parse_eq_ok_iff.2 ⟨ns ++ ns', joined,
    ofNodes_append (unnumbered_of_parseNodes hns) (unnumbered_of_parseNodes hns')⟩

/-- A comment that is closed, and slashes in strings and brackets, leave nothing open. -/
theorem parse_append_at_rule :
    let source := "@a b/*;*/\"/*\"(/*); "
    let source' := "\n c*/\x7bd:e\x7d"
    let sheet : Stylesheet := ⟨[.atRule ⟨"a", "b/*;*/\"/*\"(/*)", none, 1⟩], 1⟩
    let sheet' : Stylesheet := ⟨[.rule ⟨["c*/"], [.declaration ⟨"d", "e", 2⟩], 1⟩], 2⟩
    parse source = .ok sheet ∧ parse source' = .ok sheet' ∧
    (∀ q ∈ preludeTexts source, leavesOpen q = false) ∧
    parse (source ++ source') =
      .ok ⟨sheet.nodes ++ [.rule ⟨["c*/"], [.declaration ⟨"d", "e", 3⟩], 2⟩], 3⟩ := by
  intro source source' sheet sheet'
  have hsource : parse source = .ok sheet := by decide +kernel
  have hsource' : parse source' = .ok sheet' := by decide +kernel
  have hopen : ∀ q ∈ preludeTexts source, leavesOpen q = false := by decide +kernel
  exact ⟨hsource, hsource', hopen, parse_append hsource hsource' hopen⟩

/-- A comment that a prelude leaves open can be closed by what follows. -/
example : parse "@a b/*;" = .ok ⟨[.atRule ⟨"a", "b/*", none, 1⟩], 1⟩ ∧
    parse "c*/\x7b\x7d" = .ok ⟨[.rule ⟨["c*/"], [], 1⟩], 1⟩ ∧
    parse "@a b/*;c*/\x7b\x7d" = .ok ⟨[.atRule ⟨"a", "b/*;c*/", some "", 1⟩], 1⟩ := by
  decide +kernel

end Spriting.Css
