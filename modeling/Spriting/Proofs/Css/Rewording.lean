import Spriting.Proofs.Css.Legibility

/-!
# Nodes in other words

The block of an at-rule or the value of a declaration may be another one, and the node has the
same ids and stands at the same place.

* `ofNodes_modify`: the sheet of nodes of which one is in other words;
* `parse_modify_iff`: when a source is read as a sheet with one node in other words;
* `Reads.rebased`: items that are behind the parser make no difference to what comes.
-/

namespace Spriting.Css

open Text Reader

/-! ## Other words -/

/-- The item with another value, if it is a declaration. -/
def BodyItem.setValue (value : String) : BodyItem → BodyItem
  | declaration d => declaration { d with value }
  | comment c => comment c

/-- The node with another value in the item `j` of its body, if it is a rule. -/
def Node.setValue (j : Nat) (value : String) : Node → Node
  | rule r => rule { r with body := r.body.modify j (BodyItem.setValue value) }
  | n => n

/-- The node with another block, if it is an at-rule. -/
def Node.setBlock (block : String) : Node → Node
  | atRule a => atRule { a with block := some block }
  | n => n

/-- The sheet with its node `k` in other words. -/
def Stylesheet.modifyNode (sheet : Stylesheet) (k : Nat) (f : Node → Node) : Stylesheet :=
  { sheet with nodes := sheet.nodes.modify k f }

/-- `f` makes no difference to ids. -/
structure KeepsIds (f : Node → Node) : Prop where
  ids : ∀ n, (f n).ids = n.ids
  numbered : ∀ last n,
    numberNodes last [f n] = ((numberNodes last [n]).1.map f, (numberNodes last [n]).2)

theorem numberBody_setValue (last : Int) (j : Nat) (value : String) (items : List BodyItem) :
    numberBody last (items.modify j (BodyItem.setValue value)) =
      ((numberBody last items).1.modify j (BodyItem.setValue value),
        (numberBody last items).2) := by
  induction items generalizing last j with
  | nil => cases j <;> rfl
  | cons item items ih =>
    cases j with
    | zero => cases item <;> rfl
    | succ j => simp only [List.modify_succ_cons, numberBody, ih]

theorem setValue_ids (j : Nat) (value : String) (items : List BodyItem) :
    (items.modify j (BodyItem.setValue value)).map BodyItem.id = items.map BodyItem.id := by
  induction items generalizing j with
  | nil => cases j <;> rfl
  | cons item items ih =>
    cases j with
    | zero => cases item <;> rfl
    | succ j => simp only [List.modify_succ_cons, List.map_cons, ih]

theorem setValue_keepsIds (j : Nat) (value : String) : KeepsIds (Node.setValue j value) where
  ids n := by
    cases n with
    | rule r => exact congrArg (r.id :: ·) (setValue_ids j value r.body)
    | comment c => rfl
    | atRule a => rfl
  numbered last n := by
    cases n with
    | rule r => simp only [Node.setValue, numberNodes, numberBody_setValue, List.map_cons, List.map_nil]
    | comment c => rfl
    | atRule a => rfl

theorem setBlock_keepsIds (block : String) : KeepsIds (Node.setBlock block) where
  ids n := by cases n <;> rfl
  numbered last n := by cases n <;> rfl

variable {f : Node → Node} {nodes : List Node}

theorem numberNodes_modify (hf : KeepsIds f) (last : Int) (k : Nat) (nodes : List Node) :
    numberNodes last (nodes.modify k f) =
      ((numberNodes last nodes).1.modify k f, (numberNodes last nodes).2) := by
  induction nodes generalizing last k with
  | nil => cases k <;> rfl
  | cons n nodes ih =>
    have head : (numberNodes last [n]).1.length = 1 := numberNodes_length last [n]
    obtain ⟨n', hn'⟩ := List.length_eq_one_iff.1 head
    have whole := numberNodes_append last [n] nodes
    rw [List.singleton_append, hn'] at whole
    cases k with
    | zero =>
      rw [List.modify_zero_cons, ← List.singleton_append, numberNodes_append, hf.numbered, whole, hn']
      rfl
    | succ k =>
      rw [List.modify_succ_cons, ← List.singleton_append, numberNodes_append, hn', whole, ih]
      rfl

theorem unnumbered_modify (hf : KeepsIds f) (k : Nat) (h : ∀ n ∈ nodes, n.Unnumbered) :
    ∀ n ∈ nodes.modify k f, n.Unnumbered := by
  induction nodes generalizing k with
  | nil => cases k <;> exact h
  | cons n nodes ih =>
    obtain ⟨hn, hnodes⟩ := List.forall_mem_cons.1 h
    cases k with
    | zero =>
      have hfn : (f n).Unnumbered := fun i hi => hn i (hf.ids n ▸ hi)
      exact List.forall_mem_cons.2 ⟨hfn, hnodes⟩
    | succ k => exact List.forall_mem_cons.2 ⟨hn, ih k hnodes⟩

theorem ofNodes_modify (hf : KeepsIds f) (k : Nat) (h : ∀ n ∈ nodes, n.Unnumbered) :
    Stylesheet.ofNodes (nodes.modify k f) = (Stylesheet.ofNodes nodes).modifyNode k f := by
  simp only [Stylesheet.ofNodes, Stylesheet.modifyNode, highestId_of_unnumbered h,
    highestId_of_unnumbered (unnumbered_modify hf k h), numberNodes_modify hf]

/-- A node of the sheet is the node that was read, with ids. -/
theorem ofNodes_getElem? {ns ns' : List Node} {n : Node} (h : ∀ m ∈ ns ++ n :: ns', m.Unnumbered) :
    ∃ m, (Stylesheet.ofNodes (ns ++ n :: ns')).nodes[ns.length]? = some m ∧ m.bare = n := by
  have same := congrArg (fun nodes => nodes[ns.length]?) (ofNodes_bare h)
  simpa using same

/-- A text is read as the sheet of a source with one node in other words exactly if it is read as
the nodes of the source with that node in other words. -/
theorem parse_modify_iff {source : String} {text : List Char} (hf : KeepsIds f) (k : Nat)
    (h : parseNodes source.toList = .ok nodes) :
    parse (String.ofList text) = .ok ((Stylesheet.ofNodes nodes).modifyNode k f) ↔
      parseFrom .nothing text = .ok (nodes.modify k f) := by
  have bare := unnumbered_of_parseNodes h
  rw [← ofNodes_modify hf k bare, ← parseNodes_eq_ok_iff_parseFrom, parse_eq_ok_iff,
    String.toList_ofList]
  constructor
  · rintro ⟨ns, hns, heq⟩
    have same : (Stylesheet.ofNodes ns).nodes.map Node.bare = _ :=
      congrArg (fun sheet => sheet.nodes.map Node.bare) heq
    rw [ofNodes_bare (unnumbered_of_parseNodes hns),
      ofNodes_bare (unnumbered_modify hf k bare)] at same
    exact same ▸ hns
  · exact fun hns => ⟨_, hns, rfl⟩

/-! ## Other items behind the parser -/

/-- In both a rule is open that goes on alike after the items `base` and `base'`. -/
inductive Pending.Rebased (s : List Char) (base base' : List BodyItem) : Pending → Pending → Prop where
  | body (more : List BodyItem) :
    Rebased s base base' (.body s (more ++ base)) (.body s (more ++ base'))
  | property (more : List BodyItem) (n : List Char) :
    Rebased s base base' (.property s (more ++ base) n) (.property s (more ++ base') n)
  | colon (more : List BodyItem) (n : List Char) :
    Rebased s base base' (.colon s (more ++ base) n) (.colon s (more ++ base') n)
  | value (more : List BodyItem) (n v : List Char) :
    Rebased s base base' (.value s (more ++ base) n v) (.value s (more ++ base') n v)
  | last {items : List BodyItem} {n v w : List Char} :
    base = declarationOf n v :: items → base' = declarationOf n w :: items →
    Rebased s base base' (.value s items n v) (.value s items n w)

variable {p p' q : Pending} {s : List Char} {base base' : List BodyItem}

theorem Pending.Rebased.endsBody {s' : List Char} {items : List BodyItem}
    (h : p.Rebased s base base' p') (hp : p.EndsBody s' items) :
    s' = s ∧ ∃ more, items = more ++ base ∧ p'.EndsBody s (more ++ base') := by
  cases h with
  | body more =>
    cases hp
    exact ⟨rfl, more, rfl, .body⟩
  | property more n => cases hp
  | colon more n =>
    cases hp
    exact ⟨rfl, _ :: more, rfl, .colon⟩
  | value more n v =>
    cases hp
    exact ⟨rfl, _ :: more, rfl, .value⟩
  | last hbase hbase' =>
    cases hp
    exact ⟨rfl, [], hbase.symm, hbase' ▸ .value⟩

/-- A lexeme does with both the same, until it ends the rule. -/
theorem Pending.Rebased.shifts {l : List Char} {t : Terminal} {node? : Option Node}
    (h : p.Rebased s base base' p') (hshift : p.Shifts l t node? q) :
    (∃ q', node? = none ∧ p'.Shifts l t none q' ∧ q.Rebased s base base' q') ∨
      ∃ more, node? = some (ruleOf s (more ++ base)) ∧ q = .nothing ∧
        p'.Shifts l t (some (ruleOf s (more ++ base'))) .nothing := by
  cases hshift with
  | property =>
    cases h with
    | body more => exact .inl ⟨_, rfl, .property, .property more l⟩
  | bodyComment =>
    cases h with
    | body more => exact .inl ⟨_, rfl, .bodyComment, .body (_ :: more)⟩
  | colon =>
    cases h with
    | property more => exact .inl ⟨_, rfl, .colon, .colon more _⟩
  | value =>
    cases h with
    | colon more => exact .inl ⟨_, rfl, .value, .value more _ l⟩
  | semicolon hbody =>
    obtain ⟨rfl, more, rfl, hbody'⟩ := h.endsBody hbody
    exact .inl ⟨_, rfl, .semicolon hbody', .body more⟩
  | closeBody hbody =>
    obtain ⟨rfl, more, rfl, hbody'⟩ := h.endsBody hbody
    exact .inr ⟨more, rfl, rfl, .closeBody hbody'⟩
  | statement hhead => cases hhead <;> cases h
  | openBlock hhead => cases hhead <;> cases h
  | _ => cases h

theorem Pending.Rebased.skip (h : p.Rebased s base base' p') (g : List Char) :
    p.skip g = p ∧ p'.skip g = p' := by
  cases h <;> exact ⟨rfl, rfl⟩

/-- Items that are behind the parser make no difference to what comes. -/
theorem Reads.rebased {text : List Char} {ts : List (Terminal × List Char)} {ns : List Node}
    (h : Reads p text ts ns) (hp : p.Rebased s base base' p') :
    ∃ more rest, ns = ruleOf s (more ++ base) :: rest ∧
      parseFrom p' text = .ok (ruleOf s (more ++ base') :: rest) := by
  induction h generalizing p' with
  | done => cases hp
  | @gap p text g r ts ns hgap _ ih =>
    obtain ⟨hskip, hskip'⟩ := hp.skip g
    rw [hskip] at ih
    rw [parseFrom_gap hgap, hskip']
    exact ih hp
  | @lexeme p q text l r t node? ts ns hgap hfirst hshift hrest ih =>
    have hread := (firstLexeme_eq_some hfirst).2
    obtain ⟨rfl, -⟩ := t.reader.splits hread
    rcases hp.shifts (Pending.shift_eq_some_iff.1 hshift) with
      ⟨q', rfl, hshift', hq⟩ | ⟨more, rfl, rfl, hshift'⟩
    · obtain ⟨more, rest, rfl, hparse⟩ := ih hq
      refine ⟨more, rest, rfl, ?_⟩
      rw [parseFrom_shift hread (Pending.shift_eq_some_iff.2 hshift'), hparse]
    · refine ⟨more, ns, rfl, ?_⟩
      rw [parseFrom_finish hread (Pending.shift_eq_some_iff.2 hshift'), hrest.parseFrom_eq]
      rfl

end Spriting.Css
