/-!
# Stylesheets

A stylesheet is a list of top-level rules, comments and at-rules.  Every node
and every item of a rule's body carries a number, its id, so that a declaration
found in one pass can be found again later.  The id 0 stands for "none yet".

* `Stylesheet.ofNodes` gives ids to the nodes that have none, above every id in
  use;
* `Stylesheet.prepend` does the same for the nodes it puts in front.
-/

namespace Spriting.Css

structure Declaration where
  property : String
  value : String
  id : Int := 0
deriving DecidableEq, Repr, Inhabited

/-- A comment; `text` is what stands between its delimiters. -/
structure Comment where
  text : String
  id : Int := 0
deriving DecidableEq, Repr, Inhabited

inductive BodyItem where
  | declaration (d : Declaration)
  | comment (c : Comment)
deriving DecidableEq, Repr

/-- A style rule: its selectors and the declarations and comments of its body. -/
structure Rule where
  selectors : List String
  body : List BodyItem := []
  id : Int := 0
deriving DecidableEq, Repr, Inhabited

/-- An at-rule.  Its block is the text between the outer braces; a statement
such as an import has none. -/
structure AtRule where
  name : String
  prelude : String := ""
  block : Option String := none
  id : Int := 0
deriving DecidableEq, Repr, Inhabited

inductive Node where
  | rule (r : Rule)
  | comment (c : Comment)
  | atRule (a : AtRule)
deriving DecidableEq, Repr

structure Stylesheet where
  nodes : List Node
  /-- The highest id given out or seen. -/
  lastId : Int
deriving DecidableEq, Repr

namespace BodyItem

def id : BodyItem → Int
  | declaration d => d.id
  | comment c => c.id

def withId (i : Int) : BodyItem → BodyItem
  | declaration d => declaration { d with id := i }
  | comment c => comment { c with id := i }

def declaration? : BodyItem → Option Declaration
  | declaration d => some d
  | comment _ => none

end BodyItem

namespace Rule

def declarations (r : Rule) : List Declaration := r.body.filterMap BodyItem.declaration?

def findDeclaration (r : Rule) (id : Int) : Option Declaration :=
  r.declarations.find? (·.id == id)

/-- Puts `d` in the place of the first declaration with this id. -/
def replaceDeclaration (r : Rule) (id : Int) (d : Declaration) : Option Rule :=
  (replaceIn r.body).map fun body => { r with body }
where
  replaceIn : List BodyItem → Option (List BodyItem)
    | [] => none
    | .declaration old :: items =>
      if old.id = id then some (.declaration d :: items)
      else (replaceIn items).map (.declaration old :: ·)
    | .comment c :: items => (replaceIn items).map (.comment c :: ·)

end Rule

namespace Node

def id : Node → Int
  | rule r => r.id
  | comment c => c.id
  | atRule a => a.id

def withId (i : Int) : Node → Node
  | rule r => rule { r with id := i }
  | comment c => comment { c with id := i }
  | atRule a => atRule { a with id := i }

def rule? : Node → Option Rule
  | rule r => some r
  | _ => none

def comment? : Node → Option Comment
  | comment c => some c
  | _ => none

/-- The ids of a node and of the items of its body. -/
def ids : Node → List Int
  | rule r => r.id :: r.body.map BodyItem.id
  | comment c => [c.id]
  | atRule a => [a.id]

end Node

/-- The id that an item keeps, or the next free one if it has none, and the last
id in use afterwards. -/
def claimId (last id : Int) : Int × Int :=
  if id = 0 then (last + 1, last + 1) else (id, last)

/-- Gives ids in order to the body items that have none. -/
def numberBody (last : Int) : List BodyItem → List BodyItem × Int
  | [] => ([], last)
  | item :: items =>
    let claimed := claimId last item.id
    let numbered := numberBody claimed.2 items
    (item.withId claimed.1 :: numbered.1, numbered.2)

/-- Gives ids in order to the nodes and body items that have none, a rule before
its body. -/
def numberNodes (last : Int) : List Node → List Node × Int
  | [] => ([], last)
  | .rule r :: nodes =>
    let claimed := claimId last r.id
    let body := numberBody claimed.2 r.body
    let numbered := numberNodes body.2 nodes
    (.rule { r with body := body.1, id := claimed.1 } :: numbered.1, numbered.2)
  | node :: nodes =>
    let claimed := claimId last node.id
    let numbered := numberNodes claimed.2 nodes
    (node.withId claimed.1 :: numbered.1, numbered.2)

/-- The highest of `last` and the ids of `nodes`. -/
def highestId (last : Int) (nodes : List Node) : Int :=
  (nodes.flatMap Node.ids).foldl max last

namespace Stylesheet

/-- The stylesheet with these nodes; those without an id get one. -/
def ofNodes (nodes : List Node) : Stylesheet :=
  let numbered := numberNodes (highestId 0 nodes) nodes
  { nodes := numbered.1, lastId := numbered.2 }

/-- Puts `nodes` in front, in their order; those without an id get one. -/
def prepend (sheet : Stylesheet) (nodes : List Node) : Stylesheet :=
  let numbered := numberNodes (highestId sheet.lastId nodes) nodes
  { nodes := numbered.1 ++ sheet.nodes, lastId := numbered.2 }

/-- A fresh id, and the sheet that remembers having given it out. -/
def newId (sheet : Stylesheet) : Int × Stylesheet :=
  (sheet.lastId + 1, { sheet with lastId := sheet.lastId + 1 })

def rules (sheet : Stylesheet) : List Rule := sheet.nodes.filterMap Node.rule?

def comments (sheet : Stylesheet) : List Comment := sheet.nodes.filterMap Node.comment?

/-- The first rule with this id. -/
def findRule (sheet : Stylesheet) (id : Int) : Option Rule := sheet.rules.find? (·.id == id)

/-- Puts `r` in the place of the first rule with this id. -/
def setRule (sheet : Stylesheet) (id : Int) (r : Rule) : Stylesheet :=
  { sheet with nodes := setIn sheet.nodes }
where
  setIn : List Node → List Node
    | [] => []
    | .rule old :: nodes => if old.id = id then .rule r :: nodes else .rule old :: setIn nodes
    | node :: nodes => node :: setIn nodes

end Stylesheet

end Spriting.Css
