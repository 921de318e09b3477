import Spriting.Proofs.Build.Frame

/-!
# What a sheet begins with

An import is followed only as long as no rule stands in front of it.  A build keeps the
order of all nodes of a sheet and turns rules into rules, so whatever stood in front of the
first rule still stands in front of every rule that the sheet had.  The rules of the sprite
sheets are put in front of all nodes, so nothing of the sheet leads as soon as there is one.

* `leading_framed`, `leading_rules_append`: what leads before and after a build;
* `process_leading`: and for which sheets that is the same.
-/

namespace Spriting.Build

open Background Css Emission Files Layout Sprite

/-- The nodes that no rule stands in front of. -/
def leading (nodes : List Node) : List Node := nodes.takeWhile fun n => n.rule?.isNone

@[simp] theorem leading_cons_rule (r : Rule) (nodes : List Node) :
    leading (.rule r :: nodes) = [] := rfl

/-- Behind rules nothing leads. -/
theorem leading_rules_append (front : List Rule) (rest : List Node) :
    leading (front.map .rule ++ rest) = if front = [] then leading rest else [] := by
  cases front with
  | nil => simp
  | cons r front => simp

variable {σ : Type} {site : Site σ} {sheet : Stylesheet} {p : Progress}
  {source resource text : String}

/-- A build turns rules, and nothing else, into rules. -/
theorem Framed.eq_or_rules {n n' : Node} (h : Framed site sheet p n n') :
    n' = n ∨ ∃ r r', n = .rule r ∧ n' = .rule r' := by
  cases h with
  | kept hkept => exact .inl rfl
  | placed => exact .inr ⟨_, _, rfl, rfl⟩

/-- What leads the nodes of a sheet leads them after its groups have been placed. -/
theorem leading_framed {nodes rest : List Node}
    (h : List.Forall₂ (Framed site sheet p) nodes rest) : leading rest = leading nodes := by
  induction h with
  | nil => rfl
  | @cons n n' nodes rest hframed _ ih =>
    obtain rfl | ⟨r, r', rfl, rfl⟩ := hframed.eq_or_rules
    · cases n' with
      | rule r => rfl
      | comment c => exact congrArg (Node.comment c :: ·) ih
      | atRule a => exact congrArg (Node.atRule a :: ·) ih
    · rfl

/-- There is a rule in front exactly if a group has a selector. -/
theorem front_eq_nil_iff {front : List Rule} {gs : List Group}
    (h : List.Forall₂ (Names sheet p) (withSelectors sheet gs.reverse) front) :
    front = [] ↔ withSelectors sheet gs = [] := by
  rw [← List.length_eq_zero_iff, ← h.length_eq, withSelectors_reverse, List.length_reverse,
    List.length_eq_zero_iff]

variable [FileSink σ]

/-- **What leads a sheet.** Whenever a build of a sheet that asks for sprite sheets completes,
the sheet that is written has in front a rule for each group with a selector, and behind them
all that the sheet had.  An at-rule that no rule stood in front of, such as an import, has no
rule of the sheet in front of it afterwards.  It has no rule at all in front of it exactly if
no group has a selector. -/
theorem process_leading (site : Site σ) (storage : Storage) (hparse : parse source = .ok sheet)
    (henabled : isEnabled sheet = true)
    (h : (process site storage source resource).result = .ok text) :
    ∃ p, runGroups site storage sheet resource = (p, .ok ()) ∧
      text = p.finished.render site.settings.style ∧
      ∃ (front : List Rule) (rest : List Node),
        p.finished.nodes = front.map .rule ++ rest ∧
        List.Forall₂ (Names sheet p) (withSelectors sheet (groups sheet).reverse) front ∧
        List.Forall₂ (Framed site sheet p) sheet.nodes rest ∧
        ∀ a : AtRule, .atRule a ∈ leading sheet.nodes →
          .atRule a ∈ leading rest ∧
          (.atRule a ∈ leading p.finished.nodes ↔ withSelectors sheet (groups sheet) = []) := by
  obtain ⟨p, hrun, htext⟩ := runGroups_of_process hparse henabled h
  have hdistinct := parse_distinct hparse
  have hframed := runGroups_framed hdistinct hrun
  obtain ⟨front, hnodes, hnames⟩ := runGroups_names hdistinct.ruleIds_nodup hrun
  refine ⟨p, hrun, htext, front, p.sheet.nodes, hnodes, hnames, hframed, ?_⟩
  intro a ha
  have hrest : .atRule a ∈ leading p.sheet.nodes := by rwa [leading_framed hframed]
  refine ⟨hrest, ?_⟩
  rw [hnodes, leading_rules_append, ← front_eq_nil_iff hnames]
  constructor
  · intro hmem
    by_contra hfront
    rw [if_neg hfront] at hmem
    exact absurd hmem List.not_mem_nil
  · intro hfront
    rwa [if_pos hfront]

def importBase : AtRule := { name := "import", prelude := "url(base.css)", id := 2 }

def importing : String :=
  "/*sprite-loader-enable*/@import url(base.css);a\x7bbackground:url(dot.png)\x7d"

def importingSheet : Stylesheet where
  nodes :=
    [.comment { text := "sprite-loader-enable", id := 1 },
     .atRule importBase,
     .rule
      { selectors := ["a"], body := [.declaration ⟨"background", "url(dot.png)", 4⟩], id := 3 }]
  lastId := 4

theorem parse_importing : parse importing = .ok importingSheet :=
  parse_of_toList String.toList_ofList (by decide +kernel)

theorem isEnabled_importingSheet : isEnabled importingSheet = true := by decide

theorem importBase_leads : .atRule importBase ∈ leading importingSheet.nodes := by decide

theorem groups_importingSheet :
    groups importingSheet = [⟨⟨.single, .once⟩, [⟨"dot.png", 3, 4, ["a"]⟩]⟩] := by decide +kernel

theorem process_importing :
    ∃ text, (process memorySite twoImages importing "a.css").result = .ok text := by
  have completes : (runGroups memorySite twoImages importingSheet "a.css").2 = .ok () := by
    rw [runGroups, groups_importingSheet]
    decide +kernel
  rw [process_result parse_importing isEnabled_importingSheet, completes]
  exact ⟨_, rfl⟩

/-- The import stays in front of the rule that the sheet had, behind the new one. -/
theorem process_leading_import :
    parse importing = .ok importingSheet ∧ isEnabled importingSheet = true ∧
    .atRule importBase ∈ leading importingSheet.nodes ∧
    ∃ text, (process memorySite twoImages importing "a.css").result = .ok text ∧
      ∃ (p : Progress) (r : Rule) (rest : List Node), text = p.finished.render (.pretty "  ") ∧
        p.finished.nodes = .rule r :: rest ∧ r.selectors = ["a"] ∧
        .atRule importBase ∈ leading rest ∧ .atRule importBase ∉ leading p.finished.nodes := by
  obtain ⟨text, hresult⟩ := process_importing
  obtain ⟨p, -, htext, front, rest, hnodes, hnames, -, leads⟩ :=
    process_leading memorySite twoImages parse_importing isEnabled_importingSheet hresult
  obtain ⟨hrest, hfinished⟩ := leads importBase importBase_leads
  have selectors : withSelectors importingSheet (groups importingSheet).reverse =
      [⟨⟨.single, .once⟩, [⟨"dot.png", 3, 4, ["a"]⟩]⟩] := by
    rw [groups_importingSheet]
    decide
  rw [groups_importingSheet] at hfinished
  rw [selectors] at hnames
  cases hnames with
  | @cons _ r _ _ hdot hnames =>
    cases hnames
    refine ⟨parse_importing, isEnabled_importingSheet, importBase_leads, text, hresult, p, r, rest,
      htext, hnodes, ?_, hrest, mt hfinished.1 (by decide)⟩
    rw [hdot.selectors]
    decide

/-- The import leads its sheet, and in what is written of the sheet it does not. -/
theorem import_left_behind :
    ∃ p text, parse importing = .ok importingSheet ∧ isEnabled importingSheet = true ∧
      (process memorySite twoImages importing "a.css").result = .ok text ∧
      runGroups memorySite twoImages importingSheet "a.css" = (p, .ok ()) ∧
      text = p.finished.render memorySite.settings.style ∧
      .atRule importBase ∈ leading importingSheet.nodes ∧
      .atRule importBase ∈ p.finished.nodes ∧ .atRule importBase ∉ leading p.finished.nodes := by
  obtain ⟨text, hresult⟩ := process_importing
  obtain ⟨p, hrun, htext⟩ :=
    runGroups_of_process parse_importing isEnabled_importingSheet hresult
  have hp : p = (runGroups memorySite twoImages importingSheet "a.css").1 := by rw [hrun]
  refine ⟨p, text, parse_importing, isEnabled_importingSheet, hresult, hrun, htext,
    importBase_leads, ?_, ?_⟩
  · rw [hp, runGroups, groups_importingSheet]
    decide +kernel
  · rw [hp, runGroups, groups_importingSheet]
    decide +kernel

end Spriting.Build
