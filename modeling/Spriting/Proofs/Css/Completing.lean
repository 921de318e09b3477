import Spriting.Proofs.Css.Passing

/-!
# Where a source is refused

The parser refuses a source at the first lexeme that cannot come next, or at its end.  What
stands before that place was read, so something is open there, and whatever is open can be
finished: with braces, with a colon before them, or with a semicolon.

* `exists_passes_of_error`: up to the error the source is read;
* `Pending.completion`: a text that finishes what is open, and may come next there;
* `Position.Behind`: the line and the column of a place, both counted from 1;
* `parse_error_points`: errors point at a front that could have been completed.
-/

namespace Spriting.Css

open Text Reader

variable {p q : Pending} {s r u : List Char}

/-! ## Up to the error -/

/-- What is found instead of a lexeme is the end only where the source ends. -/
theorem unexpected_ne_ending (h : s ≠ []) : unexpected s ≠ .ending := by
  obtain ⟨c, s, rfl⟩ := List.exists_cons_of_ne_nil h
  unfold unexpected
  split <;> exact nofun

/-- A source that is refused is read up to the error. -/
theorem exists_passes_of_error {cause : Unexpected} (h : parseFrom p s = .error (cause, r)) :
    (∃ ts ns q, Passes p s ts ns q r) ∧ (cause = .ending ↔ r = []) := by
  fun_induction parseFrom p s with
  | case1 => cases h
  | case2 =>
    cases h
    exact ⟨⟨_, _, _, .start⟩, by simp⟩
  | case3 p s _ g m hg ih =>
    obtain ⟨⟨ts, ns, q, hpasses⟩, hcause⟩ := ih h
    exact ⟨⟨ts, ns, q, .gap hg hpasses⟩, hcause⟩
  | case4 p s hs =>
    cases h
    exact ⟨⟨_, _, _, .start⟩, by simp [hs, unexpected_ne_ending hs]⟩
  | case5 p s hs =>
    cases h
    exact ⟨⟨_, _, _, .start⟩, by simp [hs, unexpected_ne_ending hs]⟩
  | case6 p s _ hg t l m hl node? p' hp ih =>
    cases hrest : parseFrom p' m with
    | ok ns =>
      rw [hrest] at h
      cases h
    | error e =>
      rw [hrest] at h
      cases h
      obtain ⟨⟨ts, ns, q, hpasses⟩, hcause⟩ := ih hrest
      exact ⟨⟨_, _, q, .lexeme hg hl hp hpasses⟩, hcause⟩

/-! ## Finishing what is open -/

/-- A text that finishes what is open. -/
def Pending.completion : Pending → List Char
  | nothing => []
  | selector _ => ['\x7b', '\x7d']
  | property _ _ _ => [':', '\x7d']
  | keyword _ | prelude _ _ => [';']
  | block _ _ depth _ => List.replicate (depth + 1) '\x7d'
  | _ => ['\x7d']

theorem completion_allowed (p : Pending) (r : List Char) : p.Allows r p.completion := by
  cases p with
  | nothing => trivial
  | selector text => exact ⟨'\x7b', ['\x7d'], rfl, .inr (.inl rfl)⟩
  | body s items => trivial
  | property s items n => exact fun _ => rfl
  | colon s items n => trivial
  | value s items n v => exact ⟨'\x7d', [], rfl, .inr (.inr rfl)⟩
  | keyword n => exact fun _ => rfl
  | prelude n x => exact ⟨';', [], rfl, .inl rfl⟩
  | block n x depth pieces => exact .inr ⟨'\x7d', List.replicate depth '\x7d', rfl, .inr rfl⟩

theorem completion_subset (p : Pending) : p.completion ⊆ ['\x7b', '\x7d', ':', ';'] := by
  cases p with
  | block n x depth pieces =>
    intro c hc
    rw [List.eq_of_mem_replicate hc]
    decide
  | _ => simp [Pending.completion]

theorem completion_shields (p : Pending) (r : List Char) : Shields r p.completion where
  head c hc := by
    have marks : ['\x7b', '\x7d', ':', ';'].all (fun c => c != '*' && c != '/') = true := by decide
    simpa using List.all_eq_true.1 marks c (completion_subset p (List.mem_of_head? hc))
  quiet _ := quiet_of_notMem fun hstar => absurd (completion_subset p hstar) (by decide)

theorem blockRest_replicate (depth : Nat) :
    BlockRest depth (List.replicate (depth + 1) '\x7d') := by
  induction depth with
  | zero => exact .close
  | succ depth ih => exact .inner ih

/-- Whatever is open, its completion finishes it. -/
theorem parseFrom_completion (p : Pending) : ∃ ns, parseFrom p p.completion = .ok ns := by
  have closed : ∀ {p : Pending} {n : Node} {c : Char} {t : Terminal},
      t.reader.read [c] = some ([c], []) → p.shift [c] t = some (some n, .nothing) →
      parseFrom p [c] = .ok [n] := by
    intro p n c t hread hshift
    rw [parseFrom_end hread hshift, parseFrom_nil, if_pos rfl]
    rfl
  cases p with
  | nothing => exact ⟨[], parseFrom_nil .nothing⟩
  | selector text =>
    refine ⟨[ruleOf text []], ?_⟩
    rw [Pending.completion,
      parseFrom_mark (t := .openBrace) (q := .body text []) rfl rfl]
    exact closed (t := .closeBrace) rfl rfl
  | body s items => exact ⟨_, closed (t := .closeBrace) rfl rfl⟩
  | property s items n =>
    refine ⟨[ruleOf s (declarationOf n [] :: items)], ?_⟩
    rw [Pending.completion,
      parseFrom_mark (t := .colon) (q := .colon s items n) rfl rfl]
    exact closed (t := .closeBrace) rfl rfl
  | colon s items n => exact ⟨_, closed (t := .closeBrace) rfl rfl⟩
  | value s items n v => exact ⟨_, closed (t := .closeBrace) rfl rfl⟩
  | keyword n => exact ⟨_, closed (t := .semicolon) rfl rfl⟩
  | prelude n x => exact ⟨_, closed (t := .semicolon) rfl rfl⟩
  | block n x depth pieces =>
    have hblock := (blockRest_replicate depth).parseFrom_eq (n := n) (q := x) pieces []
    rw [List.append_nil, parseFrom_nil, if_pos rfl] at hblock
    exact ⟨_, hblock⟩

/-- What has been read can be completed. -/
theorem Passes.completes {ts : List (Terminal × List Char)} {ns : List Node} {m : List Char}
    (h : Passes p (m ++ r) ts ns q r) : ∃ ns', parseFrom p (m ++ q.completion) = .ok ns' := by
  obtain ⟨ns', hns'⟩ := parseFrom_completion q
  refine ⟨ns ++ ns', ?_⟩
  rw [h.parseFrom_front rfl (fun _ _ => .inr (completion_shields q r)) (completion_allowed q r), hns']
  rfl

/-! ## The place of an error -/

/-- `pos` is the place behind `before`: it counts the lines, and the characters of the last line,
from 1. -/
structure Position.Behind (pos : Position) (before : List Char) : Prop where
  line : pos.line = before.count '\n' + 1
  column : ∃ lines last, before = lines ++ last ∧ (lines = [] ∨ lines.getLast? = some '\n') ∧
    '\n' ∉ last ∧ pos.column = last.length + 1

/-- The lines of a text before its last one, and the last one. -/
theorem exists_last_line (before : List Char) :
    ∃ lines last, before = lines ++ last ∧ (lines = [] ∨ lines.getLast? = some '\n') ∧
      '\n' ∉ last ∧ (before.reverse.takeWhile (· ≠ '\n')).length = last.length := by
  have split := List.takeWhile_append_dropWhile (p := (· ≠ '\n')) (l := before.reverse)
  refine ⟨(before.reverse.dropWhile (· ≠ '\n')).reverse,
    (before.reverse.takeWhile (· ≠ '\n')).reverse, ?_, ?_, ?_, by simp⟩
  · rw [← List.reverse_append, split, List.reverse_reverse]
  · cases hrest : before.reverse.dropWhile (· ≠ '\n') with
    | nil => exact .inl rfl
    | cons c rest =>
      have hc := List.head?_dropWhile_not (· ≠ '\n') before.reverse
      rw [hrest] at hc
      exact .inr (by simpa using hc)
  · intro hmem
    have := List.mem_takeWhile_imp (List.mem_reverse.1 hmem)
    simp at this

theorem position_after (before : List Char) : (Position.after before).Behind before := by
  obtain ⟨lines, last, hbefore, hlines, hlast, hlength⟩ := exists_last_line before
  exact ⟨rfl, lines, last, hbefore, hlines, hlast, by rw [Position.after, hlength]⟩

/-- A text has one last line only. -/
theorem last_line_before {lines last more last' : List Char} (hlast : '\n' ∉ last)
    (h : last = more ++ last')
    (hlines : lines ++ more = [] ∨ (lines ++ more).getLast? = some '\n') : last = last' := by
  rcases more.eq_nil_or_concat with rfl | ⟨more, c, rfl⟩
  · exact h
  · rw [List.concat_eq_append] at h hlines
    have hc : c = '\n' := by simpa [← List.append_assoc] using hlines
    subst h
    exact absurd (by simp [hc]) hlast

theorem last_line_unique {lines last lines' last' : List Char}
    (h : lines ++ last = lines' ++ last') (hlines : lines = [] ∨ lines.getLast? = some '\n')
    (hlines' : lines' = [] ∨ lines'.getLast? = some '\n') (hlast : '\n' ∉ last)
    (hlast' : '\n' ∉ last') : last = last' := by
  rcases List.append_eq_append_iff.1 h with ⟨more, rfl, hmore⟩ | ⟨more, rfl, hmore⟩
  · exact last_line_before hlast hmore hlines'
  · exact (last_line_before hlast' hmore hlines).symm

/-- A place is behind one front of a text only. -/
theorem Position.Behind.unique {pos : Position} {before more : List Char}
    (h : pos.Behind before) (h' : pos.Behind (before ++ more)) : more = [] := by
  have hcount : more.count '\n' = 0 := by
    have := h.line.symm.trans h'.line
    rw [List.count_append] at this
    omega
  obtain ⟨lines, last, rfl, hlines, hlast, hcolumn⟩ := h.column
  obtain ⟨lines', last', heq, hlines', hlast', hcolumn'⟩ := h'.column
  rw [List.append_assoc] at heq
  have hmore : '\n' ∉ last ++ more := by
    rw [List.mem_append]
    exact not_or.2 ⟨hlast, List.count_eq_zero.1 hcount⟩
  have hlength := congrArg List.length (last_line_unique heq hlines hlines' hmore hlast')
  rw [List.length_append] at hlength
  exact List.length_eq_zero_iff.1 (by omega)

/-- The error points at the place behind the first `n` characters, or at the end. -/
def ParseError.PointsAt (e : ParseError) (source : List Char) (n : Nat) : Prop :=
  n ≤ source.length ∧
    match e.position with
    | some pos => pos.Behind (source.take n)
    | none => n = source.length

theorem Position.Behind.eq_of_take {pos : Position} {source : List Char} {n n' : Nat}
    (hn' : n' ≤ source.length) (hle : n ≤ n') (h : pos.Behind (source.take n))
    (h' : pos.Behind (source.take n')) : n' = n := by
  have split : source.take n' = source.take n ++ (source.take n').drop n := by
    conv => lhs; rw [← List.take_append_drop n (source.take n')]
    rw [List.take_take, Nat.min_eq_left hle]
  rw [split] at h'
  have hnone := congrArg List.length (h.unique h')
  rw [List.length_drop, List.length_take, List.length_nil] at hnone
  omega

/-- An error points at one place only. -/
theorem ParseError.PointsAt.unique {e : ParseError} {source : List Char} {n n' : Nat}
    (h : e.PointsAt source n) (h' : e.PointsAt source n') : n' = n := by
  obtain ⟨hn, hpos⟩ := h
  obtain ⟨hn', hpos'⟩ := h'
  cases heq : e.position with
  | none =>
    rw [heq] at hpos hpos'
    exact hpos'.trans hpos.symm
  | some pos =>
    rw [heq] at hpos hpos'
    rcases Nat.le_total n n' with hle | hle
    · exact hpos.eq_of_take hn' hle hpos'
    · exact (hpos'.eq_of_take hn hle hpos).symm

/-- A source that is refused is read up to the place that the error points at. -/
theorem parseNodes_refuses {e : ParseError} (h : parseNodes s = .error e) :
    ∃ before left ts ns q, s = before ++ left ∧ Passes .nothing s ts ns q left ∧
      e.PointsAt s before.length := by
  cases hfrom : parseFrom .nothing s with
  | ok ns =>
    rw [parseNodes, hfrom] at h
    cases h
  | error refused =>
    obtain ⟨cause, left⟩ := refused
    obtain ⟨⟨ts, ns, q, hpasses⟩, hending⟩ := exists_passes_of_error hfrom
    obtain ⟨before, rfl⟩ := hpasses.splits
    refine ⟨before, left, ts, ns, q, rfl, hpasses, ?_⟩
    rw [parseNodes, hfrom] at h
    cases h
    refine ⟨by simp, ?_⟩
    by_cases hleft : left = []
    · simp [hending, hleft]
    · have hplace : (before ++ left).take ((before ++ left).length - left.length) = before := by
        simp
      simp only [hending, hleft, if_false, hplace, List.take_left]
      exact position_after before

/-- **Errors point at a front that could have been completed.** A source that is refused is
refused at exactly one place, the line and the column of the error or, where it has none, the end
of the source; and some text behind what stands before that place makes a source that is read. -/
theorem parse_error_points {source : String} {e : ParseError} (h : parse source = .error e) :
    ∃ n, e.PointsAt source.toList n ∧ (∀ n', e.PointsAt source.toList n' → n' = n) ∧
      ∃ (text : String) (sheet : Stylesheet),
        parse (String.ofList (source.toList.take n) ++ text) = .ok sheet := by
  have hnodes : parseNodes source.toList = .error e := by
    rw [parse] at h
    cases hnodes : parseNodes source.toList with
    | ok ns =>
      rw [hnodes] at h
      cases h
    | error e' =>
      rw [hnodes] at h
      cases h
      rfl
  obtain ⟨before, left, ts, ns, q, hsplit, hpasses, hpoints⟩ := parseNodes_refuses hnodes
  refine ⟨before.length, hpoints, fun n' hn' => hpoints.unique hn', ?_⟩
  rw [hsplit] at hpasses
  rw [hsplit, List.take_left]
  obtain ⟨ns', hns'⟩ := hpasses.completes
  refine ⟨String.ofList q.completion, .ofNodes ns', parse_eq_ok_iff.2 ⟨ns', ?_, rfl⟩⟩
  rw [parseNodes_eq_ok_iff_parseFrom, String.toList_append, String.toList_ofList,
    String.toList_ofList]
  exact hns'

/-- The quote that is never closed stands behind a comment that a prelude leaves open. -/
theorem parse_error_points_prelude :
    let source := "a\x7bb:c\x7d\n@m /*\x7b\x7b \x7d\n \" \x7d"
    let e : ParseError := { cause := .character '"', position := some ⟨3, 2⟩ }
    parse source = .error e ∧
    ∃ n, e.PointsAt source.toList n ∧ (∀ n', e.PointsAt source.toList n' → n' = n) ∧
      ∃ (text : String) (sheet : Stylesheet),
        parse (String.ofList (source.toList.take n) ++ text) = .ok sheet := by
  intro source e
  have refused : parse source = .error e := by decide +kernel
  exact ⟨refused, parse_error_points refused⟩

end Spriting.Css
