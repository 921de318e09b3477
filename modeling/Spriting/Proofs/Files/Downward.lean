import Spriting.Proofs.Files.Making

/-!
# Paths that stay below a directory

A path that is joined to a directory leads below it unless it starts with a slash or climbs
out with a `..`.  Collapsing tells which: a `..` that has no name to take back stays, whatever
follows.

* `walk_collapse`: where names lead when all their `..` are taken back;
* `FileTree.HasDirectory.entry?`: all that is passed on the way to a directory that is there;
* `Path.Inward.lands_join`, `Path.Inward.passes_join`: what a path that leads inwards lands at
  and passes when it is joined to a directory;
* `Path.below_iff_inward`: no other path lands below the directory without saying its name.
-/

namespace Spriting.Files

/-- `q` is in the directory at `place`, or further below. -/
def Below (place q : Place) : Prop := place <+: q ∧ q ≠ place

instance (place q : Place) : Decidable (Below place q) := inferInstanceAs (Decidable (_ ∧ _))

theorem below_append_name {place q : Place} (name : String) (h : place <+: q) :
    Below place (q ++ [name]) := by
  refine ⟨h.trans (List.prefix_append q [name]), ?_⟩
  intro heq
  have hlen := h.length_le
  rw [← heq, List.length_append, List.length_singleton] at hlen
  omega

/-- A name that stands for itself or for the directory above. -/
def IsStep (name : String) : Prop := name ≠ "" ∧ name ≠ "."

instance (name : String) : Decidable (IsStep name) := inferInstanceAs (Decidable (_ ∧ _))

/-- A path that says nothing needlessly. -/
def Path.Plain (p : Path) : Prop := ∀ name ∈ p.names, IsStep name

instance (p : Path) : Decidable p.Plain := inferInstanceAs (Decidable (∀ name ∈ p.names, _))

theorem Path.ofString_plain (text : String) : (Path.ofString text).Plain := by
  intro name hname
  simpa [IsStep] using (List.mem_filter.1 hname).2

theorem Path.place_eq_of_lands {work q : Place} {p : Path} (hplain : p.Plain) (h : p.Lands work q) :
    q = p.place work := by
  obtain ⟨above, name, hnames, hup, rfl⟩ := h
  have hstep : ¬ (name = "" ∨ name = ".") := not_or.2 (hplain name (by simp [hnames]))
  rw [Path.place, hnames, walk_append, walk_cons, walk_nil, FileTree.stepTo, if_neg hstep,
    if_neg hup]

/-! ## Directories that are there -/

/-- `root` leads to a directory of `t`. -/
def FileTree.HasDirectory (t : FileTree) (work : Place) (root : Path) : Prop :=
  ∃ place, t.follow (root.start work) root.names = .ok place ∧ t.entry? place = some .directory

/-- Names can be followed only through directories. -/
theorem FileTree.entry?_of_follow {t : FileTree} {place q : Place} {names front : List String}
    (h : t.follow place names = .ok q) (hq : t.entry? q = some .directory)
    (hfront : front <+: names) : t.entry? (walk place front) = some .directory := by
  induction names generalizing place front with
  | nil =>
    cases List.prefix_nil.1 hfront
    cases h
    exact hq
  | cons name names ih =>
    unfold follow at h
    split at h
    · cases h
    · rename_i hplace
      split at h
      · cases h
      · cases front with
        | nil => exact hplace
        | cons name' front =>
          obtain ⟨rfl, hrest⟩ := List.cons_prefix_cons.1 hfront
          rw [walk_cons]
          exact ih h hrest
    · cases h

/-- Nothing is missing on the way to a directory that is there. -/
theorem FileTree.HasDirectory.entry? {t : FileTree} {work q : Place} {root : Path}
    (h : t.HasDirectory work root) (hplain : root.Plain) (hq : root.Passes work q) :
    t.entry? q = some .directory := by
  obtain ⟨place, hfollow, hplace⟩ := h
  obtain ⟨names, hfront, hlands⟩ := hq
  have hsteps : Path.Plain ⟨root.slashes, names⟩ := fun name hname =>
    hplain name (hfront.subset hname)
  rw [Path.place_eq_of_lands hsteps hlands]
  exact entry?_of_follow hfollow hplace hfront

/-! ## Collapsing -/

variable {names front stack : List String} {name : String} {place : Place}

/-- A `..` that could not be taken back stays. -/
theorem mem_collapseName (h : ".." ∈ stack) : ".." ∈ Path.collapseName false stack name := by
  unfold Path.collapseName
  by_cases hname : name = ".."
  · rw [if_pos hname]
    cases stack with
    | nil => cases h
    | cons last before =>
      by_cases hlast : last = ".."
      · simp [hlast]
      · simpa [hlast, Ne.symm hlast] using h
  · rw [if_neg hname]
    exact List.mem_cons_of_mem name h

theorem mem_foldl_collapseName (names : List String) (h : ".." ∈ stack) :
    ".." ∈ names.foldl (Path.collapseName false) stack := by
  induction names generalizing stack with
  | nil => exact h
  | cons name names ih => exact ih (mem_collapseName h)

/-- As long as every `..` can be taken back, a step and collapsing do the same. -/
theorem stepTo_collapseName (hstep : IsStep name)
    (h : ".." ∉ Path.collapseName false stack name) :
    FileTree.stepTo (place ++ stack.reverse) name =
      place ++ (Path.collapseName false stack name).reverse := by
  have hstay : ¬ (name = "" ∨ name = ".") := not_or.2 hstep
  unfold Path.collapseName at h ⊢
  unfold FileTree.stepTo
  rw [if_neg hstay]
  by_cases hname : name = ".."
  · rw [if_pos hname] at h ⊢
    rw [if_pos hname]
    cases stack with
    | nil => simp [hname] at h
    | cons last before =>
      by_cases hlast : last = ".."
      · simp [hlast] at h
      · simp [hlast, ← List.append_assoc]
  · rw [if_neg hname, if_neg hname, List.reverse_cons, List.append_assoc]

/-- Names whose `..` can all be taken back lead where the collapsed names lead. -/
theorem walk_collapse (hsteps : ∀ name ∈ names, IsStep name)
    (h : ".." ∉ names.foldl (Path.collapseName false) stack) :
    walk (place ++ stack.reverse) names =
      place ++ (names.foldl (Path.collapseName false) stack).reverse := by
  induction names generalizing stack with
  | nil => rfl
  | cons name names ih =>
    obtain ⟨hstep, hsteps⟩ := List.forall_mem_cons.1 hsteps
    have hnext : ".." ∉ Path.collapseName false stack name := mt (mem_foldl_collapseName names) h
    rw [walk_cons, stepTo_collapseName hstep hnext]
    exact ih hsteps h

/-! ## Leading inwards -/

namespace Path

/-- A path leads inwards if it does not start with a slash, says something, and all its `..`
can be taken back. -/
structure Inward (p : Path) : Prop where
  relative : p.isAbsolute = false
  named : p.names ≠ []
  inside : ".." ∉ p.collapse.names

instance (p : Path) : Decidable p.Inward :=
  decidable_of_iff (p.isAbsolute = false ∧ p.names ≠ [] ∧ ".." ∉ p.collapse.names)
    ⟨fun ⟨relative, named, inside⟩ => ⟨relative, named, inside⟩, fun h => ⟨h.1, h.2, h.3⟩⟩

variable {work q : Place} {root p : Path}

/-- No front of a path that leads inwards leaves the place that it starts from. -/
theorem Inward.prefix_walk (h : p.Inward) (hplain : p.Plain)
    (hfront : front <+: p.names) (place : Place) : place <+: walk place front := by
  obtain ⟨rest, hrest⟩ := hfront
  have hinside : ".." ∉ (front ++ rest).foldl (collapseName false) [] := by
    have inside := h.inside
    unfold collapse at inside
    rwa [List.mem_reverse, h.relative, ← hrest] at inside
  rw [List.foldl_append] at hinside
  have hfrontsteps : ∀ name ∈ front, IsStep name := fun name hname =>
    hplain name (hrest ▸ List.mem_append_left rest hname)
  have hwalk : walk (place ++ [].reverse) front =
      place ++ (front.foldl (collapseName false) []).reverse :=
    walk_collapse hfrontsteps (mt (mem_foldl_collapseName rest) hinside)
  rw [List.reverse_nil, List.append_nil] at hwalk
  rw [hwalk]
  exact List.prefix_append place _

theorem Inward.join (h : p.Inward) (root : Path) :
    root.join p = { root with names := root.names ++ p.names } := by
  rw [Path.join, if_neg (by simp [h.relative])]

/-- Joined to a directory, a path that leads inwards passes only places below it and on the way
to it. -/
theorem Inward.passes_join (h : p.Inward) (hplain : p.Plain)
    (hq : (root.join p).Passes work q) : Below (root.place work) q ∨ root.Passes work q := by
  rw [h.join root] at hq
  obtain ⟨_, hfront, above, name, rfl, hup, rfl⟩ := hq
  rcases Nat.lt_or_ge root.names.length (above ++ [name]).length with hlen | hlen
  · left
    have hroot : root.names <+: above :=
      List.prefix_of_prefix_length_le (List.prefix_append root.names p.names)
        ((List.prefix_append above [name]).trans hfront) (by simpa [Nat.lt_succ_iff] using hlen)
    obtain ⟨mid, rfl⟩ := hroot
    rw [List.append_assoc, List.prefix_append_right_inj] at hfront
    rw [walk_append]
    exact below_append_name name
      (h.prefix_walk hplain ((List.prefix_append mid [name]).trans hfront) (root.place work))
  · right
    exact ⟨above ++ [name],
      List.prefix_of_prefix_length_le hfront (List.prefix_append root.names p.names) hlen,
      above, name, rfl, hup, rfl⟩

/-- A path that goes on from a directory lands under the last of its own names. -/
theorem Lands.of_append (hq : Lands work { root with names := root.names ++ names } q)
    (hnamed : names ≠ []) :
    ∃ front name, names = front ++ [name] ∧ name ≠ ".." ∧
      q = walk (root.place work) front ++ [name] := by
  obtain ⟨above, name, hnames, hup, rfl⟩ := hq
  obtain ⟨front, last, rfl⟩ : ∃ front last, names = front ++ [last] :=
    ⟨_, _, (List.dropLast_concat_getLast hnamed).symm⟩
  rw [← List.append_assoc] at hnames
  obtain ⟨rfl, hlast⟩ := List.append_inj' hnames rfl
  cases hlast
  refine ⟨front, name, rfl, hup, ?_⟩
  rw [walk_append]
  rfl

/-- Joined to a directory, a path that leads inwards lands below it. -/
theorem Inward.lands_join (h : p.Inward) (hplain : p.Plain)
    (hq : (root.join p).Lands work q) : Below (root.place work) q := by
  rw [h.join root] at hq
  obtain ⟨front, name, hnames, -, rfl⟩ := hq.of_append h.named
  have hfront : front <+: p.names := hnames ▸ List.prefix_append front [name]
  exact below_append_name name (h.prefix_walk hplain hfront (root.place work))

/-! ## Leading outwards -/

/-- The directory that `root` leads to has a name, and `p` does not say it. -/
structure Foreign (work : Place) (root p : Path) : Prop where
  plain : root.Plain
  unsaid : ∃ above last, root.place work = above ++ [last] ∧ last ∉ p.names

end Path

/-- `q` branches off before the name `last` that follows `above`. -/
def BranchesOff (above : Place) (last : String) (q : Place) : Prop :=
  ∃ shared own, q = shared ++ own ∧ shared <+: above ∧ last ∉ own

variable {above q : Place} {last : String}

theorem BranchesOff.append_name (h : BranchesOff above last q) (hname : name ≠ last) :
    BranchesOff above last (q ++ [name]) := by
  obtain ⟨shared, own, rfl, hshared, hown⟩ := h
  refine ⟨shared, own ++ [name], List.append_assoc .., hshared, ?_⟩
  simp [hown, Ne.symm hname]

theorem BranchesOff.dropLast (h : BranchesOff above last q) :
    BranchesOff above last q.dropLast := by
  obtain ⟨shared, own, rfl, hshared, hown⟩ := h
  by_cases hnil : own = []
  · subst hnil
    rw [List.append_nil]
    exact ⟨shared.dropLast, [], by simp, (List.dropLast_prefix shared).trans hshared, by simp⟩
  · rw [List.dropLast_append_of_ne_nil hnil]
    exact ⟨shared, own.dropLast, rfl, hshared, mt (List.dropLast_subset own ·) hown⟩

theorem BranchesOff.stepTo (h : BranchesOff above last q) (hname : name ≠ last) :
    BranchesOff above last (FileTree.stepTo q name) := by
  unfold FileTree.stepTo
  split
  · exact h
  · split
    · exact h.dropLast
    · exact h.append_name hname

theorem BranchesOff.walk (h : BranchesOff above last q) (hlast : last ∉ names) :
    BranchesOff above last (walk q names) := by
  induction names generalizing q with
  | nil => exact h
  | cons name names ih =>
    obtain ⟨hname, hlast⟩ := not_or.1 (mt List.mem_cons.2 hlast)
    exact ih (h.stepTo (Ne.symm hname)) hlast

theorem BranchesOff.not_below (h : BranchesOff above last q) : ¬ Below (above ++ [last]) q := by
  obtain ⟨shared, own, rfl, ⟨missed, rfl⟩, hown⟩ := h
  rintro ⟨hpre, -⟩
  rw [List.append_assoc, List.prefix_append_right_inj] at hpre
  exact hown (hpre.subset (List.mem_append_right missed (List.mem_singleton_self last)))

/-- Names with a `..` that cannot be taken back lead out. -/
theorem branchesOff_of_collapse (hsteps : ∀ name ∈ names, IsStep name) (hlast : last ∉ names)
    (hstack : ".." ∉ stack) (h : ".." ∈ names.foldl (Path.collapseName false) stack) :
    BranchesOff above last (walk (above ++ [last] ++ stack.reverse) names) := by
  induction names generalizing stack with
  | nil => exact absurd h hstack
  | cons name names ih =>
    obtain ⟨hstep, hsteps⟩ := List.forall_mem_cons.1 hsteps
    have hrest : last ∉ names := fun hmem => hlast (List.mem_cons_of_mem name hmem)
    rw [walk_cons]
    by_cases hnext : ".." ∈ Path.collapseName false stack name
    · -- this name is the first that cannot be taken back, and leads to the directory above
      obtain ⟨rfl, rfl⟩ : name = ".." ∧ stack = [] := by
        unfold Path.collapseName at hnext
        grind
      refine BranchesOff.walk ⟨above, [], ?_, List.prefix_rfl, List.not_mem_nil⟩ hrest
      rw [List.append_nil, List.reverse_nil, List.append_nil]
      exact List.dropLast_concat
    · rw [stepTo_collapseName hstep hnext]
      exact ih hsteps hrest hnext h

namespace Path

variable {work : Place} {root p : Path}

/-- A path that starts over leads to what it says. -/
theorem not_below_of_absolute (habsolute : p.isAbsolute = true) (hlast : last ∉ p.names)
    (hq : p.Lands work q) : ¬ Below (above ++ [last]) q := by
  obtain ⟨front, name, hnames, -, rfl⟩ := hq
  rw [hnames, List.mem_append, List.mem_singleton] at hlast
  obtain ⟨hfront, hname⟩ := not_or.1 hlast
  have hstart : BranchesOff above last [] := ⟨[], [], rfl, List.nil_prefix, List.not_mem_nil⟩
  rw [start, if_pos habsolute]
  exact ((hstart.walk hfront).append_name (Ne.symm hname)).not_below

/-- A path that climbs out of a directory comes back to it only by its name. -/
theorem not_below_of_climb (hsteps : ∀ name ∈ names, IsStep name)
    (hlast : last ∉ names) (hnamed : names ≠ [])
    (h : ".." ∈ names.foldl (collapseName false) []) (hroot : root.place work = above ++ [last])
    (hq : Lands work { root with names := root.names ++ names } q) :
    ¬ Below (above ++ [last]) q := by
  obtain ⟨front, name, rfl, hup, rfl⟩ := hq.of_append hnamed
  rw [List.mem_append, List.mem_singleton] at hlast
  obtain ⟨hfront, hname⟩ := not_or.1 hlast
  -- the last name is no `..`, so one of those before it is that cannot be taken back
  have hclimb : ".." ∈ front.foldl (collapseName false) [] := by
    rw [List.foldl_append] at h
    simpa [collapseName, hup, Ne.symm hup] using h
  have hbranch : BranchesOff above last (walk (above ++ [last] ++ [].reverse) front) :=
    branchesOff_of_collapse (fun name hname => hsteps name (List.mem_append_left _ hname)) hfront
      List.not_mem_nil hclimb
  rw [List.reverse_nil, List.append_nil, ← hroot] at hbranch
  exact (hbranch.append_name (Ne.symm hname)).not_below

/-- Where the name of the directory is not said, a path lands below it exactly if it leads
inwards. -/
theorem below_iff_inward (h : Foreign work root p) (hplain : p.Plain)
    (hq : (root.join p).Lands work q) : Below (root.place work) q ↔ p.Inward := by
  constructor
  · intro hbelow
    obtain ⟨above, last, hroot, hlast⟩ := h.unsaid
    rw [hroot] at hbelow
    have hrelative : p.isAbsolute = false := by
      cases habsolute : p.isAbsolute with
      | false => rfl
      | true =>
        rw [join, if_pos habsolute] at hq
        exact absurd hbelow (not_below_of_absolute habsolute hlast hq)
    rw [join, if_neg (by simp [hrelative])] at hq
    have hnamed : p.names ≠ [] := by
      intro hnil
      rw [hnil, List.append_nil] at hq
      exact hbelow.2 (hroot ▸ place_eq_of_lands h.plain hq)
    refine ⟨hrelative, hnamed, ?_⟩
    intro hclimb
    rw [collapse, List.mem_reverse, hrelative] at hclimb
    exact not_below_of_climb hplain hlast hnamed hclimb hroot hq hbelow
  · intro hinward
    exact hinward.lands_join hplain hq

end Path

end Spriting.Files
