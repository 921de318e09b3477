import Mathlib.Data.List.Forall2
import Spriting.Proofs.Emission.Writing

/-!
# Names that tell contents apart

A name shows what its template says: the digest in the places for it, and everything else as it
stands.  So contents of one name are shown alike in every place, and where a template has no
place all contents get one name.

* `Emitter.shown_eq`: contents of one name are shown alike;
* `Emitter.nameOf_eq_of_placeless`: without a place there is one name;
* `Emitter.emit_memory`: what emitting to a memory sink does.
-/

namespace Spriting.Emission

open Config Files

/-- What comes of two steps, the second of which goes on with what came of the first. -/
theorem bind_eq_ok {ε α β : Type} {x : Except ε α} {f : α → Except ε β} {b : β} :
    x >>= f = .ok b ↔ ∃ a, x = .ok a ∧ f a = .ok b := by
  cases x <;> simp [bind, Except.bind]

/-! ## Templates -/

/-- A place for the digest. -/
def Part.isPlace : Part → Bool
  | char _ => false
  | digest _ => true

/-- What the parts of a template become under a digest. -/
def Becomes (digest : List Char) (ps : List Part) (pieces : List (List Char)) : Prop :=
  List.Forall₂ (fun part piece => part.expand digest = .ok piece) ps pieces

theorem becomes_of_mapM {digest : List Char} {ps : List Part} {pieces : List (List Char)}
    (h : ps.mapM (Part.expand digest) = .ok pieces) : Becomes digest ps pieces := by
  induction ps generalizing pieces with
  | nil =>
    cases h
    exact .nil
  | cons part ps ih =>
    rw [List.mapM_cons] at h
    obtain ⟨piece, hpart, h⟩ := bind_eq_ok.1 h
    obtain ⟨rest, hrest, h⟩ := bind_eq_ok.1 h
    cases h
    exact .cons hpart (ih hrest)

/-- A longer digest is shown at no smaller length. -/
theorem Part.expand_length_le {part : Part} {d d' piece piece' : List Char}
    (hle : d.length ≤ d'.length) (h : part.expand d = .ok piece)
    (h' : part.expand d' = .ok piece') : piece.length ≤ piece'.length := by
  cases part with
  | char c =>
    cases h
    cases h'
    exact Nat.le_refl _
  | digest count =>
    cases count with
    | none =>
      cases h
      cases h'
      exact hle
    | some ds =>
      simp only [expand] at h h'
      cases hn : Text.readDigits ds with
      | error e =>
        rw [hn] at h
        cases h
      | ok n =>
        rw [hn] at h h'
        cases h
        cases h'
        simp only [List.length_take]
        omega

theorem Becomes.flatten_length_le {d d' : List Char} {ps : List Part}
    {pieces pieces' : List (List Char)} (hle : d.length ≤ d'.length) (h : Becomes d ps pieces)
    (h' : Becomes d' ps pieces') : pieces.flatten.length ≤ pieces'.flatten.length := by
  induction h generalizing pieces' with
  | nil =>
    cases h'
    exact Nat.le_refl _
  | cons hpart _ ih =>
    cases h' with
    | cons hpart' hrest' =>
      have first := Part.expand_length_le hle hpart hpart'
      have rest := ih hrest'
      simp only [List.flatten_cons, List.length_append]
      omega

/-- Where two digests make the same name, each part becomes the same: under the shorter digest
no part is longer, so that none is shorter either. -/
theorem Becomes.eq_of_flatten_eq {d d' : List Char} {ps : List Part}
    {pieces pieces' : List (List Char)} (hle : d.length ≤ d'.length) (h : Becomes d ps pieces)
    (h' : Becomes d' ps pieces') (heq : pieces.flatten = pieces'.flatten) : pieces = pieces' := by
  induction h generalizing pieces' with
  | nil =>
    cases h'
    rfl
  | @cons part piece ps pieces hpart hrest ih =>
    cases h' with
    | @cons _ piece' _ pieces' hpart' hrest' =>
      have first := Part.expand_length_le hle hpart hpart'
      have rest := Becomes.flatten_length_le hle hrest hrest'
      have total := congrArg List.length heq
      simp only [List.flatten_cons, List.length_append] at heq total
      obtain ⟨hpiece, htail⟩ := List.append_inj heq (by omega)
      rw [hpiece, ih hrest' htail]

theorem Becomes.expand_eq {d d' : List Char} {ps : List Part} {pieces : List (List Char)}
    (h : Becomes d ps pieces) (h' : Becomes d' ps pieces) :
    ∀ part ∈ ps, part.expand d = part.expand d' := by
  induction h with
  | nil => simp
  | cons hpart _ ih =>
    cases h' with
    | cons hpart' hrest' => exact List.forall_mem_cons.2 ⟨hpart.trans hpart'.symm, ih hrest'⟩

/-- Parts that are no places become the same under every digest. -/
theorem Becomes.eq_of_placeless {d d' : List Char} {ps : List Part}
    {pieces pieces' : List (List Char)} (hps : ∀ part ∈ ps, part.isPlace = false)
    (h : Becomes d ps pieces) (h' : Becomes d' ps pieces') : pieces = pieces' := by
  induction h generalizing pieces' with
  | nil =>
    cases h'
    rfl
  | @cons part piece ps pieces hpart _ ih =>
    obtain ⟨hfirst, hrest⟩ := List.forall_mem_cons.1 hps
    cases h' with
    | cons hpart' hrest' =>
      cases part with
      | digest count => cases hfirst
      | char c =>
        cases hpart
        cases hpart'
        rw [ih hrest hrest']

/-! ## Memory sinks -/

theorem lookup_cons_eq_ite (name other : String) (bytes : Bytes) (held : List (String × Bytes)) :
    ((name, bytes) :: held).lookup other =
      if other = name then some bytes else held.lookup other := by
  by_cases h : other = name
  · simp [h]
  · have hne : (other == name) = false := beq_false_of_ne h
    simp [List.lookup_cons, hne, h]

theorem lookup_hold (held : List (String × Bytes)) (name other : String) (bytes : Bytes) :
    (hold held name bytes).lookup other =
      if other = name then some bytes else held.lookup other := by
  induction held with
  | nil => rw [hold, lookup_cons_eq_ite, List.lookup_nil]
  | cons entry held ih =>
    obtain ⟨old, kept⟩ := entry
    rw [hold]
    by_cases hsame : old = name
    · rw [if_pos hsame, lookup_cons_eq_ite, lookup_cons_eq_ite, hsame]
      split <;> rfl
    · rw [if_neg hsame, lookup_cons_eq_ite, lookup_cons_eq_ite, ih]
      by_cases ho : other = old
      · rw [if_pos ho, if_neg (ho ▸ hsame), if_pos ho]
      · rw [if_neg ho, if_neg ho]

/-! ## Names -/

theorem TextUse.text_eq_ok {use : TextUse} {value : Value} {s : String} :
    use.text value = .ok s ↔ value = .text s := by
  cases value <;> simp [TextUse.text]

namespace Emitter

variable {e : Emitter} {a b : Bytes} {name name' : String}

/-- The places for the digest in a name. -/
def places (e : Emitter) : List Part :=
  match e.template with
  | .text template => (parts template.toList).filter Part.isPlace
  | _ => []

/-- What a place shows of contents. -/
def shown (e : Emitter) (content : Bytes) (place : Part) : Except EmitError (List Char) := do
  let digest ← digestOf (← TextUse.digestName.text e.hashType) content
  (place.expand digest.toList).mapError .count

/-- The digest is free of collisions on some contents: where a name has places for it, contents
that are shown alike in all of them are the same. -/
def CollisionFree (e : Emitter) (contents : List Bytes) : Prop :=
  e.places ≠ [] → ∀ a ∈ contents, ∀ b ∈ contents,
    (∀ place ∈ e.places, e.shown a place = e.shown b place) → a = b

instance (e : Emitter) (contents : List Bytes) : Decidable (e.CollisionFree contents) :=
  inferInstanceAs (Decidable (e.places ≠ [] → ∀ a ∈ contents, ∀ b ∈ contents,
    (∀ place ∈ e.places, e.shown a place = e.shown b place) → a = b))

/-- A name is what the parts of the template become under the digest of the contents. -/
theorem becomes_of_nameOf (h : e.nameOf a = .ok name) :
    ∃ hashType template digest pieces, e.hashType = .text hashType ∧ e.template = .text template ∧
      digestOf hashType a = .ok digest ∧ Becomes digest.toList (parts template.toList) pieces ∧
      name = String.ofList pieces.flatten := by
  obtain ⟨hashType, htype, h⟩ := bind_eq_ok.1 h
  obtain ⟨digest, hdigest, h⟩ := bind_eq_ok.1 h
  obtain ⟨template, htemplate, h⟩ := bind_eq_ok.1 h
  cases hpieces : (parts template.toList).mapM (Part.expand digest.toList) with
  | error cause =>
    rw [expand, hpieces] at h
    cases h
  | ok pieces =>
    rw [expand, hpieces] at h
    cases h
    exact ⟨hashType, template, digest, pieces, TextUse.text_eq_ok.1 htype,
      TextUse.text_eq_ok.1 htemplate, hdigest, becomes_of_mapM hpieces, rfl⟩

/-- Contents of one name are shown alike in every place. -/
theorem shown_eq (ha : e.nameOf a = .ok name) (hb : e.nameOf b = .ok name) :
    ∀ place ∈ e.places, e.shown a place = e.shown b place := by
  obtain ⟨hashType, template, d, pieces, htype, htemplate, hd, becomes, hname⟩ :=
    becomes_of_nameOf ha
  obtain ⟨hashType', template', d', pieces', htype', htemplate', hd', becomes', hname'⟩ :=
    becomes_of_nameOf hb
  obtain rfl : hashType = hashType' := Value.text.inj (htype.symm.trans htype')
  obtain rfl : template = template' := Value.text.inj (htemplate.symm.trans htemplate')
  have flat : pieces.flatten = pieces'.flatten :=
    String.ofList_injective (hname.symm.trans hname')
  have same : pieces = pieces' := by
    rcases Nat.le_total d.toList.length d'.toList.length with hle | hle
    · exact becomes.eq_of_flatten_eq hle becomes' flat
    · exact (becomes'.eq_of_flatten_eq hle becomes flat.symm).symm
  subst same
  intro place hplace
  simp only [places, htemplate, List.mem_filter] at hplace
  have hexpand := becomes.expand_eq becomes' place hplace.1
  simp only [shown, htype, TextUse.text]
  change (digestOf hashType a >>= _) = digestOf hashType b >>= _
  rw [hd, hd']
  exact congrArg (Except.mapError EmitError.count) hexpand

/-- Without a place for the digest, all contents get one name. -/
theorem nameOf_eq_of_placeless (hplaces : e.places = []) (ha : e.nameOf a = .ok name)
    (hb : e.nameOf b = .ok name') : name = name' := by
  obtain ⟨-, template, d, pieces, -, htemplate, -, becomes, rfl⟩ := becomes_of_nameOf ha
  obtain ⟨-, template', d', pieces', -, htemplate', -, becomes', rfl⟩ := becomes_of_nameOf hb
  obtain rfl : template = template' := Value.text.inj (htemplate.symm.trans htemplate')
  have none_place : ∀ part ∈ parts template.toList, part.isPlace = false := by
    simpa [places, htemplate] using hplaces
  rw [becomes.eq_of_placeless none_place becomes']

/-- What has been emitted to a memory sink is held under its name, behind the output path, and
is found under that name, behind the URL prefix. -/
theorem emit_memory {s s' : Storage} {url : String} (h : e.emit Sink.memory s a = (s', .ok url)) :
    ∃ lead out name, e.urlPrefix = .text lead ∧ e.outputPath = .text out ∧
      e.nameOf a = .ok name ∧ url = lead ++ name ∧
      s' = { s with held := hold s.held (out ++ name) a } := by
  obtain ⟨lead, name, target, hlead, htarget, hwrite, rfl⟩ := written_of_emit h
  obtain ⟨name', hname, htarget⟩ := bind_eq_ok.1 htarget
  obtain ⟨out, hout, htarget⟩ := bind_eq_ok.1 htarget
  cases htarget
  cases hwrite
  exact ⟨lead, out, name, TextUse.text_eq_ok.1 hlead, TextUse.text_eq_ok.1 hout, hname, rfl, rfl⟩

end Emitter

end Spriting.Emission
