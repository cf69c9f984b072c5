import ComputedStyle.Proofs.Document.Edits
import ComputedStyle.Proofs.Selector.Simple

namespace ComputedStyle

/-- A tag in lower case, or none. -/
def Compound.IsLower (compound : Compound) : Prop :=
  ∀ tag, compound.tag = some tag → tag.toLower = tag

/-- All tags in lower case. -/
def ComplexSelector.IsLower (selector : ComplexSelector) : Prop :=
  ∀ compound ∈ selector.compounds, compound.IsLower

theorem ComplexSelector.IsLower.subject {selector : ComplexSelector} (lower : selector.IsLower) :
    selector.subject.IsLower :=
  lower selector.subject (by simp [compounds])

namespace Selector

theorem toLower_ofList_lower (s : List Char) :
    (String.ofList (Text.lower s)).toLower = String.ofList (Text.lower s) := by
  apply String.toList_inj.1
  simp [String.toLower, Text.lower]

theorem toLower_readTag {s : List Char} {tag : String} (h : (readTag s).1 = some tag) :
    tag.toLower = tag := by
  cases s with
  | nil => cases h
  | cons c rest =>
      rw [readTag] at h
      split at h
      · cases h
        exact String.toList_inj.1 (by simp [String.toLower])
      · split at h
        · cases h
          exact toLower_ofList_lower _
        · cases h

theorem readBalanced_append {opener closer : Char} {state : Text.Nesting}
    {s inner after : List Char} (h : readBalanced opener closer state s = some (inner, after))
    (t : List Char) :
    readBalanced opener closer state (s ++ t) = some (inner, after ++ t) := by
  induction s generalizing state inner with
  | nil => cases h
  | cons c rest ih =>
      rw [List.cons_append, readBalanced]
      rw [readBalanced] at h
      split at h
      · next ends =>
          cases h
          rw [if_pos ends]
      · next goes =>
          rw [if_neg goes]
          obtain ⟨⟨inside, final⟩, found, same⟩ := Option.map_eq_some_iff.1 h
          cases same
          rw [ih found]
          rfl

theorem ReadsSimples.tag {compound next : Compound} {s : List Char}
    (reads : ReadsSimples compound s next) : next.tag = compound.tag := by
  induction reads with
  | done => rfl
  | add compound next s after simple first more ih => rw [ih, Compound.tag_adding]

theorem isLower_readCompound {s : List Char} {compound : Compound}
    (h : readCompound s = .ok compound) : compound.IsLower := by
  intro tag same
  rw [readCompound, bind_eq_ok] at h
  obtain ⟨read, simples, h⟩ := h
  split at h
  · cases h
  · cases h
    rw [(readsSimples_of_readSimples simples).tag] at same
    exact toLower_readTag same

namespace Scan

variable {scan next : Scan} {compound : Compound} {c : Char}

theorem flush_cases (h : scan.flush = .ok next) :
    ((Text.trim scan.buffer.reverse).isEmpty ∧ next = { scan with buffer := [] }) ∨
      ∃ compound, readCompound (Text.trim scan.buffer.reverse) = .ok compound ∧
        scan.join compound = .ok next := by
  unfold flush at h
  dsimp only at h
  split at h
  · next empty =>
      cases h
      exact .inl ⟨empty, rfl⟩
  · exact .inr (bind_eq_ok.1 h)

/-- A character goes to the buffer, or it ends the compound there, or it is one blank of several. -/
theorem step_cases (h : scan.step c = .ok next) :
    next = { scan with
      nesting := scan.nesting.step .roundAndSquare c
      buffer := c :: scan.buffer } ∨
    (∃ combinator flushed, combinatorOf? c = some combinator ∧ scan.flush = .ok flushed ∧
      next = { flushed with pending := some combinator }) ∨
    (Text.isBlank c ∧ (Text.trim scan.buffer.reverse).isEmpty ∧ next = scan) ∨
    (Text.isBlank c ∧ ∃ flushed, scan.flush = .ok flushed ∧
      next = { flushed with pending := some .descendant }) := by
  unfold step at h
  split at h
  · cases h
    exact .inl rfl
  · split at h
    · next combinator sign =>
        obtain ⟨flushed, flush, h⟩ := bind_eq_ok.1 h
        split at h
        · cases h
        · cases h
          exact .inr (.inl ⟨combinator, flushed, sign, flush, rfl⟩)
    · split at h
      · next blank =>
          split at h
          · next empty =>
              cases h
              exact .inr (.inr (.inl ⟨blank, empty, rfl⟩))
          · obtain ⟨flushed, flush, h⟩ := bind_eq_ok.1 h
            cases h
            exact .inr (.inr (.inr ⟨blank, flushed, flush, rfl⟩))
      · cases h
        exact .inl rfl

theorem buffer_join (h : scan.join compound = .ok next) : next.buffer = [] := by
  unfold join at h
  split at h
  · cases h
    rfl
  · cases h
  · cases h
    rfl

theorem buffer_flush (h : scan.flush = .ok next) : next.buffer = [] := by
  obtain ⟨_, rfl⟩ | ⟨compound, _, joined⟩ := flush_cases h
  · rfl
  · exact buffer_join joined

/-- What has been read of a complex selector so far has its tags in lower case. -/
def IsLower (scan : Scan) : Prop :=
  ∀ selector, scan.read = some selector → selector.IsLower

theorem IsLower.join (lower : scan.IsLower) (fresh : compound.IsLower)
    (h : scan.join compound = .ok next) : next.IsLower := by
  unfold Scan.join at h
  split at h
  · cases h
    rintro selector ⟨⟩ other member
    obtain rfl : other = compound := by simpa [ComplexSelector.compounds] using member
    exact fresh
  · cases h
  · next pending left read =>
      cases h
      rintro selector ⟨⟩ other member
      have places : other ∈ left.compounds ∨ other = compound := by
        simpa [ComplexSelector.compounds, or_assoc] using member
      rcases places with member | rfl
      · exact lower left read other member
      · exact fresh

theorem IsLower.flush (lower : scan.IsLower) (h : scan.flush = .ok next) : next.IsLower := by
  obtain ⟨_, rfl⟩ | ⟨compound, read, joined⟩ := flush_cases h
  · exact lower
  · exact lower.join (isLower_readCompound read) joined

theorem IsLower.step (lower : scan.IsLower) (h : scan.step c = .ok next) : next.IsLower := by
  obtain rfl | ⟨combinator, flushed, _, flush, rfl⟩ | ⟨_, _, rfl⟩ | ⟨_, flushed, flush, rfl⟩ :=
    step_cases h
  · exact lower
  · have kept : flushed.IsLower := lower.flush flush
    exact kept
  · exact lower
  · have kept : flushed.IsLower := lower.flush flush
    exact kept

end Scan

theorem Scan.IsLower.finish {scan : Scan} {selector : ComplexSelector} (lower : scan.IsLower)
    (h : scan.finish = .ok selector) : selector.IsLower := by
  unfold Scan.finish at h
  split at h
  · cases h
  · rw [bind_eq_ok] at h
    obtain ⟨flushed, flush, h⟩ := h
    split at h
    · cases h
    · cases read : flushed.read with
      | none => simp [readable, read] at h
      | some found =>
          simp only [readable, read] at h
          cases h
          exact lower.flush flush _ read

theorem isLower_readComplex {s : List Char} {selector : ComplexSelector}
    (h : readComplex s = .ok selector) : selector.IsLower := by
  rw [readComplex, bind_eq_ok] at h
  obtain ⟨scan, run, finish⟩ := h
  have start : ({} : Scan).IsLower := fun _ => nofun
  have lower : scan.IsLower :=
    foldlM_ok_induction (fun _ _ _ lower step => Scan.IsLower.step lower step) _ start run
  exact lower.finish finish

end Selector

namespace SelectorGroup

theorem isLower_addMember {group next : SelectorGroup} {s : List Char}
    (lower : ∀ member ∈ group.members, member.IsLower) (h : group.addMember s = .ok next) :
    ∀ member ∈ next.members, member.IsLower := by
  unfold addMember at h
  split at h
  · next selector read =>
      cases h
      intro member found
      rcases List.mem_append.1 found with found | found
      · exact lower member found
      · rw [List.mem_singleton.1 found]
        exact Selector.isLower_readComplex read
  · cases h
    exact lower
  · cases h

theorem isLower_read {text : String} {group : SelectorGroup} (h : read text = .ok group) :
    ∀ member ∈ group.members, member.IsLower := by
  rw [read, bind_eq_ok] at h
  obtain ⟨found, run, h⟩ := h
  have lower : ∀ member ∈ found.members, member.IsLower :=
    foldlM_ok_induction (motive := fun group => ∀ member ∈ group.members, member.IsLower)
      (fun _ _ _ lower step => isLower_addMember lower step) _ (by simp) run
  split at h
  · cases h
  · cases h
    exact lower

end SelectorGroup

end ComputedStyle
