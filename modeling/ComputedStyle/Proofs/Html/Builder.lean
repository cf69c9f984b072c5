import ComputedStyle.Html.Builder.Formatting
import ComputedStyle.Proofs.Html.Forest

namespace ComputedStyle.Html

def Formatting.IsPlain : Formatting → Prop
  | element _ tag => IsPlainName tag.name
  | marker => True

namespace Builder

variable {b : Builder} {tag : Tag}

def IsPlain (b : Builder) : Prop :=
  b.forest.IsPlain ∧ ∀ entry ∈ b.formatting, entry.IsPlain

theorem mem_of_mem_eraseLast {p : α → Bool} {xs : List α} {x : α} (member : x ∈ eraseLast p xs) :
    x ∈ xs :=
  List.mem_reverse.1 (List.mem_of_mem_eraseP (List.mem_reverse.1 member))

namespace IsPlain

variable (h : b.IsPlain)

include h

theorem foldl {f : Builder → α → Builder} {xs : List α}
    (keeps : ∀ next : Builder, next.IsPlain → ∀ x ∈ xs, (f next x).IsPlain) :
    (xs.foldl f b).IsPlain := by
  induction xs generalizing b with
  | nil => exact h
  | cons x rest ih =>
      apply ih (keeps b h x List.mem_cons_self)
      exact fun next plain y member => keeps next plain y (List.mem_cons_of_mem x member)

theorem push (element : OpenElement) : (b.push element).IsPlain := h

theorem pop : b.pop.IsPlain := h

theorem popThrough (p : ElementName → Bool) : (b.popThrough p).IsPlain := h

theorem popThroughNamed (name : String) : (b.popThroughNamed name).IsPlain := h

theorem impliedEndsExcept (name : String) : (b.impliedEndsExcept name).IsPlain := h

theorem impliedEnds : b.impliedEnds.IsPlain := h

theorem remove (id : Nat) : (b.remove id).IsPlain := h

theorem enter (mode : Mode) : (b.enter mode).IsPlain := h

theorem resetMode : b.resetMode.IsPlain := h

theorem forbidFrameset : b.forbidFrameset.IsPlain := h

theorem withForest {forest : Forest} (plain : forest.IsPlain) : { b with forest }.IsPlain :=
  ⟨plain, h.2⟩

theorem withFormatting {formatting : List Formatting}
    (plain : ∀ entry ∈ formatting, entry.IsPlain) : { b with formatting }.IsPlain :=
  ⟨h.1, plain⟩

theorem putAt (id : Nat) (spot : Spot) : (b.putAt id spot).IsPlain := by
  cases spot with
  | inside parent => exact h.withForest (h.1.append parent id)
  | before sibling => exact h.withForest (h.1.insertBefore sibling id)

theorem addCharacter (c : Char) : (b.addCharacter c).IsPlain := by
  unfold Builder.addCharacter
  split
  · exact h.withForest (h.1.appendCharacter _ c)
  · exact h.withForest (h.1.insertCharacter _ c)

theorem addComment : b.addComment.IsPlain :=
  (h.withForest (h.1.create (by trivial))).putAt _ _

theorem addCommentTo (parent : Nat) : (b.addCommentTo parent).IsPlain :=
  h.withForest ((h.1.create (by trivial)).append parent _)

theorem addElement (vocabulary : Vocabulary) (plain : IsPlainName tag.name) :
    (b.addElement vocabulary tag).IsPlain := by
  apply IsPlain.putAt
  apply h.withForest
  exact h.1.create plain

theorem openElement (vocabulary : Vocabulary) (plain : IsPlainName tag.name) :
    (b.openElement vocabulary tag).IsPlain :=
  h.addElement vocabulary plain

theorem openTag (plain : IsPlainName tag.name) : (b.openTag tag).IsPlain :=
  h.openElement .html plain

theorem addTag (plain : IsPlainName tag.name) : (b.addTag tag).IsPlain :=
  h.addElement .html plain

theorem openRoot (tag : Tag) : (b.openRoot tag).IsPlain := by
  have plain : (Item.element (.html "html") (.ofTag .html tag)).IsPlain := by
    change IsPlainName "html"
    decide
  exact h.withForest ((h.1.create plain).append Forest.root _)

theorem openText (model : ContentModel) (plain : IsPlainName tag.name) :
    (b.openText tag model).IsPlain :=
  h.openTag plain

theorem mergeRoot (tag : Tag) : (b.mergeRoot tag).IsPlain := by
  unfold Builder.mergeRoot
  split
  · split
    · exact h
    · exact h.withForest (h.1.addMissing _ tag)
  · exact h

theorem addMarker : b.addMarker.IsPlain :=
  h.withFormatting (List.forall_mem_cons.2 ⟨by trivial, h.2⟩)

theorem withFewer {formatting : List Formatting} (fewer : formatting ⊆ b.formatting) :
    { b with formatting }.IsPlain :=
  h.withFormatting fun entry member => h.2 entry (fewer member)

theorem clearToMarker : b.clearToMarker.IsPlain :=
  h.withFewer fun _ member =>
    (List.dropWhile_sublist _).subset (List.mem_of_mem_drop member)

theorem forget (id : Nat) : (b.forget id).IsPlain :=
  h.withFewer List.eraseP_subset

theorem tag_of_find? {p : Formatting → Bool} {id : Nat}
    (found : b.formatting.find? p = some (.element id tag)) : IsPlainName tag.name :=
  h.2 _ (List.mem_of_find?_eq_some found)

theorem reopen {entry : Formatting} (plain : entry.IsPlain) : (b.reopen entry).IsPlain := by
  cases entry with
  | marker => exact h
  | element id tag =>
      have opened : (b.openTag tag).IsPlain := h.openTag plain
      exact opened.withFormatting (List.forall_mem_cons.2 ⟨plain, opened.2⟩)

theorem reopenFormatting : b.reopenFormatting.IsPlain := by
  have kept := h.withFewer (List.dropWhile_sublist (!b.isSettled ·)).subset
  apply kept.foldl
  intro next plain entry member
  apply plain.reopen
  exact h.2 entry ((List.takeWhile_sublist _).subset (List.mem_reverse.1 member))

theorem openFormatting (plain : IsPlainName tag.name) : (b.openFormatting tag).IsPlain := by
  have opened : (b.openTag tag).IsPlain := h.openTag plain
  have recent : b.sinceMarker ⊆ b.formatting := (List.takeWhile_sublist _).subset
  have older : b.formatting.dropWhile (!·.isMarker) ⊆ b.formatting :=
    (List.dropWhile_sublist _).subset
  apply opened.withFormatting
  intro entry member
  rcases List.mem_cons.1 member with rfl | earlier
  · exact plain
  apply h.2
  rcases List.mem_append.1 earlier with kept | old
  · split at kept
    · exact recent (mem_of_mem_eraseLast kept)
    · exact recent kept
  · exact older old

theorem closeOther (name : String) : (b.closeOther name).IsPlain := by
  simp only [Builder.closeOther]
  split
  · exact h
  · exact h

theorem replaceEntry (plain : IsPlainName tag.name) (id new : Nat) :
    ∀ other ∈ b.formatting.map fun other => if other.hasId id then .element new tag else other,
      other.IsPlain := by
  intro other member
  obtain ⟨before, own, rfl⟩ := List.mem_map.1 member
  split
  · exact plain
  · exact h.2 before own

end IsPlain

theorem isPlain_rebuild {state : Rebuilding} (h : state.builder.IsPlain) (block number : Nat)
    (element : OpenElement) : (rebuild block state number element).builder.IsPlain := by
  simp only [rebuild]
  split
  · next found =>
      have plain := h.tag_of_find? found
      split
      · exact h.forget element.id
      · constructor
        · apply Forest.IsPlain.append
          exact h.1.create plain
        · exact h.replaceEntry plain element.id _
  · exact h

theorem isPlain_rebuildAll {state : Rebuilding} (h : state.builder.IsPlain) (block number : Nat)
    (between : List OpenElement) : (rebuildAll block state number between).builder.IsPlain := by
  induction between generalizing state number with
  | nil => exact h
  | cons element rest ih => exact ih (isPlain_rebuild h block number element) (number + 1)

theorem mem_insertAfter {entry other : Formatting} {id : Nat} {entries : List Formatting}
    (member : other ∈ insertAfter entry id entries) : other = entry ∨ other ∈ entries := by
  induction entries with
  | nil => exact .inl (List.mem_singleton.1 member)
  | cons first rest ih =>
      rw [insertAfter] at member
      split at member
      · exact List.mem_cons.1 member
      · rcases List.mem_cons.1 member with rfl | later
        · exact .inr List.mem_cons_self
        · exact (ih later).imp_right (List.mem_cons_of_mem first)

def Closing.IsPlain : Closing → Prop
  | done b => b.IsPlain
  | again b => b.IsPlain

namespace IsPlain

variable (h : b.IsPlain)

include h

theorem moveInto (plain : IsPlainName tag.name) (element block ancestor : OpenElement)
    (inner between outer : List OpenElement) :
    (b.moveInto element tag inner block between ancestor outer).IsPlain := by
  unfold Builder.moveInto
  extract_lets state before detached placed id made entry formatting
  have rebuilt : state.builder.IsPlain := isPlain_rebuildAll h block.id 1 between
  have apart : detached.IsPlain := rebuilt.withForest (rebuilt.1.detach state.last)
  have moved : placed.IsPlain := apart.putAt state.last _
  constructor
  · apply Forest.IsPlain.append
    apply Forest.IsPlain.moveChildren
    apply moved.1.create
    exact plain
  · intro other member
    change other ∈ formatting at member
    simp only [formatting] at member
    split at member
    · exact moved.replaceEntry plain element.id id other member
    · rcases mem_insertAfter (List.mem_of_mem_eraseP member) with rfl | old
      · exact plain
      · exact moved.2 other old

theorem closeRound (name : String) : (b.closeRound name).IsPlain := by
  unfold Builder.closeRound
  split
  · next found =>
      have recent := (List.takeWhile_sublist _).subset (List.mem_of_find?_eq_some found)
      have plain : IsPlainName _ := h.2 _ recent
      split
      · split
        · dsimp only
          split
          · exact h.moveInto plain _ _ _ _ _ _
          · exact h.forget _
          · exact h
        · exact h
      · exact h.forget _
  · exact h.closeOther name

theorem closeRounds (name : String) (rounds : Nat) : (closeRounds name rounds b).IsPlain := by
  induction rounds generalizing b with
  | zero => exact h
  | succ rounds ih =>
      have round := h.closeRound name
      rw [Builder.closeRounds]
      split
      · next closed => rwa [closed] at round
      · next goes =>
          rw [goes] at round
          exact ih round

theorem closeFormatting (name : String) : (b.closeFormatting name).IsPlain := by
  simp only [Builder.closeFormatting]
  split
  · exact h
  · exact h.closeRounds name 8

end IsPlain

end Builder

end ComputedStyle.Html
