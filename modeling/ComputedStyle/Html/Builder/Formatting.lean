import ComputedStyle.Html.Builder

/-!
Formatting elements: opening them again, and closing them out of order.

The end tag of a formatting element may come while other elements are open inside it. Those keep the
format: the part of the element that lies around a block is moved into the block.
-/

namespace ComputedStyle.Html

namespace Formatting

def isMarker : Formatting → Bool
  | marker => true
  | element _ _ => false

def hasId (id : Nat) : Formatting → Bool
  | marker => false
  | element other _ => other == id

def isNamed (name : String) : Formatting → Bool
  | marker => false
  | element _ tag => tag.name == name

def isSimilar (tag : Tag) : Formatting → Bool
  | marker => false
  | element _ other => other.similar tag

end Formatting

namespace Builder

variable (b : Builder)

def addMarker : Builder :=
  { b with formatting := .marker :: b.formatting }

/-- Forgets the formatting elements up to the last marker, and the marker. -/
def clearToMarker : Builder :=
  { b with formatting := (b.formatting.dropWhile (!·.isMarker)).drop 1 }

/-- The formatting elements since the last marker, latest first. -/
def sinceMarker : List Formatting :=
  b.formatting.takeWhile (!·.isMarker)

def forget (id : Nat) : Builder :=
  { b with formatting := b.formatting.eraseP (·.hasId id) }

/-- Whether an entry needs no opening again. -/
def isSettled : Formatting → Bool
  | .marker => true
  | .element id _ => b.stack.any (·.id == id)

/-- Opens an element again for an entry. -/
def reopen (entry : Formatting) : Builder :=
  match entry with
  | .marker => b
  | .element _ tag =>
      let id := b.forest.size
      let opened := b.openTag tag
      { opened with formatting := .element id tag :: opened.formatting }

/-- Opens all formatting elements again that were closed out of order. -/
def reopenFormatting : Builder :=
  let closed := b.formatting.takeWhile (!b.isSettled ·)
  closed.reverse.foldl reopen { b with formatting := b.formatting.dropWhile (!b.isSettled ·) }

/-- Erases the last element of a list that satisfies a condition. -/
def eraseLast (p : α → Bool) (xs : List α) : List α :=
  (xs.reverse.eraseP p).reverse

/-- Opens a formatting element. Of four similar ones in a row the first is forgotten. -/
def openFormatting (tag : Tag) : Builder :=
  let recent := b.sinceMarker
  let older := b.formatting.dropWhile (!·.isMarker)
  let kept :=
    if 3 ≤ recent.countP (·.isSimilar tag) then eraseLast (·.isSimilar tag) recent else recent
  let id := b.forest.size
  { b.openTag tag with formatting := .element id tag :: (kept ++ older) }

/-- Closes an element by an end tag without rules of its own. -/
def closeOther (name : String) : Builder :=
  let reaches := b.inScope (fun element => element.isSpecial) (·.isNamed name)
  if reaches then (b.impliedEndsExcept name).popThroughNamed name else b

/-- What the elements between a block and a formatting element become. -/
structure Rebuilding where
  builder : Builder
  /-- The outermost node so far. -/
  last : Nat
  /-- The entry before which the formatting element comes back, if it moves. -/
  bookmark : Option Nat := none
  /-- The elements that stay open, outermost first. -/
  kept : List OpenElement := []

/-- Goes over one element between, from the block outwards; only the nearest three are rebuilt. -/
def rebuild (block : Nat) (state : Rebuilding) (number : Nat) (element : OpenElement) :
    Rebuilding :=
  let b := state.builder
  match b.formatting.find? (·.hasId element.id) with
  | some (.element _ tag) =>
      if 3 < number then { state with builder := b.forget element.id }
      else
        let id := b.forest.size
        let entry := Formatting.element id tag
        let forest := b.forest.create (.element (.html tag.name) (.ofTag .html tag))
        { builder := { b with
            forest := forest.append id state.last
            formatting := b.formatting.map fun other =>
              if other.hasId element.id then entry else other }
          last := id
          bookmark := if state.last = block then some id else state.bookmark
          kept := ⟨id, .html tag.name⟩ :: state.kept }
  | _ => state

def rebuildAll (block : Nat) : Rebuilding → Nat → List OpenElement → Rebuilding
  | state, _, [] => state
  | state, number, element :: rest =>
      rebuildAll block (rebuild block state number element) (number + 1) rest

/-- Puts an entry just after another, that is, before it in the list. -/
def insertAfter (entry : Formatting) (id : Nat) : List Formatting → List Formatting
  | [] => [entry]
  | other :: rest =>
      if other.hasId id then entry :: other :: rest else other :: insertAfter entry id rest

/-- Moves a formatting element into the block nearest to it. `inner` are the elements inside the
block, `between` those between it and the formatting element, innermost first. -/
def moveInto (element : OpenElement) (tag : Tag) (inner : List OpenElement) (block : OpenElement)
    (between : List OpenElement) (ancestor : OpenElement) (outer : List OpenElement) : Builder :=
  let state := rebuildAll block.id { builder := b, last := block.id } 1 between
  let b := { state.builder with forest := state.builder.forest.detach state.last }
  let b := b.putAt state.last (b.spotIn ancestor)
  let id := b.forest.size
  let forest := b.forest.create (.element (.html tag.name) (.ofTag .html tag))
  let entry := Formatting.element id tag
  let formatting :=
    match state.bookmark with
    | none => b.formatting.map fun other => if other.hasId element.id then entry else other
    | some mark => (insertAfter entry mark b.formatting).eraseP (·.hasId element.id)
  { b with
    forest := (forest.moveChildren block.id id).append block.id id
    formatting
    stack := inner ++ ⟨id, .html tag.name⟩ :: block :: state.kept.reverse ++ ancestor :: outer }

/-- How closing a formatting element goes on. -/
inductive Closing where
  | done (builder : Builder)
  | again (builder : Builder)

def closeRound (name : String) : Closing :=
  match b.sinceMarker.find? (·.isNamed name) with
  | some (.element id tag) =>
      if b.stack.any (·.id == id) then
        if within ElementName.boundsScope (·.id == id) b.stack then
          let above := b.stack.takeWhile (·.id != id)
          let inner := (above.reverse.dropWhile (!·.name.isSpecial)).reverse
          let between := (above.reverse.takeWhile (!·.name.isSpecial)).reverse
          match inner.getLast?, b.stack.dropWhile (·.id != id) with
          | some block, element :: ancestor :: outer =>
              .again (b.moveInto element tag inner.dropLast block between ancestor outer)
          | none, element :: outer => .done ({ b with stack := outer }.forget element.id)
          | _, _ => .done b
        else .done b
      else .done (b.forget id)
  | _ => .done (b.closeOther name)

/-- Goes on closing for so many rounds. -/
def closeRounds (name : String) : Nat → Builder → Builder
  | 0, b => b
  | rounds + 1, b =>
      match b.closeRound name with
      | .done b => b
      | .again b => closeRounds name rounds b

/-- Closes a formatting element. -/
def closeFormatting (name : String) : Builder :=
  let isEntry := b.stack.head?.any fun element => b.formatting.any (·.hasId element.id)
  if b.currentIsNamed name && !isEntry then b.pop else closeRounds name 8 b

end Builder

end ComputedStyle.Html
