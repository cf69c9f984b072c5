import ComputedStyle.Proofs.Declaration.Parts
import ComputedStyle.Proofs.Syntax.Lookahead
import ComputedStyle.Proofs.Text.Spaced

/-!
Backgrounds read back.

A background is a row of parts with blanks and commas between them, and the first part that gives a
color is all that counts (`firstColor`). The reader takes the row apart at its blanks only, so what
it takes for one token is a run of parts with commas between them (`BackgroundRun`).
-/

namespace ComputedStyle.Shorthand

open Text

/-- The functions that make gradients. -/
def gradientNames : List String :=
  ["linear-gradient", "radial-gradient", "conic-gradient", "repeating-linear-gradient",
    "repeating-radial-gradient", "repeating-conic-gradient"]

/-- What stands in the layers of a background. -/
inductive LayerPart where
  /-- The stops, and what stands in them between blanks. -/
  | gradient (name : List Char) (stops : List (List (List Char)))
  | address (text : List Char)
  | plain (text : List Char)
deriving DecidableEq, Repr

/-- The color that a part counts as: a gradient as the first color in its stops, an address as
none. -/
def LayerPart.color? (colorOf : ColorReader) : LayerPart → Except ColorError (Option String)
  | gradient _ stops => (stops.flatten.map String.ofList).findM? (isColorBy colorOf)
  | address _ => .ok none
  | plain text =>
      (isColorBy colorOf (String.ofList text)).map fun found =>
        if found then some (String.ofList text) else none

def firstColor (colorOf : ColorReader) (parts : List LayerPart) : Except ColorError String :=
  (parts.findSomeM? (LayerPart.color? colorOf)).map fun found => found.getD "transparent"

/-- A text between blanks, in which every bracket and quote is closed and no comma is outside of
them. -/
structure IsStopPart (part : List Char) : Prop where
  given : part ≠ []
  closed : Closed Anything IsSolid part
  whole : IsPiece ',' .top part

inductive SpellsStop : List (List Char) → List Char → Prop where
  | empty (blanks : List Char) (blank : ∀ c ∈ blanks, isBlank c) : SpellsStop [] blanks
  | parts (parts : List (List Char)) (before s after : List Char)
      (left : ∀ c ∈ before, isBlank c) (right : ∀ c ∈ after, isBlank c)
      (each : ∀ part ∈ parts, IsStopPart part) (spaced : Spaced (isBlank ·) parts s) :
      SpellsStop parts (before ++ (s ++ after))

/-- The stops of a gradient with commas between them. -/
def SpellsStops (stops : List (List (List Char))) (inner : List Char) : Prop :=
  stops ≠ [] ∧ ∃ pieces, List.Forall₂ SpellsStop stops pieces ∧ inner = [','].intercalate pieces

/-- The kind of characters that parts of layers are made of. -/
def IsLayerChar (c : Char) : Prop :=
  IsSolid c ∧ c ≠ ','

instance : DecidablePred IsLayerChar := fun c => inferInstanceAs (Decidable (IsSolid c ∧ c ≠ ','))

inductive LayerPart.Spells : LayerPart → List Char → Prop where
  | gradient (name : List Char) (stops : List (List (List Char))) (inner : List Char)
      (known : String.ofList (lower name) ∈ gradientNames) (spelled : SpellsStops stops inner) :
      Spells (.gradient name stops) (name ++ '(' :: (inner ++ [')']))
  | address (text : List Char) (closed : Closed Anything IsLayerChar text)
      (leads : "url(".toList <+: text) : Spells (.address text) text
  | plain (text : List Char) (given : text ≠ []) (closed : Closed Anything IsLayerChar text)
      (other : ¬"url(".toList <+: text)
      (function : ∀ name ∈ gradientNames, ¬(name ++ "(").toList <+: lower text) :
      Spells (.plain text) text

/-- Parts with commas between them and no blank; a place next to a comma may be empty. -/
structure BackgroundRun where
  places : List (Option LayerPart)
  text : List Char

inductive SpellsPlace : Option LayerPart → List Char → Prop where
  | empty : SpellsPlace none []
  | part (part : LayerPart) (text : List Char) (spelled : part.Spells text) :
      SpellsPlace (some part) text

structure BackgroundRun.IsWritten (run : BackgroundRun) : Prop where
  given : run.text ≠ []
  spelled : ∃ pieces, List.Forall₂ SpellsPlace run.places pieces ∧
    run.text = [','].intercalate pieces

/-- The parts of a background in reading order. -/
def partsOf (runs : List BackgroundRun) : List LayerPart :=
  runs.flatMap fun run => run.places.reduceOption

/-- Runs with blanks around them and between them. -/
inductive SpellsBackground (runs : List BackgroundRun) : List Char → Prop where
  | intro (before s after : List Char) (left : ∀ c ∈ before, isBlank c)
      (right : ∀ c ∈ after, isBlank c) (written : ∀ run ∈ runs, run.IsWritten)
      (spaced : Spaced (isBlank ·) (runs.map BackgroundRun.text) s) :
      SpellsBackground runs (before ++ (s ++ after))

/-- The gradient that the reader does not know. -/
def IsMissed (name : List Char) : Prop :=
  String.ofList (lower name) = "repeating-conic-gradient"

/-- Runs in which the reader finds the color that counts: a part without commas, a gradient that
has a color before its last stop, and a run without colors. -/
inductive BackgroundRun.IsLegible (colorOf : ColorReader) : BackgroundRun → Prop where
  | alone (part : LayerPart) (text : List Char)
      (known : ∀ name stops, part = .gradient name stops → ¬IsMissed name) :
      IsLegible colorOf ⟨[some part], text⟩
  | gradient (name : List Char) (stops : List (List (List Char))) (last : List (List Char))
      (others : List (Option LayerPart)) (text : List Char) (known : ¬IsMissed name)
      (early : ∃ part ∈ stops.flatten, isColorBy colorOf (String.ofList part) = .ok true) :
      IsLegible colorOf ⟨some (.gradient name (stops ++ [last])) :: others, text⟩
  | colorless (places : List (Option LayerPart)) (text : List Char)
      (first : ∀ name stops, places.head? = some (some (.gradient name stops)) → IsMissed name)
      (parts : ∀ part ∈ places.reduceOption, part.color? colorOf = .ok none)
      (whole : isColorBy colorOf (String.ofList text) = .ok false) :
      IsLegible colorOf ⟨places, text⟩

/-- Every run is legible, as far as the first color. -/
def AreLegible (colorOf : ColorReader) : List BackgroundRun → Prop
  | [] => True
  | run :: rest => run.IsLegible colorOf ∧
      (run.places.reduceOption.findSomeM? (LayerPart.color? colorOf) = .ok none →
        AreLegible colorOf rest)

section Stops

variable {parts : List (List Char)} {stops : List (List (List Char))} {piece inner name : List Char}
  {pieces : List (List Char)}

theorem valueTokens_blanks {blanks : List Char} (blank : ∀ c ∈ blanks, isBlank c) :
    valueTokens blanks = [] := by
  have trimmed := trim_append_left blank []
  rw [List.append_nil] at trimmed
  rw [valueTokens, trimmed]
  rfl

theorem SpellsStop.valueTokens (spells : SpellsStop parts piece) : valueTokens piece = parts := by
  cases spells with
  | empty _ blank => exact valueTokens_blanks blank
  | parts _ before s after left right each spaced =>
      exact valueTokens_of_spaced spaced (fun part member =>
        ⟨(each part member).given, (each part member).closed⟩) left right

theorem SpellsStop.isPiece (spells : SpellsStop parts piece) : IsPiece ',' .top piece := by
  cases spells with
  | empty _ blank => exact isPiece_of_isBlank rfl blank
  | parts _ before s after left right each spaced =>
      refine (isPiece_of_isBlank rfl left).append (IsPiece.append ?_ (isPiece_of_isBlank rfl right))
      exact spaced.isPiece rfl fun part member => (each part member).whole

theorem SpellsStop.isWhole (spells : SpellsStop parts piece) : IsWhole piece := by
  cases spells with
  | empty _ blank => exact isWhole_of_isBlank blank
  | parts _ before s after left right each spaced =>
      refine (isWhole_of_isBlank left).append (Closed.append ?_ (isWhole_of_isBlank right))
      exact spaced.isWhole fun part member => (each part member).closed.isWhole

theorem forall_of_forall₂ {α β : Type} {relation : α → β → Prop} {p : β → Prop} {items : List α}
    {others : List β} (related : List.Forall₂ relation items others)
    (each : ∀ item other, relation item other → p other) : ∀ other ∈ others, p other := by
  induction related with
  | nil => exact List.forall_mem_nil _
  | cons own _ ih => exact List.forall_mem_cons.2 ⟨each _ _ own, ih⟩

theorem flatMap_valueTokens (spelled : List.Forall₂ SpellsStop stops pieces) :
    pieces.flatMap valueTokens = stops.flatten := by
  induction spelled with
  | nil => rfl
  | cons own _ ih => rw [List.flatMap_cons, List.flatten_cons, own.valueTokens, ih]

theorem SpellsStops.isWhole (spelled : SpellsStops stops inner) : IsWhole inner := by
  obtain ⟨-, pieces, each, rfl⟩ := spelled
  exact Closed.intercalate trivial (by decide) (forall_of_forall₂ each fun _ _ => SpellsStop.isWhole)

theorem gradientParts_eq (token : String) : gradientParts token =
    ((splitTopLevel ',' (argumentText token.toList)).flatMap valueTokens).map String.ofList := by
  rw [gradientParts, List.map_flatMap]

theorem gradientParts_of_spells (plain : '(' ∉ name) (spelled : SpellsStops stops inner) :
    gradientParts (String.ofList (name ++ '(' :: (inner ++ [')']))) =
      stops.flatten.map String.ofList := by
  obtain ⟨given, pieces, each, rfl⟩ := spelled
  have nonempty : pieces ≠ [] := by
    rintro rfl
    cases each
    exact given rfl
  rw [gradientParts_eq, String.toList_ofList, argumentText_of_call plain,
    splitTopLevel_intercalate nonempty (forall_of_forall₂ each fun _ _ => SpellsStop.isPiece),
    flatMap_valueTokens each]

theorem gradientParts_append {last : List (List Char)} (plain : '(' ∉ name)
    (spelled : SpellsStops (stops ++ [last]) inner) (rest : List Char) :
    ∃ others, gradientParts (String.ofList (name ++ '(' :: (inner ++ ')' :: rest))) =
      stops.flatten.map String.ofList ++ others := by
  obtain ⟨-, pieces, each, rfl⟩ := spelled
  obtain ⟨front, lasts, early, late, rfl⟩ :
      ∃ front lasts, List.Forall₂ SpellsStop stops front ∧ List.Forall₂ SpellsStop [last] lasts ∧
        pieces = front ++ lasts :=
    ⟨pieces.take stops.length, pieces.drop stops.length,
      (List.forall₂_take_append _ _ _ each.flip).flip,
      (List.forall₂_drop_append _ _ _ each.flip).flip, (List.take_append_drop _ _).symm⟩
  cases late with
  | @cons _ piece _ _ own rest =>
      cases rest
      obtain ⟨more, argument⟩ := exists_argumentText plain ([','].intercalate (front ++ [piece])) rest
      refine ⟨((splitTopLevel ',' (piece ++ more)).flatMap valueTokens).map String.ofList, ?_⟩
      rw [gradientParts_eq, String.toList_ofList, argument, splitTopLevel_intercalate_append
        (forall_of_forall₂ early fun _ _ => SpellsStop.isPiece), List.flatMap_append,
        flatMap_valueTokens early, List.map_append]

end Stops

section Texts

variable {part : LayerPart} {text name inner rest : List Char} {stops : List (List (List Char))}

theorem isLayerChar_of_isAlpha {c : Char} (letter : c.isAlpha) : IsLayerChar c ∧ IsFree c := by
  refine ⟨⟨?_, ?_⟩, fun held => ?_⟩
  · refine Bool.eq_false_iff.2 fun blank => ?_
    rw [isAlpha_of_isBlank blank] at letter
    cases letter
  · rintro rfl
    cases letter
  · rw [Closed.isAlpha_of_not_isFree (not_not.2 held)] at letter
    cases letter

theorem isLayerChar_of_known (known : String.ofList (lower name) ∈ gradientNames) :
    ∀ c ∈ name, IsLayerChar c ∧ IsFree c := by
  have names : gradientNames.all fun known => known.toList.all fun c => c == '-' || c.isAlpha := by
    decide +kernel
  intro c member
  have own := List.all_eq_true.1 (List.all_eq_true.1 names _ known) c.toLower
    (by simpa [lower] using ⟨c, member, rfl⟩)
  rw [Bool.or_eq_true, beq_iff_eq, toLower_eq_iff rfl, Char.isAlpha_toLower_eq_isAlpha] at own
  rcases own with rfl | letter
  · exact ⟨⟨rfl, by decide⟩, by decide⟩
  · exact isLayerChar_of_isAlpha letter

theorem paren_not_mem_of_known (known : String.ofList (lower name) ∈ gradientNames) :
    '(' ∉ name := by
  intro member
  exact absurd (isLayerChar_of_known known _ member).2 (by decide)

theorem closed_of_free {inside outside : Char → Prop} {s : List Char}
    (each : ∀ c ∈ s, outside c ∧ IsFree c) : Closed inside outside s := by
  induction s with
  | nil => exact .nil _
  | cons c rest ih =>
      obtain ⟨own, later⟩ := List.forall_mem_cons.1 each
      exact .plain c rest own.1 own.2 (ih later)

theorem LayerPart.Spells.closed (spelled : part.Spells text) :
    text ≠ [] ∧ Closed Anything IsLayerChar text := by
  cases spelled with
  | gradient name stops inner known stopsSpelled =>
      refine ⟨by simp, (closed_of_free (isLayerChar_of_known known)).append ?_⟩
      exact .round inner [] stopsSpelled.isWhole (.nil _)
  | address _ closed leads => exact ⟨leads.ne_nil (by decide), closed⟩
  | plain _ given closed _ _ => exact ⟨given, closed⟩

end Texts

section Tokens

variable {colorOf : ColorReader} {part : LayerPart} {place : Option LayerPart}
  {text name inner rest : List Char} {stops : List (List (List Char))}

theorem isGradient_iff (text : List Char) :
    isGradient (String.ofList text) ↔ ∃ lead ∈ gradients, lead.toList <+: lower text := by
  simp only [isGradient, List.any_eq_true, startsWith, toList_toLower, String.toList_ofList,
    List.isPrefixOf_iff_prefix]

theorem startsWith_url_iff (text : List Char) :
    startsWith (String.ofList text) "url(" ↔ "url(".toList <+: text := by
  have same : (String.ofList text).toList = text := String.toList_ofList
  rw [startsWith, List.isPrefixOf_iff_prefix, same]

theorem isGradient_of_known (known : String.ofList (lower name) ∈ gradientNames)
    (found : ¬IsMissed name) (rest : List Char) :
    isGradient (String.ofList (name ++ '(' :: rest)) := by
  have leads : ∀ name ∈ gradientNames, name ≠ "repeating-conic-gradient" →
      name ++ "(" ∈ gradients := by decide
  rw [isGradient_iff]
  refine ⟨_, leads _ known found, lower rest, ?_⟩
  rw [String.toList_append, String.toList_ofList, lower, lower, lower, List.map_append,
    List.map_cons, List.append_assoc]
  rfl

theorem not_isGradient_of_other (function : ∀ name ∈ gradientNames,
    ¬(name ++ "(").toList <+: lower text) : isGradient (String.ofList text) = false := by
  have names : ∀ lead ∈ gradients, ∃ name ∈ gradientNames, lead = name ++ "(" := by decide
  rw [Bool.eq_false_iff, Ne, isGradient_iff]
  rintro ⟨lead, member, leads⟩
  obtain ⟨name, known, rfl⟩ := names lead member
  exact function name known leads

theorem not_isGradient_of_missed (missed : IsMissed name) (rest : List Char) :
    isGradient (String.ofList (name ++ '(' :: rest)) = false := by
  have same : lower (name ++ '(' :: rest) =
      "repeating-conic-gradient".toList ++ '(' :: lower rest := by
    rw [← missed, String.toList_ofList, lower, List.map_append, List.map_cons]
    rfl
  rw [Bool.eq_false_iff, Ne, isGradient_iff, same]
  simp [gradients]

theorem not_isGradient_of_address (leads : "url(".toList <+: text) :
    isGradient (String.ofList text) = false := by
  obtain ⟨rest, rfl⟩ := leads
  rw [Bool.eq_false_iff, Ne, isGradient_iff]
  simp [gradients, lower]

theorem isGradient_append_comma (text rest : List Char) :
    isGradient (String.ofList (text ++ ',' :: rest)) = isGradient (String.ofList text) := by
  have free : ∀ lead ∈ gradients, ',' ∉ lead.toList := by decide
  rw [Bool.eq_iff_iff, isGradient_iff, isGradient_iff]
  refine exists_congr fun lead => and_congr_right fun member => ?_
  rw [lower, List.map_append, ← lower]
  apply Syntax.isPrefix_append_iff
  rintro _ ⟨⟩
  exact free lead member

theorem colorOfToken?_of_spells (spelled : part.Spells text)
    (known : ∀ name stops, part = .gradient name stops → ¬IsMissed name) :
    colorOfToken? colorOf (String.ofList text) = part.color? colorOf := by
  cases spelled with
  | gradient name stops inner named spelled =>
      rw [colorOfToken?, if_pos (isGradient_of_known named (known name stops rfl) _),
        gradientParts_of_spells (paren_not_mem_of_known named) spelled]
      rfl
  | address _ _ leads =>
      rw [colorOfToken?, not_isGradient_of_address leads, if_neg Bool.false_ne_true,
        if_pos ((startsWith_url_iff text).2 leads)]
      rfl
  | plain _ _ _ other function =>
      rw [colorOfToken?, not_isGradient_of_other function, if_neg Bool.false_ne_true,
        if_neg (fun leads => other ((startsWith_url_iff text).1 leads))]
      rfl

theorem colorOfToken?_of_gradient {last : List (List Char)}
    (spelled : (LayerPart.gradient name (stops ++ [last])).Spells text) (known : ¬IsMissed name)
    (early : ∃ part ∈ stops.flatten, isColorBy colorOf (String.ofList part) = .ok true)
    (rest : List Char) :
    colorOfToken? colorOf (String.ofList (text ++ rest)) =
        (LayerPart.gradient name (stops ++ [last])).color? colorOf ∧
      (LayerPart.gradient name (stops ++ [last])).color? colorOf ≠ .ok none := by
  obtain ⟨part, member, isColor⟩ := early
  have found : ∃ part ∈ stops.flatten.map String.ofList, isColorBy colorOf part = .ok true :=
    ⟨String.ofList part, List.mem_map_of_mem member, isColor⟩
  have color : (LayerPart.gradient name (stops ++ [last])).color? colorOf =
      (stops.flatten.map String.ofList).findM? (isColorBy colorOf) := by
    rw [LayerPart.color?, List.flatten_append, List.map_append,
      findM?_append_of_ne_none (findM?_ne_none found)]
  refine ⟨?_, by rw [color]; exact findM?_ne_none found⟩
  cases spelled with
  | gradient _ _ inner named spelled =>
      obtain ⟨others, parts⟩ := gradientParts_append (paren_not_mem_of_known named) spelled rest
      have whole : name ++ '(' :: (inner ++ [')']) ++ rest = name ++ '(' :: (inner ++ ')' :: rest) := by
        simp
      rw [color, whole, colorOfToken?, if_pos (isGradient_of_known named known _), parts,
        findM?_append_of_ne_none (findM?_ne_none found)]

/-- A token that starts with no gradient counts as nothing, if it is no color as it stands. -/
theorem colorOfToken?_of_colorless (other : isGradient (String.ofList text) = false)
    (whole : isColorBy colorOf (String.ofList text) = .ok false) :
    colorOfToken? colorOf (String.ofList text) = .ok none := by
  rw [colorOfToken?, other, if_neg Bool.false_ne_true, whole]
  split
  · rfl
  · rfl

theorem SpellsPlace.not_isGradient (spelled : SpellsPlace place text)
    (missed : ∀ name stops, place = some (.gradient name stops) → IsMissed name) :
    isGradient (String.ofList text) = false := by
  cases spelled with
  | empty => decide +kernel
  | part part _ spelled =>
      cases spelled with
      | gradient name stops inner known _ =>
          exact not_isGradient_of_missed (missed name stops rfl) _
      | address _ _ leads => exact not_isGradient_of_address leads
      | plain _ _ _ _ function => exact not_isGradient_of_other function

end Tokens

section Runs

variable {colorOf : ColorReader} {run : BackgroundRun} {runs : List BackgroundRun}
  {place : Option LayerPart} {text : List Char}

theorem SpellsPlace.closed (spelled : SpellsPlace place text) :
    Closed Anything IsLayerChar text := by
  cases spelled with
  | empty => exact .nil _
  | part part _ spelled => exact spelled.closed.2

theorem BackgroundRun.IsWritten.closed (written : run.IsWritten) : Closed Anything IsSolid run.text := by
  obtain ⟨pieces, each, same⟩ := written.spelled
  have solid : IsSolid ',' := rfl
  rw [same]
  apply Closed.intercalate solid (by decide)
  exact forall_of_forall₂ each fun _ _ spelled => spelled.closed.mono (fun _ => id) fun _ => And.left

/-- A run starts with the text of its first place, and if there are others, a comma follows. -/
theorem BackgroundRun.IsWritten.exists_first (written : run.IsWritten) :
    ∃ place others piece, run.places = place :: others ∧ SpellsPlace place piece ∧
      (others = [] ∧ run.text = piece ∨ others ≠ [] ∧ ∃ rest, run.text = piece ++ ',' :: rest) := by
  obtain ⟨pieces, each, same⟩ := written.spelled
  have given := written.given
  obtain ⟨places, text⟩ := run
  dsimp only at each same given ⊢
  cases each with
  | nil => exact absurd same given
  | @cons place piece others pieces own more =>
      refine ⟨place, others, piece, rfl, own, ?_⟩
      cases more with
      | nil => exact .inl ⟨rfl, by simpa using same⟩
      | cons next later =>
          rw [List.intercalate_cons_cons, List.append_assoc, List.singleton_append] at same
          exact .inr ⟨List.cons_ne_nil _ _, _, same⟩

theorem colorOfToken?_run (written : run.IsWritten) (legible : run.IsLegible colorOf) :
    colorOfToken? colorOf (String.ofList run.text) =
      run.places.reduceOption.findSomeM? (LayerPart.color? colorOf) := by
  obtain ⟨place, others, piece, places, own, joined⟩ := written.exists_first
  cases legible with
  | alone part text known =>
      obtain ⟨rfl, rfl⟩ := List.cons.inj places
      obtain ⟨-, rfl⟩ := joined.resolve_right fun more => more.1 rfl
      cases own with
      | part _ _ spelled =>
          rw [List.reduceOption_singleton, Option.toList, findSomeM?_singleton]
          exact colorOfToken?_of_spells spelled known
  | gradient name stops last others text known early =>
      obtain ⟨rfl, rfl⟩ := List.cons.inj places
      cases own with
      | part _ _ spelled =>
          obtain ⟨rest, rfl⟩ : ∃ rest, text = piece ++ rest := by
            rcases joined with ⟨-, same⟩ | ⟨-, rest, same⟩
            · exact ⟨[], by rw [List.append_nil]; exact same⟩
            · exact ⟨_, same⟩
          obtain ⟨read, found⟩ := colorOfToken?_of_gradient spelled known early rest
          rw [List.reduceOption_cons_of_some, findSomeM?_cons_of_ne_none found]
          exact read
  | colorless places text first parts whole =>
      have missed : ∀ name stops, place = some (.gradient name stops) → IsMissed name := by
        rintro name stops rfl
        exact first name stops (congrArg List.head? places)
      rw [findSomeM?_eq_none parts]
      refine colorOfToken?_of_colorless ?_ whole
      have other := own.not_isGradient missed
      rcases joined with ⟨-, rfl⟩ | ⟨-, rest, rfl⟩
      · exact other
      · rw [isGradient_append_comma, other]

theorem findSomeM?_runs (written : ∀ run ∈ runs, run.IsWritten)
    (legible : AreLegible colorOf runs) :
    (runs.map fun run => String.ofList run.text).findSomeM? (colorOfToken? colorOf) =
      (partsOf runs).findSomeM? (LayerPart.color? colorOf) := by
  induction runs with
  | nil => rfl
  | cons run rest ih =>
      obtain ⟨own, others⟩ := List.forall_mem_cons.1 written
      obtain ⟨first, later⟩ := legible
      have read := colorOfToken?_run own first
      rw [partsOf, List.flatMap_cons, ← partsOf, List.map_cons]
      by_cases missed : run.places.reduceOption.findSomeM? (LayerPart.color? colorOf) = .ok none
      · rw [findSomeM?_cons_of_none (read.trans missed), findSomeM?_append_of_none missed,
          ih others (later missed)]
      · rw [findSomeM?_append_of_ne_none missed, ← read]
        rw [← read] at missed
        exact findSomeM?_cons_of_ne_none missed _

theorem tokensOf_of_spells (spelled : SpellsBackground runs text) :
    tokensOf (String.ofList text) = runs.map fun run => String.ofList run.text := by
  cases spelled with
  | intro before s after left right written spaced =>
      have each : ∀ t ∈ runs.map BackgroundRun.text, t ≠ [] ∧ Closed Anything IsSolid t := by
        intro t member
        obtain ⟨run, there, rfl⟩ := List.mem_map.1 member
        exact ⟨(written run there).given, (written run there).closed⟩
      rw [tokensOf, String.toList_ofList, valueTokens_of_spaced spaced each left right,
        List.map_map]
      rfl

theorem backgroundColor_of_spells (spelled : SpellsBackground runs text)
    (legible : AreLegible colorOf runs) :
    backgroundColor colorOf (tokensOf (String.ofList text)) = firstColor colorOf (partsOf runs) := by
  have written : ∀ run ∈ runs, run.IsWritten := by
    cases spelled with
    | intro _ _ _ _ _ written _ => exact written
  rw [backgroundColor, tokensOf_of_spells spelled, findSomeM?_runs written legible, firstColor]

/-- A background gives the first color in its parts, and nothing else of it counts. By the reader of
colors that the program has, this is its only longhand. -/
theorem expand_background (spelled : SpellsBackground runs text) :
    (∀ colorOf, AreLegible colorOf runs →
      backgroundColor colorOf (tokensOf (String.ofList text)) =
          firstColor colorOf (partsOf runs) ∧
        ∀ others other, SpellsBackground others other → AreLegible colorOf others →
          partsOf others = partsOf runs →
          backgroundColor colorOf (tokensOf (String.ofList other)) =
            backgroundColor colorOf (tokensOf (String.ofList text))) ∧
      (AreLegible Color.read? runs → wideKeyword? (tokensOf (String.ofList text)) = none →
        Declaration.expand ⟨"background", String.ofList text⟩ =
          (firstColor Color.read? (partsOf runs)).map fun color =>
            [⟨"background-color", color⟩]) := by
  refine ⟨fun colorOf legible => ⟨backgroundColor_of_spells spelled legible, ?_⟩, ?_⟩
  · intro others other spelled' legible' same
    rw [backgroundColor_of_spells spelled legible, backgroundColor_of_spells spelled' legible', same]
  · intro legible other
    have known : Shorthand.ofName? "background" = some .background := rfl
    rw [Declaration.expand_of_shorthand known, expand_of_not_wide other, expandTokens,
      backgroundColor_of_spells spelled legible]

/-- A comma after an address and after a gradient, whose name is in capitals. -/
theorem expand_background_gradient :
    Declaration.expand ⟨"background", "url(a.png), LINEAR-gradient(to left, red, blue),x"⟩ =
      .ok [⟨"background-color", "red"⟩] := by
  have space : ∀ c ∈ [' '], isBlank c := List.forall_mem_singleton.2 rfl
  have nothing : ∀ c ∈ ([] : List Char), isBlank c := List.forall_mem_nil _
  have word (part : List Char) (own : IsStopPart part) : ∀ part' ∈ [part], IsStopPart part' :=
    List.forall_mem_singleton.2 own
  have left : IsStopPart "left".toList := ⟨by decide, by decide, by decide⟩
  have side : IsStopPart "to".toList := ⟨by decide, by decide, by decide⟩
  have red : IsStopPart "red".toList := ⟨by decide, by decide, by decide⟩
  have blue : IsStopPart "blue".toList := ⟨by decide, by decide, by decide⟩
  have stops : SpellsStops ([["to".toList, "left".toList], ["red".toList]] ++ [["blue".toList]])
      "to left, red, blue".toList := by
    refine ⟨by decide, ["to left".toList, " red".toList, " blue".toList], ?_, rfl⟩
    refine .cons ?_ (.cons ?_ (.cons ?_ .nil))
    · exact .parts _ [] "to left".toList [] nothing nothing
        (List.forall_mem_cons.2 ⟨side, word _ left⟩)
        (.more "to".toList [' '] _ _ (by decide) space (.last _))
    · exact .parts _ [' '] "red".toList [] space nothing (word _ red) (.last _)
    · exact .parts _ [' '] "blue".toList [] space nothing (word _ blue) (.last _)
  let gradient := LayerPart.gradient "LINEAR-gradient".toList
    ([["to".toList, "left".toList], ["red".toList]] ++ [["blue".toList]])
  have spelledGradient : gradient.Spells "LINEAR-gradient(to left, red, blue)".toList :=
    .gradient _ _ "to left, red, blue".toList (by decide +kernel) stops
  have address : (LayerPart.address "url(a.png)".toList).Spells "url(a.png)".toList :=
    .address _ (by decide) (by decide)
  have plain : (LayerPart.plain "x".toList).Spells "x".toList :=
    .plain _ (by decide) (by decide) (by decide) (by decide +kernel)
  let first : BackgroundRun := ⟨[some (.address "url(a.png)".toList), none], "url(a.png),".toList⟩
  let second : BackgroundRun :=
    ⟨[some gradient, some (.plain "x".toList)], "LINEAR-gradient(to left, red, blue),x".toList⟩
  have written : ∀ run ∈ [first, second], run.IsWritten := by
    refine List.forall_mem_cons.2 ⟨⟨by decide, ["url(a.png)".toList, []], ?_, rfl⟩,
      List.forall_mem_singleton.2 ⟨by decide,
        ["LINEAR-gradient(to left, red, blue)".toList, "x".toList], ?_, rfl⟩⟩
    · exact .cons (.part _ _ address) (.cons .empty .nil)
    · exact .cons (.part _ _ spelledGradient) (.cons (.part _ _ plain) .nil)
  have spelled : SpellsBackground [first, second]
      "url(a.png), LINEAR-gradient(to left, red, blue),x".toList :=
    .intro [] "url(a.png), LINEAR-gradient(to left, red, blue),x".toList [] nothing nothing written
      (.more "url(a.png),".toList [' '] _ _ (by decide) space (.last _))
  have legible : AreLegible Color.read? [first, second] := by
    refine ⟨.colorless _ _ nofun ?_ (by decide +kernel), fun _ => ⟨.gradient _ _ _ _ _ ?_ ?_, ?_⟩⟩
    · exact List.forall_mem_singleton.2 rfl
    · exact (by decide +kernel : "linear-gradient" ≠ "repeating-conic-gradient")
    · exact ⟨"red".toList, by decide, by decide +kernel⟩
    · exact fun _ => trivial
  have expanded := (expand_background spelled).2 legible (by decide +kernel)
  have color : firstColor Color.read? (partsOf [first, second]) = .ok "red" := by decide +kernel
  rw [color] at expanded
  exact expanded

/-- A color with a comma after it is lost, and so are those of one kind of gradients. -/
theorem expand_background_comma :
    (∃ runs, SpellsBackground runs "red, url(a.png)".toList ∧
      firstColor Color.read? (partsOf runs) = .ok "red" ∧
      Declaration.expand ⟨"background", "red, url(a.png)"⟩ =
        .ok [⟨"background-color", "transparent"⟩]) ∧
    ∃ runs, SpellsBackground runs "repeating-conic-gradient(red, blue)".toList ∧
      firstColor Color.read? (partsOf runs) = .ok "red" ∧
      Declaration.expand ⟨"background", "repeating-conic-gradient(red, blue)"⟩ =
        .ok [⟨"background-color", "transparent"⟩] := by
  have space : ∀ c ∈ [' '], isBlank c := List.forall_mem_singleton.2 rfl
  have nothing : ∀ c ∈ ([] : List Char), isBlank c := List.forall_mem_nil _
  constructor
  · have address : (LayerPart.address "url(a.png)".toList).Spells "url(a.png)".toList :=
      .address _ (by decide) (by decide)
    have plain : (LayerPart.plain "red".toList).Spells "red".toList :=
      .plain _ (by decide) (by decide) (by decide) (by decide +kernel)
    have color : BackgroundRun.IsWritten ⟨[some (.plain "red".toList), none], "red,".toList⟩ :=
      ⟨by decide, ["red".toList, []], .cons (.part _ _ plain) (.cons .empty .nil), rfl⟩
    have image : BackgroundRun.IsWritten
        ⟨[some (.address "url(a.png)".toList)], "url(a.png)".toList⟩ :=
      ⟨by decide, ["url(a.png)".toList], .cons (.part _ _ address) .nil, rfl⟩
    refine ⟨_, .intro [] "red, url(a.png)".toList [] nothing nothing
      (List.forall_mem_cons.2 ⟨color, List.forall_mem_singleton.2 image⟩)
      (.more "red,".toList [' '] _ _ (by decide) space (.last _)), ?_, ?_⟩
    · decide +kernel
    · decide +kernel
  · have stops : SpellsStops [["red".toList], ["blue".toList]] "red, blue".toList := by
      have red : IsStopPart "red".toList := ⟨by decide, by decide, by decide⟩
      have blue : IsStopPart "blue".toList := ⟨by decide, by decide, by decide⟩
      refine ⟨by decide, ["red".toList, " blue".toList], .cons ?_ (.cons ?_ .nil), rfl⟩
      · exact .parts _ [] "red".toList [] nothing nothing (List.forall_mem_singleton.2 red) (.last _)
      · exact .parts _ [' '] "blue".toList [] space nothing (List.forall_mem_singleton.2 blue)
          (.last _)
    have gradient : (LayerPart.gradient "repeating-conic-gradient".toList
        [["red".toList], ["blue".toList]]).Spells "repeating-conic-gradient(red, blue)".toList :=
      .gradient _ _ "red, blue".toList (by decide +kernel) stops
    have written : BackgroundRun.IsWritten ⟨[some (.gradient "repeating-conic-gradient".toList
        [["red".toList], ["blue".toList]])], "repeating-conic-gradient(red, blue)".toList⟩ :=
      ⟨by decide, ["repeating-conic-gradient(red, blue)".toList], .cons (.part _ _ gradient) .nil,
        rfl⟩
    refine ⟨_, .intro [] "repeating-conic-gradient(red, blue)".toList [] nothing nothing
      (List.forall_mem_singleton.2 written) (.last _), ?_, ?_⟩
    · decide +kernel
    · decide +kernel

end Runs

end ComputedStyle.Shorthand
