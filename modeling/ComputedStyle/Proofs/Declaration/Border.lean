import ComputedStyle.Declaration.Shorthand
import ComputedStyle.Proofs.Text.Spaced

namespace ComputedStyle.Shorthand

open Text

namespace BorderParts

/-- At most one token is a width, at most one a style, and at most one is anything else. -/
structure GivenOnce (tokens : List String) : Prop where
  width : tokens.countP (fun token => isWidth token.toLower) ≤ 1
  style : tokens.countP (fun token => token.toLower ∈ styles) ≤ 1
  color : tokens.countP
    (fun token => ¬isWidth token.toLower ∧ token.toLower ∉ styles) ≤ 1

instance : DecidablePred GivenOnce := fun tokens =>
  decidable_of_iff
    (tokens.countP (fun token => isWidth token.toLower) ≤ 1 ∧
      tokens.countP (fun token => token.toLower ∈ styles) ≤ 1 ∧
      tokens.countP (fun token => ¬isWidth token.toLower ∧ token.toLower ∉ styles) ≤ 1)
    ⟨fun h => ⟨h.1, h.2.1, h.2.2⟩, fun h => ⟨h.width, h.style, h.color⟩⟩

theorem isWidth_of_mem_styles {word : String} (style : word ∈ styles) : isWidth word = false := by
  have apart : ∀ word ∈ styles, isWidth word = false := by decide
  exact apart word style

/-- The part that a token is taken for; `wordOf` is what it says of that part. -/
def aspectOf (token : String) : BorderAspect :=
  if token.toLower ∈ styles then .style
  else if isWidth token.toLower then .width
  else .color

def wordOf (token : String) : String :=
  if token.toLower ∈ styles then token.toLower else token

def get (parts : BorderParts) : BorderAspect → String
  | .width => parts.width
  | .style => parts.style
  | .color => parts.color

def set (parts : BorderParts) (aspect : BorderAspect) (word : String) : BorderParts :=
  match aspect with
  | .width => { parts with width := word }
  | .style => { parts with style := word }
  | .color => { parts with color := word }

theorem set_comm {first second : BorderAspect} (apart : first ≠ second) (parts : BorderParts)
    (word other : String) :
    (parts.set first word).set second other = (parts.set second other).set first word := by
  cases first with
  | width =>
      cases second with
      | width => exact absurd rfl apart
      | style => rfl
      | color => rfl
  | style =>
      cases second with
      | width => rfl
      | style => exact absurd rfl apart
      | color => rfl
  | color =>
      cases second with
      | width => rfl
      | style => rfl
      | color => exact absurd rfl apart

variable {token first second : String} {tokens others : List String}

theorem add_eq_set (parts : BorderParts) (token : String) :
    parts.add token = parts.set (aspectOf token) (wordOf token) := by
  unfold add aspectOf wordOf
  split
  · rfl
  · split
    · rfl
    · rfl

theorem aspectOf_eq_style_iff : aspectOf token = .style ↔ token.toLower ∈ styles := by
  unfold aspectOf
  split
  · simp [*]
  · split
    · simp [*]
    · simp [*]

theorem aspectOf_eq_width_iff : aspectOf token = .width ↔ isWidth token.toLower := by
  unfold aspectOf
  split
  · next style => simp [isWidth_of_mem_styles style]
  · split
    · simp [*]
    · simp [*]

theorem aspectOf_eq_color_iff :
    aspectOf token = .color ↔ ¬isWidth token.toLower ∧ token.toLower ∉ styles := by
  unfold aspectOf
  split
  · simp [*]
  · split
    · simp [*]
    · simp [*]

theorem eq_of_countP_le_one {p : String → Bool} (once : tokens.countP p ≤ 1)
    (memberFirst : first ∈ tokens) (memberSecond : second ∈ tokens) (holdsFirst : p first)
    (holdsSecond : p second) : first = second := by
  have inFirst : first ∈ tokens.filter p := List.mem_filter.2 ⟨memberFirst, holdsFirst⟩
  have inSecond : second ∈ tokens.filter p := List.mem_filter.2 ⟨memberSecond, holdsSecond⟩
  rw [List.countP_eq_length_filter] at once
  cases kept : tokens.filter p with
  | nil =>
      rw [kept] at inFirst
      cases inFirst
  | cons only rest =>
      rw [kept, List.length_cons] at once
      have empty : rest = [] := List.length_eq_zero_iff.1 (by omega)
      rw [kept, empty] at inFirst inSecond
      exact (List.mem_singleton.1 inFirst).trans (List.mem_singleton.1 inSecond).symm

theorem GivenOnce.eq_of_aspectOf (once : GivenOnce tokens) (memberFirst : first ∈ tokens)
    (memberSecond : second ∈ tokens) (same : aspectOf first = aspectOf second) :
    first = second := by
  cases aspect : aspectOf second with
  | width =>
      rw [aspect] at same
      exact eq_of_countP_le_one once.width memberFirst memberSecond
        (aspectOf_eq_width_iff.1 same) (aspectOf_eq_width_iff.1 aspect)
  | style =>
      rw [aspect] at same
      exact eq_of_countP_le_one once.style memberFirst memberSecond
        (decide_eq_true (aspectOf_eq_style_iff.1 same))
        (decide_eq_true (aspectOf_eq_style_iff.1 aspect))
  | color =>
      rw [aspect] at same
      exact eq_of_countP_le_one once.color memberFirst memberSecond
        (decide_eq_true (aspectOf_eq_color_iff.1 same))
        (decide_eq_true (aspectOf_eq_color_iff.1 aspect))

theorem GivenOnce.add_comm (once : GivenOnce tokens) (memberFirst : first ∈ tokens)
    (memberSecond : second ∈ tokens) (parts : BorderParts) :
    (parts.add first).add second = (parts.add second).add first := by
  by_cases same : aspectOf first = aspectOf second
  · rw [once.eq_of_aspectOf memberFirst memberSecond same]
  · rw [add_eq_set, add_eq_set, add_eq_set, add_eq_set, set_comm same]

theorem ofTokens_perm (once : GivenOnce tokens) (arranged : tokens.Perm others) :
    ofTokens tokens = ofTokens others := by
  apply arranged.foldl_eq'
  intro first memberFirst second memberSecond parts
  exact once.add_comm memberFirst memberSecond parts

end BorderParts

theorem wideKeyword?_perm {tokens others : List String} (arranged : tokens.Perm others) :
    wideKeyword? tokens = wideKeyword? others := by
  match tokens, others with
  | [], others => rw [List.nil_perm.1 arranged]
  | [token], others => rw [List.singleton_perm.1 arranged]
  | first :: second :: rest, others =>
      have length := arranged.length_eq
      match others with
      | [] => cases length
      | [_] => cases length
      | _ :: _ :: _ => rfl

/-- What the tokens of a value make of the border of a side. -/
def sideLonghands (tokens : List String) (side : Side) : List Declaration :=
  match wideKeyword? tokens with
  | some keyword => (borderSide side).longhands.map fun name => ⟨name, keyword⟩
  | none => (BorderParts.ofTokens tokens).declarations side

theorem expand_borderSide (value : String) (side : Side) :
    (borderSide side).expand value = .ok (sideLonghands (tokensOf value) side) := by
  unfold expand sideLonghands
  dsimp only
  cases wideKeyword? (tokensOf value) with
  | none => rfl
  | some keyword => rfl

theorem expand_border (value : String) :
    border.expand value = .ok (Side.all.flatMap (sideLonghands (tokensOf value))) := by
  unfold expand sideLonghands
  dsimp only
  cases wideKeyword? (tokensOf value) with
  | none => rfl
  | some keyword =>
      apply congrArg Except.ok
      exact List.map_flatMap

theorem sideLonghands_perm {tokens others : List String} (once : BorderParts.GivenOnce tokens)
    (arranged : tokens.Perm others) : sideLonghands tokens = sideLonghands others := by
  funext side
  unfold sideLonghands
  rw [wideKeyword?_perm arranged, BorderParts.ofTokens_perm once arranged]

theorem ofName?_side (side : Side) : ofName? ("border-" ++ side.name) = some (borderSide side) := by
  cases side with
  | top => rfl
  | right => rfl
  | bottom => rfl
  | left => rfl

theorem expand_side (value : String) (side : Side) :
    Declaration.expand ⟨"border-" ++ side.name, value⟩ =
      .ok (sideLonghands (tokensOf value) side) := by
  rw [Declaration.expand, ofName?_side]
  exact expand_borderSide value side

theorem expand_all (value : String) : Declaration.expand ⟨"border", value⟩ =
    .ok (Side.all.flatMap (sideLonghands (tokensOf value))) :=
  expand_border value

theorem toList_of_mem_tokensOf {value token : String} (member : token ∈ tokensOf value) :
    token.toList ∈ valueTokens value.toList := by
  obtain ⟨chars, there, rfl⟩ := List.mem_map.1 member
  rwa [String.toList_ofList]

theorem tokensOf_intercalate {value : String} (closed : IsWhole value.toList)
    {tokens : List String} (arranged : tokens.Perm (tokensOf value)) :
    tokensOf (" ".intercalate tokens) = tokens := by
  have each : ∀ t ∈ tokens.map String.toList, t ≠ [] ∧ Closed Anything IsSolid t := by
    intro t member
    obtain ⟨token, there, rfl⟩ := List.mem_map.1 member
    exact closed.mem_valueTokens (toList_of_mem_tokensOf (arranged.subset there))
  have blank : " ".toList = [' '] := rfl
  rw [tokensOf, String.toList_intercalate, blank, valueTokens_intercalate each, List.map_map]
  simp

/-- The parts of a border may come in any order, if none of them comes twice, and the tokens of a
closed value can be written in any; the border of all sides is those of the sides one after
another. -/
theorem border_order :
    (∀ value other, (tokensOf value).Perm (tokensOf other) →
      BorderParts.GivenOnce (tokensOf value) →
        Declaration.expand ⟨"border", value⟩ = Declaration.expand ⟨"border", other⟩ ∧
        ∀ side : Side, Declaration.expand ⟨"border-" ++ side.name, value⟩ =
          Declaration.expand ⟨"border-" ++ side.name, other⟩) ∧
    (∀ (value : String) tokens, IsWhole value.toList → tokens.Perm (tokensOf value) →
      tokensOf (" ".intercalate tokens) = tokens) ∧
    ∀ value, ∃ longhands : Side → List Declaration,
      (∀ side, Declaration.expand ⟨"border-" ++ side.name, value⟩ = .ok (longhands side)) ∧
        Declaration.expand ⟨"border", value⟩ = .ok (Side.all.flatMap longhands) := by
  refine ⟨?_, ?_, ?_⟩
  · intro value other arranged once
    have same := sideLonghands_perm once arranged
    constructor
    · rw [expand_all, expand_all, same]
    · intro side
      rw [expand_side, expand_side, same]
  · intro value tokens closed arranged
    exact tokensOf_intercalate closed arranged
  · intro value
    exact ⟨sideLonghands (tokensOf value), expand_side value, expand_all value⟩

/-- Capitals, and blanks inside of a function. -/
theorem border_order_capitals :
    let value := " 2PX  Solid rgb(0, 0, 1)"
    let other := "rgb(0, 0, 1) 2PX Solid"
    ((tokensOf value).Perm (tokensOf other) ∧ BorderParts.GivenOnce (tokensOf value) ∧
      Declaration.expand ⟨"border", value⟩ = Declaration.expand ⟨"border", other⟩) ∧
    (IsWhole value.toList ∧
      tokensOf (" ".intercalate ["Solid", "rgb(0, 0, 1)", "2PX"]) =
        ["Solid", "rgb(0, 0, 1)", "2PX"]) := by
  intro value other
  have tokens : tokensOf value = ["2PX", "Solid", "rgb(0, 0, 1)"] := by decide
  have others : tokensOf other = ["rgb(0, 0, 1)", "2PX", "Solid"] := by decide
  have arranged : (tokensOf value).Perm (tokensOf other) := by
    rw [tokens, others]
    decide
  have once : BorderParts.GivenOnce (tokensOf value) := by
    rw [tokens]
    decide +kernel
  have closed : IsWhole value.toList := by decide
  obtain ⟨orders, written, -⟩ := border_order
  refine ⟨⟨arranged, once, (orders value other arranged once).1⟩, closed, ?_⟩
  apply written value _ closed
  rw [tokens]
  decide

end ComputedStyle.Shorthand
