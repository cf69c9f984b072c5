import ComputedStyle.Proofs.Declaration.Parts
import ComputedStyle.Proofs.Engine.Settings
import ComputedStyle.Proofs.Number.Spelling
import ComputedStyle.Proofs.Text.Case

/-!
Font weights.

The weight of a number lies between the lightest and the heaviest one, whatever the number, as long as
it is one: the range does not hold a NaN back. So the text of a NaN is the only text that is read as a
weight out of range (`fontWeight_inRange`).
-/

namespace ComputedStyle

open Number

def IsWeight (weight : Nat) : Prop :=
  lightestWeight ≤ weight ∧ weight ≤ heaviestWeight

instance (weight : Nat) : Decidable (IsWeight weight) :=
  inferInstanceAs (Decidable (_ ∧ _))

theorem ofNat_lightestWeight :
    (.ofNat lightestWeight : Single) = .finite false (lightestWeight * 2 ^ Format.single.places) := by
  decide +kernel

theorem ofNat_heaviestWeight :
    (.ofNat heaviestWeight : Single) = .finite false (heaviestWeight * 2 ^ Format.single.places) := by
  decide +kernel

theorem isWeight_of_count {count : Nat}
    (low : lightestWeight * 2 ^ Format.single.places ≤ count)
    (high : count ≤ heaviestWeight * 2 ^ Format.single.places) :
    IsWeight (count / 2 ^ Format.single.places) := by
  have positive : 0 < 2 ^ Format.single.places := Nat.two_pow_pos _
  constructor
  · exact (Nat.le_div_iff_mul_le positive).2 low
  · exact Nat.div_le_of_le_mul (by rwa [Nat.mul_comm])

theorem truncate_finite (count : Nat) :
    ((Binary.finite false count : Single).truncate?.getD 0).toNat =
      count / 2 ^ Format.single.places :=
  rfl

theorem isWeight_weightOfNumber {x : Single} (number : x ≠ .nan) : IsWeight (weightOfNumber x) := by
  rw [weightOfNumber, ofNat_lightestWeight, ofNat_heaviestWeight]
  have ordered : lightestWeight * 2 ^ Format.single.places ≤
      heaviestWeight * 2 ^ Format.single.places := Nat.mul_le_mul_right _ (by decide)
  have lightest := isWeight_of_count (Nat.le_refl _) ordered
  have heaviest := isWeight_of_count ordered (Nat.le_refl _)
  cases x with
  | nan => exact absurd rfl number
  | infinite negative =>
      cases negative with
      | true => exact lightest
      | false => exact heaviest
  | finite negative count =>
      rw [Binary.clamp]
      split
      · exact lightest
      · split
        · exact heaviest
        · next above below =>
            simp only [Binary.lt, decide_eq_true_eq, Int.not_lt] at above below
            cases negative with
            | true =>
                have positive : 0 < lightestWeight * 2 ^ Format.single.places :=
                  Nat.mul_pos (by decide) (Nat.two_pow_pos _)
                simp only [Binary.units] at above
                omega
            | false =>
                rw [truncate_finite]
                exact isWeight_of_count (Int.ofNat_le.1 above) (Int.ofNat_le.1 below)

theorem weightOfNumber_nan : weightOfNumber .nan = 0 := by
  have below : Binary.lt (.nan : Single) (.ofNat lightestWeight) = false := rfl
  have above : Binary.lt (.ofNat heaviestWeight) (.nan : Single) = false := by
    rw [ofNat_heaviestWeight]
    rfl
  rw [weightOfNumber, Binary.clamp, below, above]
  rfl

/-- A text without the blanks around it, in lower case. -/
def weightWord (raw : String) : List Char :=
  Text.lower (Text.trim raw.toList)

def weightKeywords : List String := ["normal", "bold", "bolder", "lighter"]

theorem toList_weightWord (raw : String) :
    (Text.trimmed raw).toLower.toList = weightWord raw := by
  rw [Shorthand.toList_toLower, Text.trimmed, String.toList_ofList]
  rfl

theorem weightWord_word (raw : String) : weightWord (Text.trimmed raw).toLower = weightWord raw := by
  calc weightWord (Text.trimmed raw).toLower
      = Text.lower (Text.trim (Text.lower (Text.trim raw.toList))) := by
        rw [weightWord, toList_weightWord, weightWord]
    _ = Text.lower (Text.lower (Text.trim raw.toList)) := by
        rw [← Text.lower_trim, Text.trim_trim]
    _ = weightWord raw := by
        rw [weightWord, Text.lower, Text.lower, List.map_map]
        exact List.map_congr_left fun c _ => Char.toLower_toLower_eq_toLower c

theorem readFontWeight_of_mem {raw : String}
    (keyword : String.ofList (weightWord raw) ∈ weightKeywords) : IsWeight (readFontWeight raw) := by
  rw [← toList_weightWord, String.ofList_toList] at keyword
  simp only [weightKeywords, List.mem_cons, List.not_mem_nil, or_false] at keyword
  rw [readFontWeight]
  rcases keyword with same | same | same | same <;> rw [same] <;> decide

theorem readFontWeight_of_not_mem {raw : String}
    (other : String.ofList (weightWord raw) ∉ weightKeywords) :
    readFontWeight raw = ((Binary.read? .single (weightWord raw)).map weightOfNumber).getD 400 := by
  rw [← toList_weightWord, String.ofList_toList] at other
  simp only [weightKeywords, List.mem_cons, List.not_mem_nil, or_false, not_or] at other
  rw [readFontWeight, toList_weightWord]
  split
  · next same => exact absurd same other.1
  · next same => exact absurd same other.2.1
  · next same => exact absurd same other.2.2.1
  · next same => exact absurd same other.2.2.2
  · rfl

theorem not_spellsNaN_of_keyword {word : List Char} (keyword : String.ofList word ∈ weightKeywords) :
    ¬Binary.SpellsNaN word := by
  rw [← Binary.read?_eq_nan_iff .single]
  simp only [weightKeywords, List.mem_cons, List.not_mem_nil, or_false] at keyword
  rcases keyword with same | same | same | same <;>
    rw [← String.toList_ofList (l := word), same] <;> decide

theorem isWeight_readFontWeight_iff (raw : String) :
    IsWeight (readFontWeight raw) ↔ ¬Binary.SpellsNaN (weightWord raw) := by
  by_cases keyword : String.ofList (weightWord raw) ∈ weightKeywords
  · exact iff_of_true (readFontWeight_of_mem keyword) (not_spellsNaN_of_keyword keyword)
  · rw [readFontWeight_of_not_mem keyword, ← Binary.read?_eq_nan_iff .single]
    cases Binary.read? .single (weightWord raw) with
    | none => exact iff_of_true (by decide) nofun
    | some x =>
        by_cases nan : x = .nan
        · subst nan
          rw [Option.map_some, Option.getD_some, weightOfNumber_nan]
          exact iff_of_false (by decide) (not_not_intro rfl)
        · exact iff_of_true (isWeight_weightOfNumber nan) fun same => nan (Option.some.inj same)

/-- A style has no weight of its own, or one that is read from a text. -/
theorem TextStyle.isWeight_ofStyle_iff {style : StyleMap} {size : Length} {text : TextStyle}
    (made : ofStyle style size = .ok text) :
    IsWeight text.fontWeight ↔
      ∀ raw, style.get? "font-weight" = some raw → ¬Binary.SpellsNaN (weightWord raw) := by
  simp only [ofStyle, bind_eq_ok] at made
  obtain ⟨color, _, background, _, made⟩ := made
  cases made
  dsimp only
  rw [wordOf?]
  cases declared : style.get? "font-weight" with
  | none =>
      refine iff_of_true (by decide) fun raw absent => ?_
      cases absent
  | some raw =>
      rw [Option.map_some, Option.map_some, Option.getD_some, isWeight_readFontWeight_iff,
        weightWord_word]
      exact ⟨fun bare _ same => Option.some.inj same ▸ bare, fun bare => bare raw rfl⟩

theorem StyledDocument.ofStyle_of_text? {doc : Document} {base : Option Length}
    {widths : BorderWidths} {styled : StyledDocument} {id : NodeId} {text : TextStyle}
    (made : ofDeclared doc base widths = .ok styled) (found : styled.text? id = some text) :
    TextStyle.ofStyle (styled.document.computed id) (styled.fontSize id) = .ok text := by
  rw [ofDeclared] at made
  simp only [bind_eq_ok, mapError_eq_ok] at made
  obtain ⟨boxes, _, texts, read, made⟩ := made
  cases made
  obtain ⟨length, each⟩ := mapM_eq_ok read
  rw [text?, List.getElem?_toArray] at found
  have bound : id < doc.inherit.size := by
    rw [← List.length_range (n := doc.inherit.size), ← Document.ids, ← length]
    exact (List.getElem?_eq_some_iff.1 found).1
  obtain ⟨own, same, read⟩ := each id id (List.getElem?_range bound)
  rw [found] at same
  cases same
  exact read

/-- A weight is out of range if and only if it is read from the text of a NaN; what is neither a
keyword nor a number is the normal weight. -/
theorem fontWeight_inRange (word : String) (style : StyleMap) (size : Length) (doc : Document)
    (base : Option Length) (widths : BorderWidths) :
    (IsWeight (readFontWeight word) ↔ ¬Binary.SpellsNaN (weightWord word)) ∧
    (String.ofList (weightWord word) ∉ weightKeywords → ¬SpellsNumber (weightWord word) →
      readFontWeight word = 400) ∧
    (∀ text, TextStyle.ofStyle style size = .ok text →
      (IsWeight text.fontWeight ↔
        ∀ raw, style.get? "font-weight" = some raw → ¬Binary.SpellsNaN (weightWord raw))) ∧
    ∀ styled, StyledDocument.ofDeclared doc base widths = .ok styled →
      ∀ id text, styled.text? id = some text →
        (IsWeight text.fontWeight ↔ ∀ raw, styled.computedValue? id "font-weight" = some raw →
          ¬Binary.SpellsNaN (weightWord raw)) := by
  refine ⟨isWeight_readFontWeight_iff word, ?_, ?_, ?_⟩
  · intro other unread
    rw [← Binary.isSome_read?_iff .single, Option.not_isSome_iff_eq_none] at unread
    rw [readFontWeight_of_not_mem other, unread]
    rfl
  · intro text made
    exact TextStyle.isWeight_ofStyle_iff made
  · intro styled made id text found
    exact TextStyle.isWeight_ofStyle_iff (StyledDocument.ofStyle_of_text? made found)

/-- An infinity, a word that is no number, and a tree with a number far beyond the range. -/
theorem fontWeight_inRange_infinity :
    let doc := Document.ofEdits
      [.addElement none "p", .setInlineStyle 0 "font-weight: -1E9", .addElement (some 0) "b"]
    IsWeight (readFontWeight " -Infinity ") ∧ readFontWeight "heavy" = 400 ∧
      (∃ text, TextStyle.ofStyle (Dictionary.empty.insert "font-weight" "inf") .zero = .ok text ∧
        IsWeight text.fontWeight) ∧
      ∃ styled text, StyledDocument.ofDeclared doc none .css = .ok styled ∧
        styled.text? 1 = some text ∧ IsWeight text.fontWeight := by
  intro doc
  let style : StyleMap := Dictionary.empty.insert "font-weight" "inf"
  obtain ⟨first, -, styles, nodes⟩ := fontWeight_inRange " -Infinity " style .zero doc none .css
  obtain ⟨-, second, -, -⟩ := fontWeight_inRange "heavy" style .zero doc none .css
  have bare : ∀ word : List Char, Binary.read? .single word ≠ some .nan → ¬Binary.SpellsNaN word :=
    fun word => mt (Binary.read?_eq_nan_iff .single).2
  refine ⟨first.2 (bare _ (by decide)), second (by decide) ?_, ?_, ?_⟩
  · rw [← Binary.isSome_read?_iff .single]
    decide
  · have own : (TextStyle.ofStyle style .zero).isOk := by decide +kernel
    obtain ⟨text, made⟩ := exists_of_isOk own
    refine ⟨text, made, (styles text made).2 fun raw declared => ?_⟩
    have named : raw = "inf" := Option.some.inj (declared.symm.trans (by decide))
    subst named
    exact bare _ (by decide)
  · have own : (StyledDocument.ofDeclared doc none .css).map (fun styled =>
        ((styled.text? 1).isSome, styled.computedValue? 1 "font-weight")) =
          .ok (true, some "-1E9") := by
      decide +kernel
    obtain ⟨styled, made, read⟩ := map_eq_ok.1 own
    obtain ⟨given, inherited⟩ := Prod.mk.inj read
    obtain ⟨text, found⟩ := Option.isSome_iff_exists.1 given
    refine ⟨styled, text, made, found, (nodes styled made _ _ found).2 fun raw declared => ?_⟩
    have named : raw = "-1E9" := Option.some.inj (declared.symm.trans inherited)
    subst named
    exact bare _ (by decide +kernel)

theorem fontWeight_nan : readFontWeight "nan" = 0 ∧ ¬IsWeight (readFontWeight "nan") := by
  decide +kernel

end ComputedStyle
