import Mathlib
import ComputedStyle.BoxModel
import ComputedStyle.Proofs.Except
import ComputedStyle.Proofs.Length
import ComputedStyle.Proofs.Length.Sign

/-!
Content sizes and sizes of border boxes.

What a declared size is a size of depends on the sizing of a box. Changing the sizing and the declared
size with it leaves the box as it is, as long as no sum along the axis is stopped at the end of the
range of lengths. Both axes are alike, so everything is said of an axis (`Axis`).
-/

namespace ComputedStyle

open Length

inductive Axis where
  | horizontal
  | vertical
deriving DecidableEq, Repr

/-- The property that declares the size along an axis. -/
def Axis.sizeName : Axis → String
  | .horizontal => "width"
  | .vertical => "height"

namespace Side

def axis : Side → Axis
  | top => .vertical
  | right => .horizontal
  | bottom => .vertical
  | left => .horizontal

def opposite : Side → Side
  | top => bottom
  | right => left
  | bottom => top
  | left => right

end Side

namespace Edges

def along (edges : Edges Length) : Axis → Length
  | .horizontal => edges.horizontal
  | .vertical => edges.vertical

def milliAlong (edges : Edges Length) : Axis → Int
  | .horizontal => edges.left.milli + edges.right.milli
  | .vertical => edges.top.milli + edges.bottom.milli

theorem milli_along {edges : Edges Length} {axis : Axis} (inside : IsMilli (edges.milliAlong axis)) :
    (edges.along axis).milli = edges.milliAlong axis := by
  cases axis with
  | horizontal => exact milli_add_of_isMilli inside
  | vertical => exact milli_add_of_isMilli inside

end Edges

namespace BorderEdge

variable {edge : BorderEdge}

theorem isPresent_iff (made : Made edge.width) :
    edge.isPresent ↔ Length.zero < edge.width ∧ edge.style ≠ "none" ∧ edge.style ≠ "hidden" := by
  rw [isPresent, Bool.and_eq_true, Bool.and_eq_true, made.isPositive_iff, bne_iff_ne, bne_iff_ne,
    and_assoc]

theorem usedWidth_of_absent (absent : edge.isPresent = false) : edge.usedWidth = Length.zero := by
  rw [usedWidth, absent, if_neg Bool.false_ne_true]

theorem made_usedWidth (made : Made edge.width) : Made edge.usedWidth := by
  unfold usedWidth
  split
  · exact made
  · exact .zero

end BorderEdge

namespace BoxModel

def size? (box : BoxModel) : Axis → Option Length
  | .horizontal => box.width
  | .vertical => box.height

def totalSize (box : BoxModel) : Axis → Option Length
  | .horizontal => box.totalWidth
  | .vertical => box.totalHeight

def contentSize (box : BoxModel) : Axis → Option Length
  | .horizontal => box.contentWidth
  | .vertical => box.contentHeight

/-- The box with another sizing, and another declared size along an axis. -/
def resized (box : BoxModel) (axis : Axis) (sizing : BoxSizing) (size : Option Length) : BoxModel :=
  match axis with
  | .horizontal => { box with sizing, width := size }
  | .vertical => { box with sizing, height := size }

structure IsMade (box : BoxModel) : Prop where
  margin : ∀ side, Made (box.margin.get side)
  padding : ∀ side, Made (box.padding.get side)
  border : ∀ side, Made (box.border.get side).width
  size : ∀ axis size, box.size? axis = some size → Made size

/-- The content `c`, the padding `p` and the border `b` along an axis, in thousandths, and the sums of
some of them with the content are all in the range of lengths. Of a border box the content is what
padding and border leave of its size. -/
structure SumsFit (c p b : Int) : Prop where
  content : IsMilli c
  padding : IsMilli p
  border : IsMilli b
  padded : IsMilli (c + p)
  bordered : IsMilli (c + b)
  total : IsMilli (c + p + b)

section Axes

variable (box : BoxModel) (axis : Axis)

theorem totalSize_eq : box.totalSize axis = (box.size? axis).map fun size =>
    box.outward size (box.padding.along axis) (box.borderWidths.along axis) := by
  cases axis <;> rfl

theorem contentSize_eq : box.contentSize axis = (box.size? axis).map fun size =>
    box.inward size (box.padding.along axis) (box.borderWidths.along axis) := by
  cases axis <;> rfl

variable (sizing : BoxSizing) (size : Option Length)

@[simp] theorem size?_resized : (box.resized axis sizing size).size? axis = size := by
  cases axis <;> rfl

@[simp] theorem sizing_resized : (box.resized axis sizing size).sizing = sizing := by
  cases axis <;> rfl

@[simp] theorem padding_resized : (box.resized axis sizing size).padding = box.padding := by
  cases axis <;> rfl

@[simp] theorem borderWidths_resized :
    (box.resized axis sizing size).borderWidths = box.borderWidths := by
  cases axis <;> rfl

end Axes

section Cancel

variable {size padding border : Length}

theorem sub_sub_of_add_add (made : Made size)
    (sums : SumsFit size.milli padding.milli border.milli) :
    size + padding + border - padding - border = size := by
  have padded := milli_add_of_isMilli sums.padded
  have total : (size + padding + border).milli = size.milli + padding.milli + border.milli := by
    rw [milli_add_of_isMilli (by rw [padded]; exact sums.total), padded]
  have bordered : (size + padding + border - padding).milli = size.milli + border.milli := by
    have rest : size.milli + padding.milli + border.milli - padding.milli =
        size.milli + border.milli := by omega
    rw [milli_sub_of_isMilli (by rw [total, rest]; exact sums.bordered), total, rest]
  have content : (size + padding + border - padding - border).milli = size.milli := by
    have rest : size.milli + border.milli - border.milli = size.milli := by omega
    rw [milli_sub_of_isMilli (by rw [bordered, rest]; exact sums.content), bordered, rest]
  exact (Made.eq_iff (.sub _ _) made).2 content

/-- Beside a negative padding the content and the border can come to more than the range holds, though
the whole does not. -/
example :
    let size := ofMilli 2000000000000
    let padding := ofMilli (-2000000000000)
    let border := ofMilli 2000000000000
    (size + padding).milli = 0 ∧ (size + padding + border).milli = 2000000000000 ∧
      size + padding + border - padding - border ≠ size := by
  decide

theorem add_add_of_sub_sub (made : Made size)
    (sums : SumsFit (size.milli - padding.milli - border.milli) padding.milli border.milli) :
    (size - padding - border).milli = size.milli - padding.milli - border.milli ∧
      size - padding - border + padding + border = size := by
  have bordered : (size - padding).milli = size.milli - padding.milli := by
    have rest : size.milli - padding.milli - border.milli + border.milli =
        size.milli - padding.milli := by omega
    exact milli_sub_of_isMilli (rest ▸ sums.bordered)
  have content : (size - padding - border).milli = size.milli - padding.milli - border.milli := by
    rw [milli_sub_of_isMilli (by rw [bordered]; exact sums.content), bordered]
  have padded : (size - padding - border + padding).milli =
      size.milli - padding.milli - border.milli + padding.milli := by
    rw [milli_add_of_isMilli (by rw [content]; exact sums.padded), content]
  have total : (size - padding - border + padding + border).milli = size.milli := by
    have rest : size.milli - padding.milli - border.milli + padding.milli + border.milli =
        size.milli := by omega
    rw [milli_add_of_isMilli (by rw [padded]; exact sums.total), padded, rest]
  exact ⟨content, (Made.eq_iff (.add _ _) made).2 total⟩

end Cancel

section Sizing

variable {box : BoxModel} {axis : Axis} {size : Length}

theorem toBorderBox (made : Made size) (sized : box.size? axis = some size)
    (sizing : box.sizing = .contentBox)
    (sums : SumsFit size.milli (box.padding.milliAlong axis) (box.borderWidths.milliAlong axis)) :
    (box.resized axis .borderBox (box.totalSize axis)).totalSize axis = box.totalSize axis ∧
      (box.resized axis .borderBox (box.totalSize axis)).contentSize axis =
        some (max size .zero) := by
  have padding := Edges.milli_along sums.padding
  have border := Edges.milli_along sums.border
  rw [← padding, ← border] at sums
  have total : box.totalSize axis =
      some (size + box.padding.along axis + box.borderWidths.along axis) := by
    rw [totalSize_eq, sized, Option.map_some, outward, sizing]
  constructor
  · rw [totalSize_eq, size?_resized, total, Option.map_some, outward, sizing_resized]
  · rw [contentSize_eq, size?_resized, total, Option.map_some, inward, sizing_resized,
      padding_resized, borderWidths_resized]
    dsimp only
    rw [sub_sub_of_add_add made sums]

theorem toContentBox (made : Made size) (sized : box.size? axis = some size)
    (sizing : box.sizing = .borderBox)
    (wide : box.padding.milliAlong axis + box.borderWidths.milliAlong axis ≤ size.milli)
    (sums : SumsFit
      (size.milli - box.padding.milliAlong axis - box.borderWidths.milliAlong axis)
      (box.padding.milliAlong axis) (box.borderWidths.milliAlong axis)) :
    (box.resized axis .contentBox (box.contentSize axis)).totalSize axis = box.totalSize axis := by
  have padding := Edges.milli_along sums.padding
  have border := Edges.milli_along sums.border
  rw [← padding, ← border] at sums wide
  obtain ⟨content, whole⟩ := add_add_of_sub_sub made sums
  have nonneg : Length.zero ≤
      size - box.padding.along axis - box.borderWidths.along axis := by
    rw [Made.le_iff .zero (.sub _ _), content, milli_zero]
    omega
  have inner : box.contentSize axis =
      some (size - box.padding.along axis - box.borderWidths.along axis) := by
    rw [contentSize_eq, sized, Option.map_some, inward, sizing]
    exact congrArg some (if_pos nonneg)
  rw [totalSize_eq, size?_resized, inner, Option.map_some, outward, sizing_resized,
    padding_resized, borderWidths_resized, totalSize_eq, sized, Option.map_some, outward, sizing]
  dsimp only
  rw [whole]

end Sizing

section Absent

variable {box : BoxModel} {side : Side}

theorem along_of_absent (made : box.IsMade) (absent : (box.border.get side).isPresent = false) :
    box.borderWidths.along side.axis = (box.border.get side.opposite).usedWidth := by
  have zero := BorderEdge.usedWidth_of_absent absent
  have other := BorderEdge.made_usedWidth (made.border side.opposite)
  cases side with
  | top => exact (congrArg (· + _) zero).trans other.zero_add
  | right => exact (congrArg (_ + ·) zero).trans other.add_zero
  | bottom => exact (congrArg (_ + ·) zero).trans other.add_zero
  | left => exact (congrArg (· + _) zero).trans other.zero_add

end Absent

section Styles

variable {context : LengthContext} {widths : BorderWidths} {style : StyleMap}

theorem made_read {raw : String} {size : Length} (read : Length.read? context raw = some size) :
    Made size := by
  obtain ⟨q, -, rfl⟩ := Option.map_eq_some_iff.1 read
  exact .ofPoints _

theorem made_lengthOf (name : String) : Made (lengthOf context style name) := by
  unfold lengthOf
  cases read : (style.get? name).bind (Length.read? context) with
  | none => exact .zero
  | some size =>
      obtain ⟨raw, -, read⟩ := Option.bind_eq_some_iff.1 read
      exact made_read read

theorem made_sizeOf {name : String} {size : Length} (read : sizeOf? context style name = some size) :
    Made size := by
  unfold sizeOf? at read
  split at read
  · cases read
  · split at read
    · cases read
    · exact made_read read

theorem made_ofPixels (pixels : Nat) : Made (Length.ofPixels pixels) := by
  rw [Length.ofPixels]
  exact .ofPoints _

theorem made_readBorderWidth {raw : String} {size : Length}
    (read : Length.readBorderWidth? context widths raw = some size) : Made size := by
  unfold Length.readBorderWidth? at read
  split at read
  · exact Option.some.inj read ▸ made_ofPixels _
  · exact made_read read

theorem made_borderEdge {current : Color} {side : Side} {edge : BorderEdge}
    (found : borderEdge context widths style current side = .ok edge) : Made edge.width := by
  obtain ⟨color, -, same⟩ := bind_eq_ok.1 found
  cases same
  dsimp only
  cases read : (style.get? (borderProperty side .width)).bind
      (Length.readBorderWidth? context widths) with
  | none =>
      rw [Option.getD_none, mediumWidth]
      exact made_ofPixels _
  | some size =>
      obtain ⟨raw, -, read⟩ := Option.bind_eq_some_iff.1 read
      rw [Option.getD_some]
      exact made_readBorderWidth read

/-- Whatever a style declares, the lengths of its box are made of thousandths. -/
theorem isMade_ofStyle {box : BoxModel} (found : ofStyle context widths style = .ok box) :
    box.IsMade := by
  obtain ⟨current, -, found⟩ := bind_eq_ok.1 found
  obtain ⟨border, sides, same⟩ := bind_eq_ok.1 found
  cases same
  obtain ⟨top, foundTop, sides⟩ := bind_eq_ok.1 sides
  obtain ⟨right, foundRight, sides⟩ := bind_eq_ok.1 sides
  obtain ⟨bottom, foundBottom, sides⟩ := bind_eq_ok.1 sides
  obtain ⟨left, foundLeft, sides⟩ := bind_eq_ok.1 sides
  cases sides
  refine ⟨fun side => ?_, fun side => ?_, fun side => ?_, fun axis size sized => ?_⟩
  · cases side <;> exact made_lengthOf _
  · cases side <;> exact made_lengthOf _
  · cases side with
    | top => exact made_borderEdge foundTop
    | right => exact made_borderEdge foundRight
    | bottom => exact made_borderEdge foundBottom
    | left => exact made_borderEdge foundLeft
  · cases axis with
    | horizontal => exact made_sizeOf sized
    | vertical => exact made_sizeOf sized

end Styles

/-- The size of the content and that of the border box determine each other, and a border that is absent
takes no part in either of them. -/
theorem sizes_inverse (box : BoxModel) (made : box.IsMade) :
    (∀ axis size, box.size? axis = some size → box.sizing = .contentBox →
      SumsFit size.milli (box.padding.milliAlong axis) (box.borderWidths.milliAlong axis) →
      (box.resized axis .borderBox (box.totalSize axis)).totalSize axis = box.totalSize axis ∧
        (box.resized axis .borderBox (box.totalSize axis)).contentSize axis =
          some (max size .zero)) ∧
    (∀ axis size, box.size? axis = some size → box.sizing = .borderBox →
      box.padding.milliAlong axis + box.borderWidths.milliAlong axis ≤ size.milli →
      SumsFit (size.milli - box.padding.milliAlong axis - box.borderWidths.milliAlong axis)
        (box.padding.milliAlong axis) (box.borderWidths.milliAlong axis) →
      (box.resized axis .contentBox (box.contentSize axis)).totalSize axis =
        box.totalSize axis) ∧
    ∀ side,
      ((box.border.get side).isPresent ↔ Length.zero < (box.border.get side).width ∧
        (box.border.get side).style ≠ "none" ∧ (box.border.get side).style ≠ "hidden") ∧
      ((box.border.get side).isPresent = false →
        (box.border.get side).usedWidth = .zero ∧
        (box.totalSize side.axis = (box.size? side.axis).map fun size =>
          box.outward size (box.padding.along side.axis)
            (box.border.get side.opposite).usedWidth) ∧
        box.contentSize side.axis = (box.size? side.axis).map fun size =>
          box.inward size (box.padding.along side.axis)
            (box.border.get side.opposite).usedWidth) := by
  refine ⟨fun axis size sized sizing sums => ?_, fun axis size sized sizing wide sums => ?_,
    fun side => ⟨BorderEdge.isPresent_iff (made.border side), fun absent => ?_⟩⟩
  · exact toBorderBox (made.size axis size sized) sized sizing sums
  · exact toContentBox (made.size axis size sized) sized sizing wide sums
  · have other := along_of_absent made absent
    exact ⟨BorderEdge.usedWidth_of_absent absent, by rw [totalSize_eq, other],
      by rw [contentSize_eq, other]⟩

/-- A negative declared width in a box that has a border on the right only, and a height that its
padding and borders take up to the last thousandth but one. -/
theorem sizes_inverse_uneven :
    let edge (milli : Int) (style : String) : BorderEdge := ⟨.ofMilli milli, style, .black⟩
    let box : BoxModel :=
      ⟨.all .zero, ⟨.ofMilli 1, .ofMilli 50, .ofMilli 2, .ofMilli (-20)⟩,
        ⟨edge 3 "solid", edge 1500 "dotted", edge 4 "solid", edge 7 "hidden"⟩,
        some (.ofMilli (-7)), some (.ofMilli 11), .contentBox⟩
    let tall : BoxModel := { box with sizing := .borderBox }
    box.IsMade ∧
      (SumsFit (-7) 30 1500 ∧ box.totalWidth = some (.ofMilli 1523) ∧
        (box.resized .horizontal .borderBox box.totalWidth).contentWidth = some .zero) ∧
      (SumsFit 1 3 7 ∧ tall.contentHeight = some (.ofMilli 1) ∧
        (tall.resized .vertical .contentBox tall.contentHeight).totalHeight =
          some (.ofMilli 11)) ∧
      (box.border.get .left).usedWidth = .zero := by
  intro edge box tall
  have made : box.IsMade := by
    refine ⟨fun side => ?_, fun side => ?_, fun side => ?_, fun axis size sized => ?_⟩
    · cases side <;> exact .zero
    · cases side <;> exact .ofMilli _ (by decide)
    · cases side <;> exact .ofMilli _ (by decide)
    · cases axis <;> cases sized <;> exact .ofMilli _ (by decide)
  have tallMade : tall.IsMade := ⟨made.margin, made.padding, made.border, made.size⟩
  have across : SumsFit (-7) 30 1500 := by
    constructor <;> decide
  have along : SumsFit 1 3 7 := by
    constructor <;> decide
  obtain ⟨outwards, -, absent⟩ := sizes_inverse box made
  obtain ⟨-, inwards, -⟩ := sizes_inverse tall tallMade
  have content := (outwards .horizontal _ rfl rfl across).2
  have total := inwards .vertical _ rfl rfl (by decide) along
  exact ⟨made, ⟨across, by decide, content⟩, ⟨along, by decide, total⟩,
    ((absent .left).2 (by decide)).1⟩

section Nonneg

variable {context : LengthContext} {widths : BorderWidths} {style : StyleMap} {box : BoxModel}

theorem size?_ofStyle (found : ofStyle context widths style = .ok box) (axis : Axis) :
    box.size? axis = sizeOf? context style axis.sizeName := by
  obtain ⟨current, -, found⟩ := bind_eq_ok.1 found
  obtain ⟨border, -, same⟩ := bind_eq_ok.1 found
  cases same
  cases axis with
  | horizontal => rfl
  | vertical => rfl

theorem sizing_ofStyle (found : ofStyle context widths style = .ok box) :
    box.sizing = sizingOf style := by
  obtain ⟨current, -, found⟩ := bind_eq_ok.1 found
  obtain ⟨border, -, same⟩ := bind_eq_ok.1 found
  cases same
  rfl

theorem zero_le_max_zero (size : Length) : Length.zero ≤ max size .zero := by
  change Length.zero ≤ if Length.zero ≤ size then size else .zero
  split
  · assumption
  · exact Int.le_refl 0

theorem contentSize_of_contentBox (sizing : box.sizing = .contentBox) (axis : Axis) :
    box.contentSize axis = box.size? axis := by
  rw [contentSize_eq]
  unfold inward
  rw [sizing]
  exact Option.map_id'

theorem zero_le_contentSize_of_borderBox (sizing : box.sizing = .borderBox) {axis : Axis}
    {size : Length} (sized : box.contentSize axis = some size) : Length.zero ≤ size := by
  rw [contentSize_eq] at sized
  obtain ⟨declared, -, rfl⟩ := Option.map_eq_some_iff.1 sized
  unfold inward
  rw [sizing]
  exact zero_le_max_zero _

theorem zero_le_sizeOf {name : String} {size : Length} (nonneg : context.IsNonneg)
    (unsigned : ∀ raw, style.get? name = some raw → (Text.trim raw.toList).head? ≠ some '-')
    (read : sizeOf? context style name = some size) : Length.zero ≤ size := by
  unfold sizeOf? at read
  split at read
  · cases read
  · next raw declared =>
      split at read
      · cases read
      · exact Length.zero_le_read nonneg (unsigned raw declared) read

end Nonneg

/-- A content is never smaller than nothing, unless the box is a content box and declares such a size;
for that its text has to start with a minus sign, or a length that it is relative to has to be
negative. -/
theorem contentSize_nonneg {context : LengthContext} {widths : BorderWidths} {style : StyleMap}
    {box : BoxModel} (found : ofStyle context widths style = .ok box) (axis : Axis) :
    ((∀ size, box.contentSize axis = some size → Length.zero ≤ size) ↔
      ¬(sizingOf style = .contentBox ∧
        ∃ declared, sizeOf? context style axis.sizeName = some declared ∧
          declared < Length.zero)) ∧
    (context.IsNonneg →
      (∀ raw, style.get? axis.sizeName = some raw →
        (Text.trim raw.toList).head? ≠ some '-') →
      ∀ size, box.contentSize axis = some size → Length.zero ≤ size) := by
  have declares := size?_ofStyle found axis
  have sizing := sizing_ofStyle found
  cases mode : sizingOf style with
  | borderBox =>
      rw [mode] at sizing
      have nonneg : ∀ size, box.contentSize axis = some size → Length.zero ≤ size := by
        intro size sized
        exact zero_le_contentSize_of_borderBox sizing sized
      exact ⟨⟨fun _ other => BoxSizing.noConfusion other.1, fun _ => nonneg⟩, fun _ _ => nonneg⟩
  | contentBox =>
      rw [mode] at sizing
      rw [contentSize_of_contentBox sizing axis, declares]
      refine ⟨⟨?_, ?_⟩, ?_⟩
      · rintro nonneg ⟨-, declared, read, negative⟩
        exact Int.not_lt.2 (nonneg declared read) negative
      · intro declaresNone size read
        apply Int.not_lt.1
        intro negative
        exact declaresNone ⟨rfl, size, read, negative⟩
      · intro nonneg unsigned size read
        exact zero_le_sizeOf nonneg unsigned read

/-- Half of a base beside a negative padding. -/
theorem contentSize_nonneg_half :
    let style : StyleMap :=
      .ofList [("width", " 50%"), ("height", "-4px"), ("padding-left", "-3pt"),
        ("box-sizing", "content-box")]
    let context : LengthContext := { percentageBase := some (.ofMilli 200000) }
    ∃ box, ofStyle context .css style = .ok box ∧ context.IsNonneg ∧
      box.contentWidth = some (.ofMilli 100000) ∧ Length.zero ≤ Length.ofMilli 100000 := by
  intro style context
  obtain ⟨box, found⟩ : ∃ box, ofStyle context .css style = .ok box :=
    exists_of_isOk (by decide)
  have nonneg : context.IsNonneg := by
    have base : Length.zero ≤ Length.ofMilli 200000 := by decide
    constructor
    · intro size given
      exact absurd given (Option.not_mem_none size)
    · intro size given
      exact absurd given (Option.not_mem_none size)
    · intro size given
      exact Option.some.inj given ▸ base
  have declared : box.contentSize .horizontal = some (.ofMilli 100000) := by
    have sizing : box.sizing = .contentBox := (sizing_ofStyle found).trans (by decide +kernel)
    rw [contentSize_of_contentBox sizing, size?_ofStyle found]
    decide +kernel
  have unsigned : ∀ raw, style.get? Axis.horizontal.sizeName = some raw →
      (Text.trim raw.toList).head? ≠ some '-' := by
    have half : style.get? Axis.horizontal.sizeName = some " 50%" := by decide
    intro raw same
    rw [half] at same
    cases same
    decide
  exact ⟨box, found, nonneg, declared,
    (contentSize_nonneg found .horizontal).2 nonneg unsigned _ declared⟩

/-- A content box keeps the negative width that it declares. -/
theorem contentSize_negative :
    let style : StyleMap := .ofList [("width", "-5px")]
    ∃ box, ofStyle {} .css style = .ok box ∧ box.contentWidth = some (.ofMilli (-3750)) ∧
      ¬Length.zero ≤ Length.ofMilli (-3750) := by
  intro style
  obtain ⟨box, found⟩ : ∃ box, ofStyle {} .css style = .ok box :=
    exists_of_isOk (by decide)
  have declared : box.contentSize .horizontal = some (.ofMilli (-3750)) := by
    have sizing : box.sizing = .contentBox := (sizing_ofStyle found).trans (by decide)
    rw [contentSize_of_contentBox sizing, size?_ofStyle found]
    decide +kernel
  exact ⟨box, found, declared, by decide⟩

end BoxModel

end ComputedStyle
