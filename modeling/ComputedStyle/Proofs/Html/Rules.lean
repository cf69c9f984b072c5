import ComputedStyle.Html.Parse
import ComputedStyle.Proofs.Html.Builder

namespace ComputedStyle.Html

/-- A plain builder is left, and a plain token to go on with. -/
def Step.IsPlain (step : Step) : Prop :=
  step.builder.IsPlain ∧ ∀ mode token, step.next = some (mode, token) → token.IsPlain

theorem Step.IsPlain.either {c : Prop} [Decidable c] {first second : Step} (h : first.IsPlain)
    (h' : second.IsPlain) : (if c then first else second).IsPlain := by
  split
  · exact h
  · exact h'

namespace Builder.IsPlain

theorem either {c : Prop} [Decidable c] {first second : Builder} (h : first.IsPlain)
    (h' : second.IsPlain) : (if c then first else second).IsPlain := by
  split
  · exact h
  · exact h'

variable {b : Builder} {tag : Tag} (h : b.IsPlain)

include h

theorem done : b.done.IsPlain := by
  refine ⟨h, ?_⟩
  intro mode token next
  cases next

theorem again (mode : Mode) {token : Token} (plain : token.IsPlain) :
    (b.again mode token).IsPlain := by
  refine ⟨h, ?_⟩
  intro mode token next
  cases next
  exact plain

theorem openNamed {name : String} (plain : IsPlainName name) : (b.openNamed name).IsPlain :=
  h.openTag plain

theorem leaveTemplateMode : b.leaveTemplateMode.IsPlain := h

theorem closeTemplate : b.closeTemplate.IsPlain :=
  IsPlain.clearToMarker h

theorem openTemplate (plain : IsPlainName tag.name) : (b.openTemplate tag).IsPlain :=
  (h.openTag plain).addMarker

theorem headStart (plain : IsPlainName tag.name) : (b.headStart tag).IsPlain := by
  refine .either (h.mergeRoot tag).done ?_
  refine .either (h.addTag plain).done ?_
  refine .either (h.openText (.escapable "title") plain).done ?_
  refine .either (h.openText (.raw tag.name) plain).done ?_
  refine .either (h.openText .script plain).done ?_
  refine .either (h.openTemplate plain).done ?_
  exact .either h.done (h.pop.again .afterHead plain)

theorem headEnd (name : String) : (b.headEnd name).IsPlain := by
  refine .either (h.pop.enter .afterHead).done ?_
  refine .either (h.pop.again .afterHead (isPlain_endTag name)) ?_
  exact .either (.either h.closeTemplate.done h.done) h.done

theorem headStep {token : Token} (plain : token.IsPlain) : (b.headStep token).IsPlain := by
  cases token with
  | character c => exact .either (h.addCharacter c).done (h.pop.again .afterHead plain)
  | comment => exact h.addComment.done
  | startTag tag => exact h.headStart plain
  | endTag name => exact h.headEnd name
  | doctype doctype => exact h.done
  | endOfText => exact h.pop.again .afterHead plain

theorem beginLenient {token : Token} (plain : token.IsPlain) : (b.beginLenient token).IsPlain :=
  IsPlain.again (b := { b with lenient := true }) h .beforeHtml plain

theorem initialStep {token : Token} (plain : token.IsPlain) : (b.initialStep token).IsPlain := by
  cases token with
  | character c => exact .either h.done (h.beginLenient plain)
  | comment => exact (h.addCommentTo Forest.root).done
  | doctype doctype => exact IsPlain.done h
  | startTag tag => exact h.beginLenient plain
  | endTag name => exact h.beginLenient plain
  | endOfText => exact h.beginLenient plain

theorem supplyRoot {token : Token} (plain : token.IsPlain) : (b.supplyRoot token).IsPlain :=
  (h.openRoot _).again .beforeHead plain

theorem beforeHtmlStep {token : Token} (plain : token.IsPlain) :
    (b.beforeHtmlStep token).IsPlain := by
  cases token with
  | character c => exact .either h.done (h.supplyRoot plain)
  | comment => exact (h.addCommentTo Forest.root).done
  | startTag tag => exact .either ((h.openRoot tag).enter .beforeHead).done (h.supplyRoot plain)
  | endTag name => exact .either (h.supplyRoot plain) h.done
  | doctype doctype => exact h.done
  | endOfText => exact h.supplyRoot plain

theorem openHead (plain : IsPlainName tag.name) : (b.openHead tag).IsPlain :=
  h.openTag plain

theorem supplyHead {token : Token} (plain : token.IsPlain) : (b.supplyHead token).IsPlain := by
  apply IsPlain.again
  · exact h.openHead (by decide)
  · exact plain

theorem beforeHeadStep {token : Token} (plain : token.IsPlain) :
    (b.beforeHeadStep token).IsPlain := by
  cases token with
  | character c => exact .either h.done (h.supplyHead plain)
  | comment => exact h.addComment.done
  | startTag tag =>
      refine .either (h.mergeRoot tag).done ?_
      exact .either ((h.openHead plain).enter .inHead).done (h.supplyHead plain)
  | endTag name => exact .either (h.supplyHead plain) h.done
  | doctype doctype => exact h.done
  | endOfText => exact h.supplyHead plain

theorem returnToHead (plain : IsPlainName tag.name) : (b.returnToHead tag).IsPlain := by
  unfold Builder.returnToHead
  split
  · exact h.done
  · next id _ =>
      have step := (h.push ⟨id, .html "head"⟩).headStart plain
      exact ⟨step.1.remove id, step.2⟩

theorem supplyBody {token : Token} (plain : token.IsPlain) : (b.supplyBody token).IsPlain :=
  (h.openNamed (by decide)).again .inBody plain

theorem afterHeadStep {token : Token} (plain : token.IsPlain) :
    (b.afterHeadStep token).IsPlain := by
  cases token with
  | character c => exact .either (h.addCharacter c).done (h.supplyBody plain)
  | comment => exact h.addComment.done
  | startTag tag =>
      refine .either (h.mergeRoot tag).done ?_
      refine .either ((h.openTag plain).enter .inBody).done ?_
      refine .either ((h.openTag plain).enter .inFrameset).done ?_
      refine .either (h.returnToHead plain) ?_
      exact .either h.done (h.supplyBody plain)
  | endTag name => exact .either (h.headEnd name) (.either (h.supplyBody plain) h.done)
  | doctype doctype => exact h.done
  | endOfText => exact h.supplyBody plain

theorem templateEnd : b.templateEnd.IsPlain := by
  have closed := (h.popThroughNamed "template").clearToMarker.leaveTemplateMode
  exact .either (closed.again _ isPlain_endOfText) h.done

theorem addBodyCharacter (c : Char) : (b.addBodyCharacter c).IsPlain := by
  have opened := h.reopenFormatting
  exact (either opened opened.forbidFrameset).addCharacter c

theorem closeParagraph : b.closeParagraph.IsPlain := h

theorem endParagraph : b.endParagraph.IsPlain :=
  either h.closeParagraph h

theorem mergeBody (tag : Tag) : (b.mergeBody tag).IsPlain := by
  unfold Builder.mergeBody
  split
  · split
    · exact h
    · exact h.withForest (h.1.addMissing _ tag)
  · exact h

theorem replaceBody (plain : IsPlainName tag.name) : (b.replaceBody tag).IsPlain := by
  unfold Builder.replaceBody
  split
  · split
    · next body _ _ _ _ =>
        apply IsPlain.enter
        apply IsPlain.openTag
        · exact h.withForest (h.1.detach body.id)
        · exact plain
    · exact h
  · exact h

theorem openItem (names : List String) (plain : IsPlainName tag.name) :
    (b.openItem names tag).IsPlain := by
  unfold Builder.openItem
  apply IsPlain.openTag _ plain
  apply IsPlain.endParagraph
  split
  · exact (h.forbidFrameset.impliedEndsExcept _).popThroughNamed _
  · exact h.forbidFrameset

theorem openForm (plain : IsPlainName tag.name) : (b.openForm tag).IsPlain := by
  unfold Builder.openForm
  apply either (h.endParagraph.openTag plain)
  apply either h
  exact h.endParagraph.openTag plain

theorem closeForm : b.closeForm.IsPlain := by
  unfold Builder.closeForm
  apply either (either (h.impliedEnds.popThroughNamed "form") h)
  split
  · exact h
  · apply either
    · exact h
    · exact h

theorem openButton (plain : IsPlainName tag.name) : (b.openButton tag).IsPlain := by
  apply IsPlain.forbidFrameset
  apply IsPlain.openTag _ plain
  apply IsPlain.reopenFormatting
  exact either (h.impliedEnds.popThroughNamed "button") h

theorem openLink (plain : IsPlainName tag.name) : (b.openLink tag).IsPlain := by
  unfold Builder.openLink
  apply IsPlain.openFormatting _ plain
  apply IsPlain.reopenFormatting
  split
  · exact ((h.closeFormatting "a").forget _).remove _
  · exact h

theorem openNobr (plain : IsPlainName tag.name) : (b.openNobr tag).IsPlain := by
  have opened := h.reopenFormatting
  apply IsPlain.openFormatting _ plain
  exact either (opened.closeFormatting "nobr").reopenFormatting opened

theorem openTable (plain : IsPlainName tag.name) : (b.openTable tag).IsPlain :=
  ((either h h.endParagraph).openTag plain).forbidFrameset.enter .inTable

theorem addVoid (plain : IsPlainName tag.name) : (b.addVoid tag).IsPlain := by
  have added := h.reopenFormatting.addTag plain
  exact either added added.forbidFrameset

theorem openSelect (plain : IsPlainName tag.name) : (b.openSelect tag).IsPlain :=
  h.reopenFormatting.openTag plain

theorem openOption (plain : IsPlainName tag.name) : (b.openOption tag).IsPlain :=
  (either h.pop h).reopenFormatting.openTag plain

theorem openRuby (keep : Option String) (plain : IsPlainName tag.name) :
    (b.openRuby keep tag).IsPlain := by
  unfold Builder.openRuby
  apply IsPlain.openTag _ plain
  refine either ?_ h
  split
  · exact h.impliedEndsExcept _
  · exact h.impliedEnds

theorem openForeign (vocabulary : Vocabulary) (plain : IsPlainName tag.name) :
    (b.openForeign vocabulary tag).IsPlain :=
  either (h.addElement vocabulary plain) (h.openElement vocabulary plain)

theorem openHeading (plain : IsPlainName tag.name) : (b.openHeading tag).IsPlain :=
  (either h.endParagraph.pop h.endParagraph).openTag plain

theorem openPre (plain : IsPlainName tag.name) : (b.openPre tag).IsPlain :=
  h.endParagraph.openTag plain

theorem openBodyText (plain : IsPlainName tag.name) : (b.openBodyText tag).IsPlain := by
  unfold Builder.openBodyText
  apply either
  · exact h.forbidFrameset.openText (.escapable "textarea") plain
  apply either (h.endParagraph.reopenFormatting.forbidFrameset.openText (.raw "xmp") plain)
  apply either (h.forbidFrameset.openText (.raw "iframe") plain)
  exact h.openText (.raw tag.name) plain

/-- One line for each branch, in their order. -/
theorem openInBody (plain : IsPlainName tag.name) : (b.openInBody tag).IsPlain := by
  have img : IsPlainName "img" := by decide
  unfold Builder.openInBody
  apply either (h.endParagraph.openTag plain)
  apply either (h.openHeading plain)
  apply either (h.openPre plain)
  apply either (h.openForm plain)
  apply either (h.openItem ["li"] plain)
  apply either (h.openItem ["dd", "dt"] plain)
  apply either
  · exact h.endParagraph.openTag plain
  apply either (h.openButton plain)
  apply either (h.openLink plain)
  apply either (h.reopenFormatting.openFormatting plain)
  apply either (h.openNobr plain)
  apply either (h.reopenFormatting.openTag plain).addMarker.forbidFrameset
  apply either (h.openTable plain)
  apply either (h.addVoid plain)
  apply either (h.addVoid img)
  apply either (h.addTag plain)
  apply either (h.endParagraph.addTag plain).forbidFrameset
  apply either (h.openBodyText plain)
  apply either (h.openSelect plain)
  apply either (h.openOption plain)
  apply either (h.openRuby none plain)
  apply either (h.openRuby (some "rtc") plain)
  apply either (h.openForeign .math plain)
  apply either (h.openForeign .svg plain)
  apply either h
  exact h.reopenFormatting.openTag plain

theorem bodyStart (plain : IsPlainName tag.name) : (b.bodyStart tag).IsPlain := by
  refine .either (h.mergeRoot tag).done ?_
  refine .either (h.headStart plain) ?_
  refine .either (h.mergeBody tag).done ?_
  exact .either (h.replaceBody plain).done (h.openInBody plain).done

theorem closeNamed (bounds : ElementName → Bool) (name : String) :
    (b.closeNamed bounds name).IsPlain :=
  either (h.impliedEnds.popThroughNamed name) h

theorem closeItem (bounds : ElementName → Bool) (name : String) :
    (b.closeItem bounds name).IsPlain :=
  either ((h.impliedEndsExcept name).popThroughNamed name) h

theorem closeInBody (name : String) : (b.closeInBody name).IsPlain := by
  have paragraph : (b.openNamed "p").IsPlain := h.openNamed (by decide)
  unfold Builder.closeInBody
  apply either (h.closeNamed ElementName.boundsScope name)
  apply either h.closeForm
  apply either (either h paragraph).closeParagraph
  apply either (h.closeItem ElementName.boundsListScope name)
  apply either (h.closeItem ElementName.boundsScope name)
  apply either (either (h.impliedEnds.popThrough ElementName.isHeading) h)
  apply either (h.closeFormatting name)
  apply either (either (h.impliedEnds.popThroughNamed name).clearToMarker h)
  split
  · next br =>
      subst br
      exact h.addVoid (by decide)
  · exact h.closeOther name

theorem bodyEnd (name : String) : (b.bodyEnd name).IsPlain := by
  refine .either (h.headEnd name) ?_
  refine .either (.either (h.enter .afterBody).done h.done) ?_
  refine .either (.either (h.again .afterBody (isPlain_endTag name)) h.done) ?_
  exact (h.closeInBody name).done

theorem bodyStep {token : Token} (plain : token.IsPlain) : (b.bodyStep token).IsPlain := by
  cases token with
  | character c => exact .either h.done (h.addBodyCharacter c).done
  | comment => exact h.addComment.done
  | startTag tag => exact h.bodyStart plain
  | endTag name => exact h.bodyEnd name
  | doctype doctype => exact h.done
  | endOfText => exact .either h.done h.templateEnd

theorem textStep (token : Token) : (b.textStep token).IsPlain := by
  cases token with
  | character c => exact (h.addCharacter c).done
  | endTag name => exact (h.pop.enter b.returnMode).done
  | endOfText => exact h.pop.again b.returnMode isPlain_endOfText
  | comment => exact h.done
  | startTag tag => exact h.done
  | doctype doctype => exact h.done

theorem fosterStep {token : Token} (plain : token.IsPlain) : (b.fosterStep token).IsPlain := by
  have start : ({ b with fostering := true } : Builder).IsPlain := h
  exact start.bodyStep plain

theorem popToTable : b.popToTable.IsPlain := h

theorem popToSection : b.popToSection.IsPlain := h

theorem popToRow : b.popToRow.IsPlain := h

theorem tableCharacter (c : Char) : (b.tableCharacter c).IsPlain := by
  unfold Builder.tableCharacter
  split
  · exact IsPlain.again h .inTableText trivial
  · exact h.fosterStep trivial

theorem tableStart (plain : IsPlainName tag.name) : (b.tableStart tag).IsPlain := by
  have table := h.popToTable
  have columns : (b.popToTable.openNamed "colgroup").IsPlain := table.openNamed (by decide)
  have rows : (b.popToTable.openNamed "tbody").IsPlain := table.openNamed (by decide)
  refine .either ((table.addMarker.openTag plain).enter .inCaption).done ?_
  refine .either ((table.openTag plain).enter .inColumnGroup).done ?_
  refine .either (columns.again .inColumnGroup plain) ?_
  refine .either ((table.openTag plain).enter .inTableBody).done ?_
  refine .either (rows.again .inTableBody plain) ?_
  refine .either (.either ((h.popThroughNamed "table").again _ plain) h.done) ?_
  refine .either (h.headStart plain) ?_
  refine .either (h.addTag plain).done ?_
  refine .either (.either ?_ h.done) (h.fosterStep plain)
  have form : ({ b.addTag tag with form? := some b.forest.size } : Builder).IsPlain :=
    h.addTag plain
  exact form.done

theorem tableEnd (name : String) : (b.tableEnd name).IsPlain := by
  refine .either (.either (h.popThroughNamed "table").resetMode.done h.done) ?_
  refine .either h.done ?_
  exact .either (h.headEnd name) (h.fosterStep (isPlain_endTag name))

theorem tableStep {token : Token} (plain : token.IsPlain) : (b.tableStep token).IsPlain := by
  cases token with
  | character c => exact h.tableCharacter c
  | comment => exact h.addComment.done
  | startTag tag => exact h.tableStart plain
  | endTag name => exact h.tableEnd name
  | doctype doctype => exact h.done
  | endOfText => exact h.bodyStep plain

theorem addTableText : b.addTableText.IsPlain := by
  have cleared : ({ b with tableText := [] } : Builder).IsPlain := h
  simp only [Builder.addTableText]
  split
  · exact cleared.foldl fun _ plain c _ => plain.addCharacter c
  · exact cleared.foldl fun _ plain c _ => (plain.fosterStep (isPlain_character c)).1

theorem tableTextStep {token : Token} (plain : token.IsPlain) :
    (b.tableTextStep token).IsPlain := by
  cases token with
  | character c =>
      apply Step.IsPlain.either h.done
      exact IsPlain.done h
  | comment => exact h.addTableText.again b.returnMode plain
  | startTag tag => exact h.addTableText.again b.returnMode plain
  | endTag name => exact h.addTableText.again b.returnMode plain
  | doctype doctype => exact h.addTableText.again b.returnMode plain
  | endOfText => exact h.addTableText.again b.returnMode plain

theorem closeCaption : b.closeCaption.IsPlain :=
  IsPlain.clearToMarker h

theorem captionStep {token : Token} (plain : token.IsPlain) : (b.captionStep token).IsPlain := by
  cases token with
  | startTag tag =>
      refine .either (.either (h.closeCaption.again .inTable plain) h.done) ?_
      exact h.bodyStart plain
  | endTag name =>
      refine .either (.either (h.closeCaption.enter .inTable).done h.done) ?_
      refine .either (.either (h.closeCaption.again .inTable plain) h.done) ?_
      exact .either h.done (h.bodyEnd name)
  | character c => exact h.bodyStep plain
  | comment => exact h.bodyStep plain
  | doctype doctype => exact h.bodyStep plain
  | endOfText => exact h.bodyStep plain

theorem leaveColumns {token : Token} (plain : token.IsPlain) :
    (b.leaveColumns token).IsPlain :=
  .either (h.pop.again .inTable plain) h.done

theorem columnGroupStep {token : Token} (plain : token.IsPlain) :
    (b.columnGroupStep token).IsPlain := by
  cases token with
  | character c => exact .either (h.addCharacter c).done (h.leaveColumns plain)
  | comment => exact h.addComment.done
  | startTag tag =>
      refine .either (h.mergeRoot tag).done ?_
      refine .either (h.addTag plain).done ?_
      exact .either (h.headStart plain) (h.leaveColumns plain)
  | endTag name =>
      refine .either (.either (h.pop.enter .inTable).done h.done) ?_
      refine .either h.done ?_
      exact .either (h.headEnd name) (h.leaveColumns plain)
  | doctype doctype => exact h.done
  | endOfText => exact h.bodyStep plain

theorem leaveSection {token : Token} (plain : token.IsPlain) :
    (b.leaveSection token).IsPlain :=
  .either (h.popToSection.pop.again .inTable plain) h.done

theorem tableBodyStep {token : Token} (plain : token.IsPlain) :
    (b.tableBodyStep token).IsPlain := by
  have row : (b.popToSection.openNamed "tr").IsPlain :=
    h.popToSection.openNamed (by decide)
  cases token with
  | startTag tag =>
      refine .either ((h.popToSection.openTag plain).enter .inRow).done ?_
      refine .either (row.again .inRow plain) ?_
      exact .either (h.leaveSection plain) (h.tableStart plain)
  | endTag name =>
      refine .either (.either (h.popToSection.pop.enter .inTable).done h.done) ?_
      refine .either (h.leaveSection plain) ?_
      exact .either h.done (h.tableEnd name)
  | character c => exact h.tableStep plain
  | comment => exact h.tableStep plain
  | doctype doctype => exact h.tableStep plain
  | endOfText => exact h.tableStep plain

theorem leaveRow {token : Token} (plain : token.IsPlain) : (b.leaveRow token).IsPlain :=
  .either (h.popToRow.pop.again .inTableBody plain) h.done

theorem rowStep {token : Token} (plain : token.IsPlain) : (b.rowStep token).IsPlain := by
  cases token with
  | startTag tag =>
      refine .either ((h.popToRow.openTag plain).enter .inCell).addMarker.done ?_
      exact .either (h.leaveRow plain) (h.tableStart plain)
  | endTag name =>
      refine .either (.either (h.popToRow.pop.enter .inTableBody).done h.done) ?_
      refine .either (h.leaveRow plain) ?_
      refine .either (.either (h.leaveRow plain) h.done) ?_
      exact .either h.done (h.tableEnd name)
  | character c => exact h.tableStep plain
  | comment => exact h.tableStep plain
  | doctype doctype => exact h.tableStep plain
  | endOfText => exact h.tableStep plain

theorem closeCell : b.closeCell.IsPlain :=
  IsPlain.clearToMarker h

theorem cellStep {token : Token} (plain : token.IsPlain) : (b.cellStep token).IsPlain := by
  cases token with
  | startTag tag =>
      refine .either (.either (h.closeCell.again .inRow plain) h.done) ?_
      exact h.bodyStart plain
  | endTag name =>
      have closed := (h.impliedEnds.popThroughNamed name).clearToMarker
      refine .either (.either (closed.enter .inRow).done h.done) ?_
      refine .either (.either (h.closeCell.again .inRow plain) h.done) ?_
      exact .either h.done (h.bodyEnd name)
  | character c => exact h.bodyStep plain
  | comment => exact h.bodyStep plain
  | doctype doctype => exact h.bodyStep plain
  | endOfText => exact h.bodyStep plain

theorem closeSelect : b.closeSelect.IsPlain := h

theorem selectStart (plain : IsPlainName tag.name) : (b.selectStart tag).IsPlain := by
  have closed : (if b.currentIsNamed "option" then b.pop else b).IsPlain := either h.pop h
  refine .either (h.mergeRoot tag).done ?_
  refine .either (closed.openTag plain).done ?_
  refine .either ((either closed.pop closed).openTag plain).done ?_
  refine .either (.either h.closeSelect.resetMode.done h.done) ?_
  refine .either (.either (h.closeSelect.again _ plain) h.done) ?_
  exact .either (h.headStart plain) h.done

theorem selectEnd (name : String) : (b.selectEnd name).IsPlain := by
  have left : (if b.inGroupedOption then b.pop else b).IsPlain := either h.pop h
  refine .either (either left.pop left).done ?_
  refine .either (either h.pop h).done ?_
  refine .either (.either h.closeSelect.resetMode.done h.done) ?_
  exact .either (h.headEnd name) h.done

theorem selectStep {token : Token} (plain : token.IsPlain) : (b.selectStep token).IsPlain := by
  cases token with
  | character c => exact .either h.done (h.addCharacter c).done
  | comment => exact h.addComment.done
  | startTag tag => exact h.selectStart plain
  | endTag name => exact h.selectEnd name
  | doctype doctype => exact h.done
  | endOfText => exact h.bodyStep plain

theorem selectInTableStep {token : Token} (plain : token.IsPlain) :
    (b.selectInTableStep token).IsPlain := by
  cases token with
  | startTag tag => exact .either (h.closeSelect.again _ plain) (h.selectStart plain)
  | endTag name => exact .either (.either (h.closeSelect.again _ plain) h.done) (h.selectEnd name)
  | character c => exact h.selectStep plain
  | comment => exact h.selectStep plain
  | doctype doctype => exact h.selectStep plain
  | endOfText => exact h.selectStep plain

theorem templateAgain (mode : Mode) (plain : IsPlainName tag.name) :
    (b.templateAgain mode tag).IsPlain :=
  IsPlain.again h mode plain

theorem templateStep {token : Token} (plain : token.IsPlain) : (b.templateStep token).IsPlain := by
  cases token with
  | startTag tag =>
      refine .either (h.headStart plain) ?_
      refine .either (h.templateAgain .inTable plain) ?_
      refine .either (h.templateAgain .inColumnGroup plain) ?_
      refine .either (h.templateAgain .inTableBody plain) ?_
      exact .either (h.templateAgain .inRow plain) (h.templateAgain .inBody plain)
  | endTag name => exact .either (h.headEnd name) h.done
  | character c => exact h.bodyStep plain
  | comment => exact h.bodyStep plain
  | doctype doctype => exact h.bodyStep plain
  | endOfText => exact h.templateEnd

theorem addCommentToHtml : b.addCommentToHtml.IsPlain := by
  unfold Builder.addCommentToHtml
  split
  · exact h.addCommentTo _
  · exact h

theorem afterBodyStep {token : Token} (plain : token.IsPlain) :
    (b.afterBodyStep token).IsPlain := by
  cases token with
  | character c => exact .either (h.bodyStep plain) (h.again .inBody plain)
  | comment => exact h.addCommentToHtml.done
  | startTag tag => exact .either (h.mergeRoot tag).done (h.again .inBody plain)
  | endTag name => exact .either (h.enter .afterAfterBody).done (h.again .inBody plain)
  | doctype doctype => exact h.done
  | endOfText => exact h.done

theorem afterAfterBodyStep {token : Token} (plain : token.IsPlain) :
    (b.afterAfterBodyStep token).IsPlain := by
  cases token with
  | character c => exact .either (h.bodyStep plain) (h.again .inBody plain)
  | comment => exact (h.addCommentTo Forest.root).done
  | startTag tag => exact .either (h.mergeRoot tag).done (h.again .inBody plain)
  | endTag name => exact h.again .inBody plain
  | doctype doctype => exact h.done
  | endOfText => exact h.done

theorem leaveFrameset : b.leaveFrameset.IsPlain :=
  either h (either h.pop (h.pop.enter .afterFrameset))

theorem framesetStep {token : Token} (plain : token.IsPlain) : (b.framesetStep token).IsPlain := by
  cases token with
  | character c => exact (either (h.addCharacter c) h).done
  | comment => exact h.addComment.done
  | startTag tag =>
      refine .either (h.mergeRoot tag).done ?_
      refine .either (h.openTag plain).done ?_
      refine .either (h.addTag plain).done ?_
      exact .either (h.headStart plain) h.done
  | endTag name => exact .either h.leaveFrameset.done h.done
  | doctype doctype => exact h.done
  | endOfText => exact h.done

theorem afterFramesetStep {token : Token} (plain : token.IsPlain) :
    (b.afterFramesetStep token).IsPlain := by
  cases token with
  | character c => exact (either (h.addCharacter c) h).done
  | comment => exact h.addComment.done
  | startTag tag => exact .either (h.mergeRoot tag).done (.either (h.headStart plain) h.done)
  | endTag name => exact .either (h.enter .afterAfterFrameset).done h.done
  | doctype doctype => exact h.done
  | endOfText => exact h.done

theorem afterAfterFramesetStep {token : Token} (plain : token.IsPlain) :
    (b.afterAfterFramesetStep token).IsPlain := by
  cases token with
  | character c => exact .either (h.bodyStep plain) h.done
  | comment => exact (h.addCommentTo Forest.root).done
  | startTag tag => exact .either (h.mergeRoot tag).done (.either (h.headStart plain) h.done)
  | endTag name => exact h.done
  | doctype doctype => exact h.done
  | endOfText => exact h.done

theorem stepIn (mode : Mode) {token : Token} (plain : token.IsPlain) :
    (b.stepIn mode token).IsPlain := by
  cases mode with
  | initial => exact h.initialStep plain
  | beforeHtml => exact h.beforeHtmlStep plain
  | beforeHead => exact h.beforeHeadStep plain
  | inHead => exact h.headStep plain
  | afterHead => exact h.afterHeadStep plain
  | inBody => exact h.bodyStep plain
  | inText => exact h.textStep token
  | inTable => exact h.tableStep plain
  | inTableText => exact h.tableTextStep plain
  | inCaption => exact h.captionStep plain
  | inColumnGroup => exact h.columnGroupStep plain
  | inTableBody => exact h.tableBodyStep plain
  | inRow => exact h.rowStep plain
  | inCell => exact h.cellStep plain
  | inSelect => exact h.selectStep plain
  | inSelectInTable => exact h.selectInTableStep plain
  | inTemplate => exact h.templateStep plain
  | afterBody => exact h.afterBodyStep plain
  | inFrameset => exact h.framesetStep plain
  | afterFrameset => exact h.afterFramesetStep plain
  | afterAfterBody => exact h.afterAfterBodyStep plain
  | afterAfterFrameset => exact h.afterAfterFramesetStep plain

theorem leaveForeign : b.leaveForeign.IsPlain := h

theorem foreignEnd (name : String) (first : Bool) (stack : List OpenElement) :
    (b.foreignEnd name first stack).IsPlain := by
  induction stack generalizing first with
  | nil => exact h.done
  | cons element rest ih =>
      cases rest with
      | nil => exact h.done
      | cons parent rest =>
          unfold Builder.foreignEnd
          split
          · exact h.stepIn b.mode trivial
          · split
            · exact IsPlain.done h
            · exact ih false

theorem foreignStep {token : Token} (plain : token.IsPlain) : (b.foreignStep token).IsPlain := by
  cases token with
  | character c =>
      refine .either (h.addCharacter replacement).done ?_
      exact ((either h h.forbidFrameset).addCharacter c).done
  | comment => exact h.addComment.done
  | startTag tag =>
      unfold Builder.foreignStep
      dsimp only
      split
      · exact h.leaveForeign.again b.mode plain
      · split
        · exact (h.openForeign _ plain).done
        · exact h.done
  | endTag name => exact h.foreignEnd name true b.stack
  | doctype doctype => exact h.done
  | endOfText => exact h.done

theorem step {token : Token} (plain : token.IsPlain) : (b.step token).IsPlain := by
  unfold Builder.step
  split
  · exact h.foreignStep plain
  · exact h.stepIn b.mode plain

theorem settle (turns : Nat) {token : Token} (plain : token.IsPlain) :
    (settle turns b token).IsPlain := by
  induction turns generalizing b token with
  | zero => exact h
  | succ turns ih =>
      have step := h.step plain
      rw [Builder.settle]
      split
      · next found =>
          rw [found] at step
          exact step.1
      · next found =>
          rw [found] at step
          exact ih (step.1.enter _) (step.2 _ _ rfl)

theorem process {token : Token} (plain : token.IsPlain) : (b.process token).IsPlain := by
  have start : ({ b with skipsNewline := false } : Builder).IsPlain := h
  simp only [Builder.process]
  split
  · split
    · exact start.settle _ plain
    · exact h
  · split
    · exact h
    · exact start.settle _ plain

theorem read (s : List Char) : (b.read s).IsPlain := by
  induction b, s using Builder.read.induct with
  | case1 b =>
      rw [Builder.read]
      exact h.process isPlain_endOfText
  | case2 b s more foreign scanned shorter ih =>
      rw [Builder.read, dif_neg more]
      have tokens : scanned.IsPlain := isPlain_scan b.model foreign s
      have start : ({ b with model := .markup } : Builder).IsPlain := h
      apply ih
      exact start.foldl fun _ plain token member => plain.process (tokens token member)

end Builder.IsPlain

theorem isPlain_parse (text : String) : ∀ node ∈ parse text, node.IsPlain := by
  have start : ({} : Builder).IsPlain := ⟨Forest.isPlain_start, List.forall_mem_nil _⟩
  exact (start.read _).1.document

end ComputedStyle.Html
