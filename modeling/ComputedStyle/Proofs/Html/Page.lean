import ComputedStyle.Proofs.Document.Path
import ComputedStyle.Proofs.Except
import ComputedStyle.Proofs.Html.Copy
import ComputedStyle.Proofs.Html.Rules

namespace ComputedStyle

namespace Html

namespace Markup

mutual
theorem isPlain_shown : ∀ {node : Markup}, node.IsPlain → ∀ kept ∈ node.shown, kept.IsPlain
  | .element name attributes children, .element own below => by
      intro kept member
      rw [shown, List.mem_singleton] at member
      subst member
      refine .element own ?_
      split
      · exact List.forall_mem_nil _
      · exact isPlain_shownAll below
  | .text value, .text _ => by
      intro kept member
      rw [shown] at member
      split at member
      · cases member
      · rw [List.mem_singleton.1 member]
        exact .text value
  | .comment, .comment => List.forall_mem_nil _

theorem isPlain_shownAll : ∀ {nodes : List Markup}, (∀ node ∈ nodes, node.IsPlain) →
    ∀ kept ∈ shownAll nodes, kept.IsPlain
  | [], _ => List.forall_mem_nil _
  | node :: rest, plain => by
      intro kept member
      obtain ⟨first, later⟩ := List.forall_mem_cons.1 plain
      rcases List.mem_append.1 member with own | other
      · exact isPlain_shown first kept own
      · exact isPlain_shownAll later kept other
end

end Markup

end Html

open Html

namespace Document

variable {doc : Document}

/-- A tree whose bookkeeping is right and whose tags are plain. -/
structure IsNamed (doc : Document) : Prop where
  consistent : doc.Consistent
  plain : doc.HasPlainTags

theorem isNamed_empty : empty.IsNamed where
  consistent := consistent_empty
  plain := by
    intro id tag own
    cases own

/-- No tag, or one that paths can be told apart by. -/
def HasPlainTag (content : Content) : Prop :=
  ∀ tag, content.tag? = some tag → '/' ∉ tag.toList ∧ tag ≠ textSegment

theorem hasPlainTags_iff : doc.HasPlainTags ↔ ∀ id, HasPlainTag (doc.content id) := by
  simp only [HasPlainTags, HasPlainTag, tag?_eq_content]

theorem content_setAttribute {next : Document} {id : NodeId} {name value : String}
    (set : doc.setAttribute id name value = .ok next) (other : NodeId) :
    next.content other = doc.content other := by
  obtain ⟨style, _, made⟩ := bind_eq_ok.1 set
  cases made
  apply content_update
  intro node
  rfl

namespace IsNamed

variable (h : doc.IsNamed)

include h

theorem add {next : Document} {parent : Option NodeId} {content : Content}
    (lower : content.IsLower) (plain : HasPlainTag content)
    (added : doc.add parent content = .ok next) : next.IsNamed := by
  refine ⟨h.consistent.step (step_add lower added), hasPlainTags_iff.2 fun id => ?_⟩
  rcases add_cases added with ⟨_, rfl⟩ | ⟨p, bound, rfl⟩
  · rw [Document.content, node?_ofRoot]
    split
    · exact plain
    · intro tag own
      cases own
  · rw [content_append]
    split
    · exact plain
    · exact hasPlainTags_iff.1 h.plain id

theorem addElement {next : Document} {parent : Option NodeId} {name : String}
    (plain : IsPlainName name) (added : doc.addElement parent name = .ok next) : next.IsNamed := by
  apply h.add (Content.isLower_element name) _ added
  intro tag own
  cases own
  obtain ⟨free, start⟩ := isPlainName_toLower plain
  refine ⟨free, ?_⟩
  intro mark
  rw [mark] at start
  exact start rfl

theorem addText {next : Document} {parent : NodeId} {value : String}
    (added : doc.addText parent value = .ok next) : next.IsNamed := by
  have text : doc.add (some parent) (.text value) = .ok next := added
  apply h.add (Content.isLower_text value) _ text
  intro tag own
  cases own

theorem setAttribute {next : Document} {id : NodeId} {name value : String}
    (set : doc.setAttribute id name value = .ok next) : next.IsNamed := by
  refine ⟨h.consistent.step (step_setAttribute set), hasPlainTags_iff.2 fun other => ?_⟩
  rw [content_setAttribute set]
  exact hasPlainTags_iff.1 h.plain other

theorem setAttributes {next : Document} {id : NodeId} {attributes : List (String × String)}
    (set : doc.setAttributes id attributes = .ok next) : next.IsNamed := by
  apply foldlM_ok_induction _ attributes h set
  intro state entry next holds set
  exact IsNamed.setAttribute holds set

end IsNamed

mutual
theorem isNamed_copy : ∀ {node : Markup} {doc next : Document} {parent : Option NodeId},
    node.IsPlain → doc.IsNamed → copy parent doc node = .ok next → next.IsNamed
  | .element name attributes children, doc, next, parent, .element own below, h, copied => by
      simp only [copy, bind_eq_ok] at copied
      obtain ⟨added, adds, ready, sets, copied⟩ := copied
      have added := h.addElement (isPlainName_toLower own) adds
      exact isNamed_copyAll below (added.setAttributes sets) copied
  | .text value, doc, next, none, _, h, copied => by
      cases copied
      exact h
  | .text value, doc, next, some p, _, h, copied => h.addText copied
  | .comment, doc, next, parent, _, h, copied => by
      cases copied
      exact h

theorem isNamed_copyAll : ∀ {nodes : List Markup} {doc next : Document} {parent : NodeId},
    (∀ node ∈ nodes, node.IsPlain) → doc.IsNamed → copyAll parent doc nodes = .ok next →
      next.IsNamed
  | [], doc, next, parent, _, h, copied => by
      cases copied
      exact h
  | node :: rest, doc, next, parent, plain, h, copied => by
      obtain ⟨first, later⟩ := List.forall_mem_cons.1 plain
      simp only [copyAll, bind_eq_ok] at copied
      obtain ⟨between, own, copied⟩ := copied
      exact isNamed_copyAll later (isNamed_copy first h own) copied
end

theorem isNamed_ofMarkup {root : Markup} (plain : root.IsPlain) (made : ofMarkup root = .ok doc) :
    doc.IsNamed := by
  let motive (state : Document) (rest : List Markup) : Prop :=
    state.IsNamed ∧ ∀ node ∈ rest, node.IsPlain
  have start : motive empty root.shown := ⟨isNamed_empty, Markup.isPlain_shown plain⟩
  refine (foldlM_ok_rest (motive := motive) ?_ root.shown start made).1
  intro state node rest next ⟨named, plain⟩ copied
  obtain ⟨first, later⟩ := List.forall_mem_cons.1 plain
  exact ⟨isNamed_copy first named copied, later⟩

end Document

namespace Html.Page

theorem isNamed_document {text : String} {page : Page} (made : read text = .ok page) :
    page.document.IsNamed := by
  rw [read] at made
  cases found : (parse text).find? Markup.isElement with
  | some root =>
      rw [ofNodes_of_find? found, bind_eq_ok] at made
      obtain ⟨doc, built, made⟩ := made
      cases made
      have plain := isPlain_parse text root (List.mem_of_find?_eq_some found)
      exact Document.isNamed_ofMarkup plain built
  | none =>
      rw [ofNodes_of_not_isElement found] at made
      cases made
      exact Document.isNamed_empty

end Html.Page

/-- Paths are faithful in all trees, and the tags of a page are plain. -/
theorem Document.paths_faithful :
    (∀ edits, (ofEdits edits).HasFaithfulPaths) ∧
      ∀ text page, Page.read text = .ok page →
        page.document.HasFaithfulPaths ∧ page.document.HasPlainTags := by
  constructor
  · exact fun edits => (consistent_ofEdits edits).hasFaithfulPaths
  · intro text page made
    have named := Page.isNamed_document made
    exact ⟨named.consistent.hasFaithfulPaths, named.plain⟩

/-- Brackets and digits in tags, and a text between elements; then a page with a slash and the mark
of a text just outside a tag name. -/
theorem Document.paths_faithful_brackets :
    let doc := ofEdits [.addElement none "p", .addElement (some 0) "b[1]",
      .addText 0 "t", .addElement (some 0) "b"]
    (doc.HasPlainTags ∧ doc.IsKeyedByPath) ∧
      ∃ page, Page.read "<b/i>#text</b>" = .ok page ∧
        page.document.paths.toList = ["/html", "/html/head[0]", "/html/body[1]",
          "/html/body[1]/b[0]", "/html/body[1]/b[0]/#text[0]"] ∧
        page.document.HasPlainTags ∧ page.document.IsKeyedByPath := by
  intro doc
  have plain : doc.HasPlainTags := by decide +kernel
  refine ⟨⟨plain, (paths_faithful.1 _).keyed plain⟩, ?_⟩
  have paths : (Page.read "<b/i>#text</b>").map (·.document.paths.toList) = .ok
      ["/html", "/html/head[0]", "/html/body[1]", "/html/body[1]/b[0]",
        "/html/body[1]/b[0]/#text[0]"] := by
    decide +kernel
  obtain ⟨page, made, listed⟩ := map_eq_ok.1 paths
  obtain ⟨faithful, plain⟩ := paths_faithful.2 _ page made
  exact ⟨page, made, listed, plain, faithful.keyed plain⟩

end ComputedStyle
