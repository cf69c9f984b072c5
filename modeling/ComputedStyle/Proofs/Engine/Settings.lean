import ComputedStyle.Proofs.Engine.Readable
import ComputedStyle.Proofs.Inheritance.Tree

namespace ComputedStyle

/-- Settings that differ at most in how a pass is carried out and what is noted of it. -/
structure Config.StylesLike (config other : Config) : Prop where
  percentageBase : config.percentageBase = other.percentageBase
  borderWidths : config.borderWidths = other.borderWidths
  userAgentDefaults : config.userAgentDefaults = other.userAgentDefaults

namespace Config.StylesLike

variable {config other : Config} (same : config.StylesLike other)

include same

theorem compile (sheets : List String) : config.compile sheets = other.compile sheets := by
  have base : config.baseRules = other.baseRules := by
    rw [baseRules, baseRules, same.userAgentDefaults]
  rw [Config.compile, Config.compile, base]

theorem result (doc : Document) (set : RuleSet) : config.result doc set = other.result doc set := by
  have style : ∀ cascade, config.style doc cascade = other.style doc cascade := by
    intro cascade
    rw [style, style, same.percentageBase, same.borderWidths]
  rw [Config.result, Config.result, styled, styled, style]

theorem input (call : Call) : call.input config = call.input other := by
  cases call with
  | html text extra =>
      rw [Call.input, Call.input]
      split
      · rfl
      · rw [same.compile]
  | tree doc sheets => rw [Call.input, Call.input, same.compile]
  | rules doc additions => rfl

theorem call_result (call : Call) : call.result config = call.result other := by
  simp only [Call.result, same.input, same.result]

end Config.StylesLike

theorem Document.IsRestyled.size {doc next : Document} (restyled : doc.IsRestyled next) :
    next.size = doc.size := by
  have bound : ∀ id, id < next.size ↔ id < doc.size := by
    intro id
    have same : (next.node? id).isSome = (doc.node? id).isSome := by
      rw [restyled id, Option.isSome_map]
    rw [Bool.eq_iff_iff] at same
    simpa [Document.node?, Document.size] using same
  apply Nat.le_antisymm
  · exact Nat.le_of_not_lt fun less => Nat.lt_irrefl _ ((bound _).1 less)
  · exact Nat.le_of_not_lt fun less => Nat.lt_irrefl _ ((bound _).2 less)

/-- A result counts all nodes of a tree, and its elements alone have boxes. -/
structure StyleResult.Covers (result : StyleResult) (doc : Document) : Prop where
  size : result.styled.size = doc.size
  nodes : result.nodes = doc.size
  elements : result.elements = doc.ids.countP doc.isElement
  kinds : ∀ id, result.styled.document.isElement id = doc.isElement id
  boxes : ∀ id, (result.styled.box? id).isSome = doc.isElement id

section Covers

variable {doc : Document} {base : Option Length} {widths : BorderWidths} {styled : StyledDocument}

theorem StyledDocument.isSome_boxAt {sizes : Array Length} {id : NodeId} {box : Option BoxModel}
    (found : boxAt doc sizes base widths id = .ok box) : box.isSome = doc.isElement id := by
  unfold boxAt at found
  split at found
  · next element =>
      rw [bind_eq_ok] at found
      obtain ⟨own, _, found⟩ := found
      cases found
      exact element.symm
  · next text =>
      cases found
      exact (Bool.eq_false_iff.2 text).symm

theorem StyledDocument.ofDeclared_spec (made : ofDeclared doc base widths = .ok styled) :
    styled.document = doc.inherit ∧
      ∀ id, (styled.box? id).isSome = styled.document.isElement id := by
  rw [ofDeclared] at made
  simp only [bind_eq_ok, mapError_eq_ok] at made
  obtain ⟨boxes, boxed, texts, _, made⟩ := made
  cases made
  refine ⟨rfl, fun id => ?_⟩
  obtain ⟨length, each⟩ := mapM_eq_ok boxed
  rw [Document.ids, List.length_range] at length
  rw [box?, List.getElem?_toArray]
  by_cases bound : id < doc.inherit.size
  · obtain ⟨box, found, own⟩ := each id id (List.getElem?_range bound)
    rw [found, Option.getD_some]
    exact isSome_boxAt own
  · have outside := Nat.le_of_not_lt bound
    have text : doc.inherit.isElement id = false := by
      rw [Document.isElement, Document.tag?, Document.node?_eq_none outside]
      rfl
    rw [List.getElem?_eq_none (length ▸ outside), text]
    rfl

variable {config : Config} {set : RuleSet} {result : StyleResult}

theorem Config.covers_result (tree : doc.Consistent) (given : config.result doc set = .ok result) :
    result.Covers doc := by
  rw [Config.result, map_eq_ok] at given
  obtain ⟨styled, made, rfl⟩ := given
  rw [Config.styled, mapError_eq_ok] at made
  obtain ⟨document, boxes⟩ := StyledDocument.ofDeclared_spec made
  have restyled := (Document.inherit_spec (Cascade.consistent_merge tree
    (Cascade.matchNodes set (.build set) doc doc.preorder).results)).1
  have kinds : ∀ id, styled.document.isElement id = doc.isElement id := by
    intro id
    rw [document]
    exact (restyled.isElement id).trans (Cascade.isElement_merge doc _ id)
  constructor
  case size =>
    rw [StyledDocument.size, document]
    exact restyled.size.trans (Cascade.size_merge doc _)
  case nodes => exact Cascade.nodes_apply tree
  case elements => exact Cascade.elements_apply tree
  case kinds => exact kinds
  case boxes => exact fun id => (boxes id).trans (kinds id)

end Covers

/-- The tree that a call is about. -/
def Call.document? : Call → Option Document
  | html text _ => (Html.Page.read text).toOption.map Html.Page.document
  | tree doc _ => some doc
  | rules doc _ => some doc

def Call.IsBuilt : Call → Prop
  | html _ _ => True
  | tree doc _ => ∃ edits, doc = .ofEdits edits
  | rules doc _ => ∃ edits, doc = .ofEdits edits

theorem Html.Page.consistent_read {text : String} {page : Page} (made : Page.read text = .ok page) :
    page.document.Consistent := by
  rw [Page.read] at made
  cases found : (parse text).find? Markup.isElement with
  | none =>
      rw [ofNodes_of_not_isElement found] at made
      cases made
      exact Document.consistent_empty
  | some root =>
      obtain ⟨kept, -, copy⟩ := isCopy_of_ofNodes found made
      exact copy.consistent

theorem Call.IsBuilt.consistent {call : Call} (built : call.IsBuilt) {doc : Document}
    (about : call.document? = some doc) : doc.Consistent := by
  have edited : ∀ tree : Document, (∃ edits, tree = .ofEdits edits) → some tree = some doc →
      doc.Consistent := by
    rintro _ ⟨edits, rfl⟩ ⟨⟩
    exact Document.consistent_ofEdits edits
  cases call with
  | html text extra =>
      rw [document?] at about
      cases read : Html.Page.read text with
      | error error =>
          rw [read] at about
          cases about
      | ok page =>
          rw [read] at about
          cases about
          exact Html.Page.consistent_read read
  | tree tree sheets => exact edited tree built about
  | rules tree additions => exact edited tree built about

theorem Call.document?_of_input {config : Config} {call : Call} {doc : Document} {set : RuleSet}
    (given : call.input config = .ok (doc, set)) : call.document? = some doc := by
  cases call with
  | html text extra =>
      rw [input] at given
      rw [document?]
      split at given
      · cases given
      · next page read =>
          obtain ⟨compiled, _, same⟩ := map_eq_ok.1 given
          rw [read]
          exact congrArg (fun pair => some pair.1) same
  | tree own sheets =>
      obtain ⟨compiled, _, same⟩ := map_eq_ok.1 given
      exact congrArg (fun pair => some pair.1) same
  | rules own additions =>
      cases given
      rfl

theorem Call.covers_result {config : Config} {call : Call} {result : StyleResult}
    (built : call.IsBuilt) (given : call.result config = .ok result) :
    ∃ doc, call.document? = some doc ∧ result.Covers doc := by
  rw [Call.result] at given
  obtain ⟨⟨doc, set⟩, input, styled⟩ := bind_eq_ok.1 given
  have about := document?_of_input input
  exact ⟨doc, about, Config.covers_result (built.consistent about) styled⟩

namespace Engine

theorem result_of_new {config : Config} {fault? : String → Option String} {fresh : Engine}
    (made : Engine.new config fault? = .ok fresh) (here : Circumstances) (call : Call) :
    (fresh.call here call).2.map StylePass.result = call.result config := by
  have clear : Unambiguous (call.ruleSet? config).toList := by
    intro set member other member' _
    rw [Option.mem_toList] at member member'
    rw [Option.mem_unique member member']
  exact (call_result (keeps_new made) clear here call fun set => Option.mem_toList.2).2

end Engine

end ComputedStyle
