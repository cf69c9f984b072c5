import ComputedStyle.Document.FontSize
import ComputedStyle.Proofs.Document.Attributes
import ComputedStyle.Proofs.Document.Order

/-!
Font sizes along the way from the root to a node.

`HasFontSize` says the size of a node without an order of evaluation: by what the node declares, the
size of its parent and that of the root. The pass over the tree gives every node this size
(`fontSizes_chain`), so nothing off the way to a node has a part in it.
-/

namespace ComputedStyle

def Edit.Writes (id : NodeId) : Edit → Prop
  | .setAttribute other _ _ => other = id
  | edit => edit.Restyles id

namespace Document

/-- A declared size as it is read: without blanks around it and in lower case. -/
def sizeWord (raw : String) : String :=
  (Text.trimmed raw).toLower

def sizeKeywords : List String := ["inherit", "unset", "initial"]

/-- How a declared size comes to a length, from the parent's size and the root's. -/
inductive SizeStep (read : SizeReader) (parent : Length) (root : Option Length) :
    Option String → Length → Prop where
  | undeclared : SizeStep read parent root none parent
  | deferring (raw : String) (keyword : sizeWord raw = "inherit" ∨ sizeWord raw = "unset") :
      SizeStep read parent root (some raw) parent
  | initial (raw : String) (keyword : sizeWord raw = "initial") :
      SizeStep read parent root (some raw) defaultFontSize
  | resolved (raw : String) (size : Length) (other : sizeWord raw ∉ sizeKeywords)
      (found : read { parentFontSize := some parent, rootFontSize := root } (sizeWord raw) =
        some size) : SizeStep read parent root (some raw) size
  | unresolved (raw : String) (other : sizeWord raw ∉ sizeKeywords)
      (missing : read { parentFontSize := some parent, rootFontSize := root } (sizeWord raw) =
        none) : SizeStep read parent root (some raw) parent

/-- The sizes of the nodes of a tree: that of the root from the default size, and that of any other
node from the sizes of its parent and the root. -/
inductive HasFontSize (doc : Document) (read : SizeReader) : NodeId → Length → Prop where
  | root (id : NodeId) (size : Length) (top : doc.root? = some id)
      (step : SizeStep read defaultFontSize none ((doc.declared id).get? "font-size") size) :
      HasFontSize doc read id size
  | child (id p r : NodeId) (size above rootSize : Length) (up : doc.parent? id = some p)
      (parent : HasFontSize doc read p above) (top : doc.root? = some r)
      (root : HasFontSize doc read r rootSize)
      (step : SizeStep read above (some rootSize) ((doc.declared id).get? "font-size") size) :
      HasFontSize doc read id size

section Step

variable {read : SizeReader} {parent size : Length} {root : Option Length} {declared : Option String}

theorem fontSizeStep_of_other {raw : String} (other : sizeWord raw ∉ sizeKeywords) :
    fontSizeStep read (some raw) parent root =
      (read { parentFontSize := some parent, rootFontSize := root } (sizeWord raw)).getD parent := by
  simp only [sizeKeywords, List.mem_cons, List.not_mem_nil, or_false, not_or] at other
  obtain ⟨first, second, third⟩ := other
  rw [fontSizeStep, Option.map_some, ← sizeWord]
  split
  · next missing => cases missing
  · next same => exact absurd (Option.some.inj same) first
  · next same => exact absurd (Option.some.inj same) second
  · next same => exact absurd (Option.some.inj same) third
  · next same =>
      cases same
      rfl

theorem sizeStep_fontSizeStep (read : SizeReader) (declared : Option String) (parent : Length)
    (root : Option Length) :
    SizeStep read parent root declared (fontSizeStep read declared parent root) := by
  cases declared with
  | none => exact .undeclared
  | some raw =>
      by_cases other : sizeWord raw ∉ sizeKeywords
      · rw [fontSizeStep_of_other other]
        cases found : read { parentFontSize := some parent, rootFontSize := root } (sizeWord raw) with
        | none => exact .unresolved raw other found
        | some size => exact .resolved raw size other found
      · rw [not_not] at other
        simp only [sizeKeywords, List.mem_cons, List.not_mem_nil, or_false] at other
        rw [fontSizeStep, Option.map_some, ← sizeWord]
        rcases other with same | same | same
        · rw [same]
          exact .deferring raw (.inl same)
        · rw [same]
          exact .deferring raw (.inr same)
        · rw [same]
          exact .initial raw same

theorem SizeStep.unique (step : SizeStep read parent root declared size) :
    size = fontSizeStep read declared parent root := by
  cases step with
  | undeclared => rfl
  | deferring raw keyword =>
      rw [fontSizeStep, Option.map_some, ← sizeWord]
      rcases keyword with same | same
      · rw [same]
        rfl
      · rw [same]
        rfl
  | initial raw keyword =>
      rw [fontSizeStep, Option.map_some, ← sizeWord, keyword]
      rfl
  | resolved raw _ other found => rw [fontSizeStep_of_other other, found, Option.getD_some]
  | unresolved raw other missing => rw [fontSizeStep_of_other other, missing, Option.getD_none]

end Step

variable {doc next : Document} {read : SizeReader}

theorem HasFontSize.bound {id : NodeId} {size : Length} (has : doc.HasFontSize read id size) :
    id < doc.size := by
  cases has with
  | root _ _ top =>
      obtain ⟨rfl, bound⟩ := root_of_root? (Option.mem_toList.2 top)
      exact bound
  | child _ _ _ _ _ _ up => exact size_of_parent? up

theorem HasFontSize.unique {id : NodeId} {size other : Length}
    (has : doc.HasFontSize read id size) (has' : doc.HasFontSize read id other) : other = size := by
  induction has generalizing other with
  | root id size top step =>
      cases has' with
      | root _ _ _ step' => rw [step.unique, step'.unique]
      | child _ p _ _ _ _ up =>
          obtain ⟨rfl, _⟩ := root_of_root? (Option.mem_toList.2 top)
          exact absurd (parent?_lt up) (Nat.not_lt_zero p)
  | child id p r size above rootSize up _ top _ step ihParent ihRoot =>
      cases has' with
      | root _ _ top' =>
          obtain ⟨rfl, _⟩ := root_of_root? (Option.mem_toList.2 top')
          exact absurd (parent?_lt up) (Nat.not_lt_zero p)
      | child _ p' r' _ _ _ up' parent' top' root' step' =>
          cases up.symm.trans up'
          cases top.symm.trans top'
          cases ihParent parent'
          cases ihRoot root'
          rw [step.unique, step'.unique]

theorem HasFontSize.congr (consistent : doc.Consistent) (root : next.root? = doc.root?)
    {id : NodeId} {size : Length} (has : doc.HasFontSize read id size)
    (same : ∀ a ∈ doc.lineage id, next.parent? a = doc.parent? a ∧
      (next.declared a).get? "font-size" = (doc.declared a).get? "font-size") :
    next.HasFontSize read id size := by
  induction has with
  | root id size top step =>
      refine .root id size (root.trans top) ?_
      rw [(same id List.mem_cons_self).2]
      exact step
  | child id p r size above rootSize up parent top _ step ihParent ihRoot =>
      have way : ∀ a ∈ doc.lineage p, a ∈ doc.lineage id := by
        intro a member
        rw [lineage, ancestors_of_child up]
        exact List.mem_cons_of_mem _ member
      have first : ∀ a ∈ doc.lineage r, a ∈ doc.lineage id := by
        obtain ⟨rfl, _⟩ := root_of_root? (Option.mem_toList.2 top)
        intro a member
        rw [lineage, ancestors_of_root doc.parent?_zero, List.mem_singleton] at member
        subst member
        exact consistent.root_mem_lineage (size_of_parent? up)
      obtain ⟨up', declared⟩ := same id List.mem_cons_self
      refine .child id p r size above rootSize (up'.trans up) ?_ (root.trans top) ?_ ?_
      · exact ihParent fun a member => same a (way a member)
      · exact ihRoot fun a member => same a (first a member)
      · rw [declared]
        exact step

/-- Nodes passed have their sizes, the root before all others. -/
structure FontSizes.Covers (doc : Document) (read : SizeReader) (passed : List NodeId)
    (known : FontSizes) : Prop where
  size : known.sizes.size = doc.size
  final : ∀ id ∈ passed, ∃ size, known.sizes[id]? = some size ∧ doc.HasFontSize read id size
  rootFirst : passed ≠ [] → 0 ∈ passed
  rootKnown : 0 ∈ passed → ∃ size, known.root = some size ∧ doc.HasFontSize read 0 size
  rootUnknown : passed = [] → known.root = none

theorem FontSizes.Covers.hasFontSize (consistent : doc.Consistent) {passed : List NodeId}
    {known : FontSizes} {id : NodeId} (covers : known.Covers doc read passed)
    (bound : id < doc.size) (fresh : id ∉ passed)
    (ready : ∀ p, doc.parent? id = some p → p ∈ passed) :
    doc.HasFontSize read id (fontSizeStep read ((doc.declared id).get? "font-size")
      (((doc.parent? id).bind (known.sizes[·]?)).getD defaultFontSize) known.root) := by
  have top : doc.root? = some 0 := root?_eq (Nat.zero_lt_of_lt bound)
  cases up : doc.parent? id with
  | none =>
      obtain rfl := consistent.rooted id bound up
      have first : passed = [] := by
        by_contra positive
        exact fresh (covers.rootFirst positive)
      rw [Option.bind_none, Option.getD_none, covers.rootUnknown first]
      exact .root 0 _ top (sizeStep_fontSizeStep read _ _ _)
  | some p =>
      have member := ready p up
      obtain ⟨above, found, parent⟩ := covers.final p member
      obtain ⟨rootSize, known_, root⟩ :=
        covers.rootKnown (covers.rootFirst (List.ne_nil_of_mem member))
      rw [Option.bind_some, found, Option.getD_some, known_]
      exact .child id p 0 _ above rootSize up parent top root (sizeStep_fontSizeStep read _ _ _)

theorem addFontSize_eq {known : FontSizes} {id : NodeId} {size : Length}
    (step : fontSizeStep read ((doc.declared id).get? "font-size")
      (((doc.parent? id).bind (known.sizes[·]?)).getD defaultFontSize) known.root = size) :
    doc.addFontSize read known id =
      { sizes := known.sizes.modify id fun _ => size
        root := if doc.isRoot id then some size else known.root } := by
  subst step
  rfl

theorem FontSizes.Covers.addFontSize (consistent : doc.Consistent) {passed : List NodeId}
    {known : FontSizes} {id : NodeId} (covers : known.Covers doc read passed)
    (bound : id < doc.size) (fresh : id ∉ passed)
    (ready : ∀ p, doc.parent? id = some p → p ∈ passed) :
    (doc.addFontSize read known id).Covers doc read (id :: passed) := by
  have has := covers.hasFontSize consistent bound fresh ready
  obtain ⟨size, step⟩ : ∃ size, fontSizeStep read ((doc.declared id).get? "font-size")
      (((doc.parent? id).bind (known.sizes[·]?)).getD defaultFontSize) known.root = size :=
    ⟨_, rfl⟩
  rw [step] at has
  rw [addFontSize_eq step]
  have isRoot : doc.isRoot id = true ↔ id = 0 := by
    rw [isRoot, Option.isNone_iff_eq_none]
    refine ⟨consistent.rooted id bound, ?_⟩
    rintro rfl
    exact doc.parent?_zero
  constructor
  · rw [Array.size_modify, covers.size]
  · refine List.forall_mem_cons.2 ⟨⟨size, ?_, has⟩, fun other member => ?_⟩
    · rw [Array.getElem?_modify, if_pos rfl, Array.getElem?_eq_getElem (covers.size ▸ bound),
        Option.map_some]
    · obtain ⟨own, found, has'⟩ := covers.final other member
      refine ⟨own, ?_, has'⟩
      rw [Array.getElem?_modify, if_neg, found]
      rintro rfl
      exact fresh member
  · intro _
    by_cases first : passed = []
    · subst first
      cases up : doc.parent? id with
      | none => exact List.mem_singleton.2 (consistent.rooted id bound up).symm
      | some p => cases ready p up
    · exact List.mem_cons_of_mem _ (covers.rootFirst first)
  · intro member
    by_cases top : id = 0
    · subst top
      rw [if_pos (isRoot.2 rfl)]
      exact ⟨size, rfl, has⟩
    · rw [if_neg (mt isRoot.1 top)]
      rcases List.mem_cons.1 member with same | later
      · exact absurd same.symm top
      · exact covers.rootKnown later
  · exact nofun

theorem covers_fontSizesBy (read : SizeReader) (consistent : doc.Consistent) :
    ∃ known : FontSizes, doc.fontSizesBy read = known.sizes ∧
      known.Covers doc read doc.preorder.reverse := by
  refine ⟨_, rfl, ?_⟩
  let motive (passed : List NodeId) (known : FontSizes) : Prop :=
    passed.Nodup → known.Covers doc read passed
  refine consistent.foldl_preorder (motive := motive) ?_ ?_ ?_
  · intro passed known id bound ready covers nodup
    obtain ⟨fresh, nodup⟩ := List.nodup_cons.1 nodup
    exact (covers nodup).addFontSize consistent bound fresh ready
  · intro _
    exact ⟨Array.size_replicate, List.forall_mem_nil _, absurd rfl, nofun, fun _ => rfl⟩
  · exact List.nodup_reverse.2 consistent.nodup_preorder

theorem size_fontSizesBy (consistent : doc.Consistent) :
    (doc.fontSizesBy read).size = doc.size := by
  obtain ⟨known, same, covers⟩ := covers_fontSizesBy read consistent
  rw [same, covers.size]

theorem getElem?_fontSizesBy (consistent : doc.Consistent) {id : NodeId} {size : Length} :
    (doc.fontSizesBy read)[id]? = some size ↔ doc.HasFontSize read id size := by
  obtain ⟨known, same, covers⟩ := covers_fontSizesBy read consistent
  have final : id < doc.size →
      ∃ size, known.sizes[id]? = some size ∧ doc.HasFontSize read id size := fun bound =>
    covers.final id (List.mem_reverse.2 (consistent.mem_preorder.2 bound))
  rw [same]
  constructor
  · intro found
    have bound := (Array.getElem?_eq_some_iff.1 found).1
    obtain ⟨own, found', has⟩ := final (covers.size ▸ bound)
    cases found.symm.trans found'
    exact has
  · intro has
    obtain ⟨own, found, has'⟩ := final has.bound
    rw [found, has.unique has']

theorem Step.linked (step : Step doc next) {id : NodeId} (bound : id < doc.size) :
    id < next.size ∧ next.parent? id = doc.parent? id := by
  cases step with
  | same => exact ⟨bound, rfl⟩
  | root content empty => simp_all [isEmpty, size]
  | child p content inside =>
      rw [size_append, parent?_append, if_neg (Nat.ne_of_lt bound)]
      exact ⟨Nat.lt_succ_of_lt bound, rfl⟩
  | update other change keeps =>
      rw [size_update, parent?_update]
      exact ⟨bound, rfl⟩

theorem declared_of_nodeStep {change : Edit} {id : NodeId} {node : Node} {after : Option Node}
    {call : Option (String × String)} (step : NodeStep change id (some node) after call)
    (silent : call = none) (unstyled : ¬change.Restyles id) :
    after.map Node.declared = some node.declared := by
  cases step with
  | same => rfl
  | linked => rfl
  | restyled _ declared computed restyles => exact absurd restyles unstyled
  | set => cases silent

theorem attempt_of_unwritten {change : Edit} {id : NodeId} (bound : id < doc.size)
    (unwritten : ¬change.Writes id) :
    id < (doc.attempt change).size ∧ (doc.attempt change).parent? id = doc.parent? id ∧
      (doc.attempt change).declared id = doc.declared id := by
  have linked := (step_attempt doc change).linked bound
  have silent : doc.attributeCall? id change = none := by
    unfold attributeCall?
    split
    · next other name value =>
        split
        · exact if_neg unwritten
        · rfl
    · rfl
  have unstyled : ¬change.Restyles id := by
    cases change with
    | setAttribute other name value => exact not_false
    | addElement parent tag => exact not_false
    | addText parent text => exact not_false
    | setInlineStyle other text => exact unwritten
    | restyle other declared computed => exact unwritten
  obtain ⟨node, own⟩ := node?_isSome bound
  have step := nodeStep_attempt doc change id
  rw [own] at step
  have declared := declared_of_nodeStep step silent unstyled
  refine ⟨linked.1, linked.2, ?_⟩
  rw [Document.declared, Document.declared, declared, own, Option.map_some]

theorem foldl_attempt_of_unwritten {id : NodeId} (later : List Edit) (bound : id < doc.size)
    (unwritten : ∀ change ∈ later, ¬change.Writes id) :
    id < (later.foldl attempt doc).size ∧ (later.foldl attempt doc).parent? id = doc.parent? id ∧
      (later.foldl attempt doc).declared id = doc.declared id := by
  induction later generalizing doc with
  | nil => exact ⟨bound, rfl, rfl⟩
  | cons change rest ih =>
      obtain ⟨own, others⟩ := List.forall_mem_cons.1 unwritten
      obtain ⟨bound', parent, declared⟩ := attempt_of_unwritten bound own
      obtain ⟨bound'', parent', declared'⟩ := ih bound' others
      exact ⟨bound'', parent'.trans parent, declared'.trans declared⟩

/-- The size of a node is what the declared sizes on the way from the root to it come to, each from
the size of the parent and that of the root, whatever the reader of sizes; and it stays through all
edits that write no node on this way. -/
theorem fontSizes_chain (edits : List Edit) (read : SizeReader) :
    let doc := ofEdits edits
    doc.fontSizes = doc.fontSizesBy Length.readFontSize? ∧
      defaultFontSize = .ofMilli 12000 ∧
      (doc.fontSizesBy read).size = doc.size ∧
      (∀ id size, (doc.fontSizesBy read)[id]? = some size ↔ doc.HasFontSize read id size) ∧
      ∀ id, id < doc.size → ∀ later : List Edit,
        (∀ a ∈ doc.lineage id, ∀ change ∈ later, ¬change.Writes a) →
          ((ofEdits (edits ++ later)).fontSizesBy read)[id]? = (doc.fontSizesBy read)[id]? := by
  intro doc
  have consistent : doc.Consistent := consistent_ofEdits edits
  refine ⟨rfl, by decide +kernel, size_fontSizesBy consistent,
    fun id size => getElem?_fontSizesBy consistent, ?_⟩
  intro id bound later unwritten
  have grown : ofEdits (edits ++ later) = later.foldl attempt doc := List.foldl_append
  obtain ⟨size, found⟩ : ∃ size, (doc.fontSizesBy read)[id]? = some size :=
    ⟨_, Array.getElem?_eq_getElem (by rwa [size_fontSizesBy consistent])⟩
  have way : ∀ a ∈ doc.lineage id, a < doc.size := by
    intro a member
    rcases List.mem_cons.1 member with rfl | above
    · exact bound
    · exact Nat.lt_trans (ancestors_lt above) bound
  have kept : ∀ a ∈ doc.lineage id, _ := fun a member =>
    foldl_attempt_of_unwritten later (way a member) (unwritten a member)
  have root : (later.foldl attempt doc).root? = doc.root? := by
    rw [root?_eq (Nat.zero_lt_of_lt (kept id List.mem_cons_self).1),
      root?_eq (Nat.zero_lt_of_lt bound)]
  rw [found, getElem?_fontSizesBy (consistent_ofEdits _), grown]
  refine ((getElem?_fontSizesBy consistent).1 found).congr consistent root fun a member => ?_
  obtain ⟨_, parent, declared⟩ := kept a member
  exact ⟨parent, by rw [declared]⟩

theorem fontSizes_chain_siblings :
    let edits : List Edit := [.addElement none "html", .setAttribute 0 "style" "font-size: 20pt",
      .addElement (some 0) "h1", .addElement (some 1) "small", .addElement (some 0) "p",
      .setAttribute 1 "style" "font-size: 2EM", .setAttribute 2 "style" "font-size: 0.5rem"]
    let later : List Edit := [.setAttribute 3 "style" "font-size: 1pt", .addElement (some 2) "b"]
    (ofEdits edits).fontSizes.toList.map Length.milli = [20000, 40000, 10000, 20000] ∧
      (ofEdits (edits ++ later)).fontSizes[2]? = (ofEdits edits).fontSizes[2]? := by
  intro edits later
  refine ⟨by decide +kernel, ?_⟩
  obtain ⟨same, _, _, _, kept⟩ := fontSizes_chain edits Length.readFontSize?
  refine kept 2 (by decide +kernel) later fun a member change listed => ?_
  have near : a ≤ 2 := by
    rcases List.mem_cons.1 member with rfl | above
    · exact Nat.le_refl 2
    · exact Nat.le_of_lt (ancestors_lt above)
  simp only [later, List.mem_cons, List.not_mem_nil, or_false] at listed
  rcases listed with rfl | rfl
  · rintro rfl
    exact absurd near (by decide)
  · exact not_false

end Document

end ComputedStyle
