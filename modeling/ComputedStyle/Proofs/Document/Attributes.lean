import ComputedStyle.Proofs.Dictionary
import ComputedStyle.Proofs.Document.Bookkeeping
import ComputedStyle.Proofs.Except

namespace ComputedStyle

namespace Attributes

theorem names_insertEntry (name value : String) (entries : List (String × String)) :
    (insertEntry name value entries).map Prod.fst =
      entries.map Prod.fst ++ if name ∈ entries.map Prod.fst then [] else [name] := by
  induction entries with
  | nil => rfl
  | cons entry rest ih =>
      simp only [insertEntry, List.map_cons, List.mem_cons]
      split
      · next same => simp [same]
      · next other => simp only [List.map_cons, ih, Ne.symm other, false_or, List.cons_append]

theorem lookup_insertEntry (name value : String) (entries : List (String × String))
    (other : String) :
    (insertEntry name value entries).lookup other =
      if other = name then some value else entries.lookup other := by
  induction entries with
  | nil => rw [insertEntry, Dictionary.lookup_cons_entry]
  | cons entry rest ih =>
      rw [insertEntry, Dictionary.lookup_cons_entry]
      split
      · next same =>
          rw [Dictionary.lookup_cons_entry, same]
          split <;> rfl
      · next different =>
          rw [Dictionary.lookup_cons_entry, ih]
          split
          · next same => rw [if_neg (same ▸ different)]
          · rfl

theorem get?_insert (name value : String) (attributes : Attributes) (other : String) :
    (attributes.insert name value).get? other =
      if other = name then some value else attributes.get? other :=
  lookup_insertEntry name value attributes.entries other

end Attributes

/-- The values that calls give a name, first to last. -/
def valuesOf (name : String) (calls : List (String × String)) : List String :=
  (calls.filter (·.1 = name)).map Prod.snd

theorem valuesOf_append (name : String) (calls : List (String × String))
    (call : String × String) :
    valuesOf name (calls ++ [call]) =
      valuesOf name calls ++ if call.1 = name then [call.2] else [] := by
  rw [valuesOf, valuesOf, List.filter_append, List.map_append, List.filter_singleton]
  by_cases same : call.1 = name <;> simp [same]

/-- Each name once, where it was first set, with the value set last; and the classes of that. -/
structure Node.Keeps (node : Node) (calls : List (String × String)) : Prop where
  names : node.attributes.entries.map Prod.fst = (calls.map Prod.fst).eraseDups
  values : ∀ name, node.attributes.get? name = (valuesOf name calls).getLast?
  classes : node.classes = ((valuesOf "class" calls).getLast?.map ClassList.ofText).getD {}

/-- What the values of `style` declare, later ones over earlier ones. -/
def Node.Gathers (node : Node) (calls : List (String × String)) : Prop :=
  ∃ styles, (valuesOf "style" calls).mapM StyleMap.ofInline = .ok styles ∧
    node.declared = styles.foldl Dictionary.extend .empty

/-- Nothing is declared without the attribute `style`; with it, what its last value declares, and of
the values before it what the last one does not. -/
structure Node.Declares (node : Node) (calls : List (String × String)) : Prop where
  absent : valuesOf "style" calls = [] → node.declared = .empty
  present : ∀ before value, valuesOf "style" calls = before ++ [value] →
    ∃ earlier current, before.mapM StyleMap.ofInline = .ok earlier ∧
      StyleMap.ofInline value = .ok current ∧
      node.declared = (earlier.foldl Dictionary.extend .empty).extend current ∧
      (node.declared = current ↔
        ∀ style ∈ earlier, ∀ name, style.contains name → current.contains name)

section Calls

variable {node : Node} {calls : List (String × String)}

theorem Node.keeps_fresh (content : Content) (links : Links) :
    Node.Keeps { content, links } [] where
  names := rfl
  values _ := rfl
  classes := rfl

theorem Node.gathers_fresh (content : Content) (links : Links) :
    Node.Gathers { content, links } [] :=
  ⟨[], rfl, rfl⟩

theorem Node.Keeps.setNodeAttribute (keeps : node.Keeps calls) (name value : String)
    (style : StyleMap) :
    (Document.setNodeAttribute name value style node).Keeps (calls ++ [(name.toLower, value)]) where
  names := by
    have member : name.toLower ∈ (calls.map Prod.fst).eraseDups ↔
        name.toLower ∈ calls.map Prod.fst := List.mem_eraseDups
    rw [List.map_append, List.map_singleton, eraseDups_append_singleton,
      Document.setNodeAttribute, Attributes.insert, Attributes.names_insertEntry, keeps.names]
    simp only [member]
  values other := by
    rw [Document.setNodeAttribute, Attributes.get?_insert, valuesOf_append, keeps.values]
    by_cases same : other = name.toLower
    · simp [same]
    · simp [same, Ne.symm same]
  classes := by
    rw [Document.setNodeAttribute, keeps.classes, valuesOf_append]
    by_cases same : name.toLower = "class" <;> simp [same]

theorem Node.Gathers.setNodeAttribute (gathers : node.Gathers calls) {name value : String}
    {style : StyleMap}
    (read : StyleMap.ofInline (if name.toLower = "style" then value else "") = .ok style) :
    (Document.setNodeAttribute name value style node).Gathers
      (calls ++ [(name.toLower, value)]) := by
  obtain ⟨styles, all, declared⟩ := gathers
  rw [Gathers, valuesOf_append, Document.setNodeAttribute]
  by_cases same : name.toLower = "style"
  · rw [if_pos same] at read
    refine ⟨styles ++ [style], ?_, by simp [declared]⟩
    rw [if_pos same, List.mapM_append, all, List.mapM_cons, read]
    rfl
  · rw [if_neg same] at read
    have nothing : style = .empty := Except.ok.inj (read.symm.trans Document.ofInline_nil)
    rw [if_neg same, List.append_nil]
    exact ⟨styles, all, by rw [nothing, ← declared]; rfl⟩

theorem contains_extend (style overriding : StyleMap) (name : String) :
    (style.extend overriding).contains name =
      (overriding.contains name || style.contains name) := by
  rw [Dictionary.contains, Dictionary.get?_extend, Option.isSome_or]
  rfl

theorem contains_foldl_extend (styles : List StyleMap) (start : StyleMap) (name : String) :
    (styles.foldl Dictionary.extend start).contains name =
      (styles.any (·.contains name) || start.contains name) := by
  induction styles generalizing start with
  | nil => rfl
  | cons style rest ih =>
      rw [List.foldl_cons, ih, contains_extend, List.any_cons, ← Bool.or_assoc,
        Bool.or_comm (style.contains name)]

/-- Declarations put over others leave only themselves if they declare all that was declared. -/
theorem extend_eq_right_iff (style overriding : StyleMap) :
    style.extend overriding = overriding ↔
      ∀ name, style.contains name → overriding.contains name := by
  constructor
  · intro same name declares
    rw [← same, contains_extend, declares, Bool.or_true]
  · intro covers
    refine Dictionary.ext_get fun name => ?_
    rw [Dictionary.get?_extend]
    cases found : overriding.get? name with
    | some value => rfl
    | none =>
        cases own : style.get? name with
        | none => rfl
        | some value =>
            have declares := covers name (Dictionary.contains_iff.2 ⟨value, own⟩)
            rw [Dictionary.contains, found] at declares
            cases declares

theorem Node.Gathers.declares (gathers : node.Gathers calls) : node.Declares calls where
  absent none := by
    obtain ⟨styles, all, declared⟩ := gathers
    rw [none] at all
    cases all
    exact declared
  present before value split := by
    obtain ⟨styles, all, declared⟩ := gathers
    rw [split, List.mapM_append] at all
    simp only [bind_eq_ok, List.mapM_cons, List.mapM_nil] at all
    obtain ⟨earlier, first, last, ⟨current, own, rest, nil, whole⟩, joined⟩ := all
    cases nil
    cases whole
    cases joined
    rw [List.foldl_append] at declared
    refine ⟨earlier, current, first, own, declared, ?_⟩
    rw [declared]
    refine (extend_eq_right_iff _ _).trans ⟨fun covers style member name declares => ?_,
      fun covers name declares => ?_⟩
    · refine covers name ?_
      rw [contains_foldl_extend, List.any_eq_true.2 ⟨style, member, declares⟩, Bool.true_or]
    · rw [contains_foldl_extend, Bool.or_eq_true] at declares
      rcases declares with declared | never
      · obtain ⟨style, member, declares⟩ := List.any_eq_true.1 declared
        exact covers style member name declares
      · cases never

end Calls

namespace Document

/-- The attribute that an edit sets at a node, with its name in lower case. -/
def attributeCall? (doc : Document) (id : NodeId) : Edit → Option (String × String)
  | .setAttribute other name value =>
      match doc.setAttribute other name value with
      | .ok _ => if other = id then some (name.toLower, value) else none
      | .error _ => none
  | _ => none

/-- The attributes that edits set at a node, first to last. -/
def attributeCalls (id : NodeId) : Document → List Edit → List (String × String)
  | _, [] => []
  | doc, change :: rest =>
      (doc.attributeCall? id change).toList ++ attributeCalls id (doc.attempt change) rest

end Document

/-- An edit that writes what a node declares, but not by an attribute. -/
def Edit.Restyles (id : NodeId) : Edit → Prop
  | .setInlineStyle other _ => other = id
  | .restyle other _ _ => other = id
  | _ => False

/-- What an edit makes of one node, and the attribute that it sets there. -/
inductive NodeStep (change : Edit) (id : NodeId) :
    Option Node → Option Node → Option (String × String) → Prop where
  | same (node : Option Node) : NodeStep change id node node none
  | created (content : Content) (links : Links) :
      NodeStep change id none (some { content, links }) none
  | linked (node : Node) (links : Links) :
      NodeStep change id (some node) (some { node with links }) none
  | restyled (node : Node) (declared computed : StyleMap) (restyles : change.Restyles id) :
      NodeStep change id (some node) (some { node with declared, computed }) none
  | set (node : Node) (name value : String) (style : StyleMap)
      (read : StyleMap.ofInline (if name.toLower = "style" then value else "") = .ok style) :
      NodeStep change id (some node) (some (Document.setNodeAttribute name value style node))
        (some (name.toLower, value))

namespace Document

section Steps

variable {doc next : Document} {change : Edit} {id : NodeId}

theorem nodeStep_add {parent : Option NodeId} {content : Content}
    (added : doc.add parent content = .ok next) :
    NodeStep change id (doc.node? id) (next.node? id) none := by
  rcases add_cases added with ⟨empty, rfl⟩ | ⟨p, bound, rfl⟩
  · have nothing : doc.node? id = none := node?_eq_none (by simp_all [isEmpty, size])
    rw [node?_ofRoot, nothing]
    split
    · exact .created content _
    · exact .same none
  · rw [node?_append]
    split
    · next fresh =>
        rw [node?_eq_none fresh.ge]
        exact .created content _
    · split
      · next same =>
          subst same
          cases doc.node? id with
          | none => exact .same none
          | some node => exact .linked node _
      · exact .same _

theorem inlineStyle_eq_ok {text : String} {style : StyleMap} :
    doc.inlineStyle id text = .ok style ↔ id < doc.size ∧ StyleMap.ofInline text = .ok style := by
  unfold inlineStyle
  split
  · next bound => simp [bound, mapError_eq_ok]
  · next outside => simp [outside]

theorem links_setNodeAttribute (name value : String) (style : StyleMap) (node : Node) :
    (setNodeAttribute name value style node).links = node.links := rfl

theorem setAttribute_eq_ok {name value : String} :
    doc.setAttribute id name value = .ok next ↔
      id < doc.size ∧ ∃ style,
        StyleMap.ofInline (if name.toLower = "style" then value else "") = .ok style ∧
          next = doc.update id (setNodeAttribute name value style)
            (links_setNodeAttribute name value style) := by
  rw [setAttribute, bind_eq_ok]
  constructor
  · rintro ⟨style, read, made⟩
    obtain ⟨bound, read⟩ := inlineStyle_eq_ok.1 read
    exact ⟨bound, style, read, (Except.ok.inj made).symm⟩
  · rintro ⟨bound, style, read, rfl⟩
    exact ⟨style, inlineStyle_eq_ok.2 ⟨bound, read⟩, rfl⟩

theorem nodeStep_restyle {other : NodeId} (declared computed : Node → StyleMap)
    (restyles : other = id → change.Restyles id) :
    NodeStep change id (doc.node? id)
      ((doc.update other
        (fun node => { node with declared := declared node, computed := computed node })
        fun _ => rfl).node? id) none := by
  rw [node?_update]
  split
  · next same =>
      cases doc.node? id with
      | none => exact .same none
      | some node => exact .restyled node _ _ (restyles same.symm)
  · exact .same _

theorem nodeStep_attempt (doc : Document) (change : Edit) (id : NodeId) :
    NodeStep change id (doc.node? id) ((doc.attempt change).node? id)
      (doc.attributeCall? id change) := by
  unfold attempt
  cases change with
  | addElement parent tag =>
      simp only [edit, addElement, attributeCall?]
      cases added : doc.add parent (.element tag.toLower) with
      | error e => exact .same _
      | ok next => exact nodeStep_add added
  | addText parent text =>
      simp only [edit, addText, attributeCall?]
      cases added : doc.add (some parent) (.text text) with
      | error e => exact .same _
      | ok next => exact nodeStep_add added
  | setAttribute other name value =>
      simp only [edit, attributeCall?]
      cases set : doc.setAttribute other name value with
      | error e => exact .same _
      | ok next =>
          obtain ⟨bound, style, read, rfl⟩ := setAttribute_eq_ok.1 set
          simp only [Except.toOption, Option.getD_some, node?_update]
          by_cases same : other = id
          · subst same
            obtain ⟨node, found⟩ := node?_isSome bound
            rw [if_pos rfl, if_pos rfl, found]
            exact .set node name value style read
          · rw [if_neg same, if_neg (Ne.symm same)]
            exact .same _
  | setInlineStyle other text =>
      simp only [edit, attributeCall?]
      cases set : doc.setInlineStyle other text with
      | error e => exact .same _
      | ok next =>
          rw [setInlineStyle, bind_eq_ok] at set
          obtain ⟨style, -, made⟩ := set
          cases made
          exact nodeStep_restyle (·.declared.extend style) Node.computed fun same => same
  | restyle other declared computed =>
      exact nodeStep_restyle (fun _ => declared) (fun _ => computed) fun same => same

/-- What is known of a node once some calls have set attributes there: nothing has before it was
made. -/
def Recorded (plain : Prop) (calls : List (String × String)) : Option Node → Prop
  | none => calls = []
  | some node => node.Keeps calls ∧ (plain → node.Gathers calls)

theorem Recorded.step {plain : Prop} {calls : List (String × String)} {node next : Option Node}
    {call : Option (String × String)} (recorded : Recorded plain calls node)
    (step : NodeStep change id node next call) (unstyled : plain → ¬change.Restyles id) :
    Recorded plain (calls ++ call.toList) next := by
  cases step with
  | same => simpa using recorded
  | created content links =>
      obtain rfl : calls = [] := recorded
      exact ⟨Node.keeps_fresh content links, fun _ => Node.gathers_fresh content links⟩
  | linked node links =>
      obtain ⟨keeps, gathers⟩ := recorded
      rw [Option.toList_none, List.append_nil]
      exact ⟨⟨keeps.names, keeps.values, keeps.classes⟩, gathers⟩
  | restyled node declared computed restyles =>
      obtain ⟨keeps, -⟩ := recorded
      rw [Option.toList_none, List.append_nil]
      exact ⟨⟨keeps.names, keeps.values, keeps.classes⟩, fun known => absurd restyles (unstyled known)⟩
  | set node name value style read =>
      obtain ⟨keeps, gathers⟩ := recorded
      exact ⟨keeps.setNodeAttribute name value style,
        fun known => (gathers known).setNodeAttribute read⟩

theorem Recorded.run {plain : Prop} {edits : List Edit}
    (unstyled : plain → ∀ change ∈ edits, ¬change.Restyles id) {calls : List (String × String)}
    (recorded : Recorded plain calls (doc.node? id)) :
    Recorded plain (calls ++ attributeCalls id doc edits)
      ((edits.foldl attempt doc).node? id) := by
  induction edits generalizing doc calls with
  | nil => simpa [attributeCalls] using recorded
  | cons change rest ih =>
      have first := recorded.step (nodeStep_attempt doc change id)
        fun known => unstyled known change List.mem_cons_self
      rw [attributeCalls, ← List.append_assoc]
      exact ih (fun known other member => unstyled known other (List.mem_cons_of_mem _ member)) first

end Steps

/-- A node has each attribute that was set, where its name was first set and with the value set last,
and the classes of its `class`. As long as nothing else writes its styles, it declares what its
`style` declares, and of earlier values what that one does not. A call at a node fails only if its
`style` cannot be read. -/
theorem attributes_ofEdits (edits : List Edit) (id : NodeId) (node : Node)
    (found : (ofEdits edits).node? id = some node) :
    let calls := attributeCalls id empty edits
    node.Keeps calls ∧
      ((∀ change ∈ edits, ¬change.Restyles id) → node.Declares calls) ∧
      ∀ name value, (∃ next, (ofEdits edits).setAttribute id name value = .ok next) ↔
        (name.toLower = "style" → ∃ style, StyleMap.ofInline value = .ok style) := by
  intro calls
  have start : Recorded (∀ change ∈ edits, ¬change.Restyles id) [] (empty.node? id) := rfl
  have recorded := start.run fun known => known
  rw [List.nil_append, ← ofEdits, found] at recorded
  obtain ⟨keeps, gathers⟩ := recorded
  have bound : id < (ofEdits edits).size := by
    by_contra outside
    rw [node?_eq_none (Nat.le_of_not_lt outside)] at found
    cases found
  refine ⟨keeps, fun known => (gathers known).declares, fun name value => ?_⟩
  simp only [setAttribute_eq_ok, bound, true_and]
  by_cases same : name.toLower = "style"
  · simp [same]
  · simp [same, ofInline_nil]

/-- A `style` that declares all that an earlier one does. -/
theorem attributes_ofEdits_covered :
    let edits : List Edit := [.addElement none "p", .setAttribute 0 "STYLE" "color: red",
      .setAttribute 0 "class" "a b a", .setAttribute 0 "style" "color: blue; width: 1px"]
    (∀ change ∈ edits, ¬change.Restyles 0) ∧
      ∃ node, (ofEdits edits).node? 0 = some node ∧
        node.attributes.entries.map Prod.fst = ["style", "class"] ∧
        node.attributes.get? "style" = some "color: blue; width: 1px" ∧
        node.classes = .ofText "a b a" ∧
        node.declared = .ofList [("color", "blue"), ("width", "1px")] := by
  intro edits
  have unstyled : ∀ change ∈ edits, ¬change.Restyles 0 := by
    simp [edits, Edit.Restyles]
  obtain ⟨node, found⟩ : ∃ node, (ofEdits edits).node? 0 = some node :=
    Option.isSome_iff_exists.1 (by decide +kernel)
  obtain ⟨keeps, declares, -⟩ := attributes_ofEdits edits 0 node found
  have calls : attributeCalls 0 empty edits = [("style", "color: red"), ("class", "a b a"),
      ("style", "color: blue; width: 1px")] := by decide +kernel
  rw [calls] at keeps declares
  obtain ⟨earlier, current, first, last, declared, -⟩ :=
    (declares unstyled).present ["color: red"] "color: blue; width: 1px" rfl
  have red : ["color: red"].mapM StyleMap.ofInline = .ok [.ofList [("color", "red")]] := by
    decide +kernel
  have blue : StyleMap.ofInline "color: blue; width: 1px" =
      .ok (.ofList [("color", "blue"), ("width", "1px")]) := by decide +kernel
  obtain rfl := Except.ok.inj (first.symm.trans red)
  obtain rfl := Except.ok.inj (last.symm.trans blue)
  refine ⟨unstyled, node, found, keeps.names.trans (by decide +kernel),
    (keeps.values "style").trans rfl, keeps.classes.trans rfl, declared.trans ?_⟩
  decide +kernel

/-- What an overwritten `style` declared is still declared. -/
theorem style_overwritten :
    let doc := ofEdits [.addElement none "p", .setAttribute 0 "style" "color: red",
      .setAttribute 0 "style" "width: 1px"]
    doc.attribute? 0 "style" = some "width: 1px" ∧
      StyleMap.ofInline "width: 1px" = .ok (.ofList [("width", "1px")]) ∧
      doc.declared 0 = .ofList [("color", "red"), ("width", "1px")] := by
  decide +kernel

end Document

end ComputedStyle
