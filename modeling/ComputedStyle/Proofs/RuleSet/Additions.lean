import ComputedStyle.Proofs.RuleSet.Fingerprint
import ComputedStyle.Proofs.Selector.Specificity

namespace ComputedStyle

/-- What holds of each rule of a set by itself. -/
structure Rule.IsSound (rule : Rule) : Prop where
  declares : rule.declarations.isEmpty = false
  members : rule.selectors.members ≠ []
  attained : ∃ member ∈ rule.selectors.members, rule.specificity = member.specificity
  greatest : ∀ member ∈ rule.selectors.members, rule.specificity.lt member.specificity = false
  trimmed : Text.trimmed rule.selectorText = rule.selectorText
  reread : SelectorGroup.read rule.selectorText = .ok rule.selectors

theorem Rule.FromText.isSound {rule : Rule} {text : String} (source : rule.FromText text) :
    rule.IsSound where
  declares := source.declares
  members := SelectorGroup.members_ne_nil_of_read source.read
  attained := by
    rw [source.specificity]
    exact SelectorGroup.exists_specificity (SelectorGroup.members_ne_nil_of_read source.read)
  greatest member listed := by
    have above := (foldl_max_specificity rule.selectors.members .zero).2.1 member listed
    rw [source.specificity, Bool.eq_false_iff, ne_eq, Specificity.lt_iff]
    exact not_lt.2 above
  trimmed := by
    rw [source.trimmed, Text.trimmed, Text.trimmed, String.toList_ofList, Text.trim_trim]
  reread := RuleSet.read_selectorText source

/-- What a sheet says of a rule. -/
def Rule.source (rule : Rule) : SourceRule :=
  ⟨rule.selectorText, rule.declarations⟩

namespace SourceRule

/-- A rule with a selector that stops the reading of its group. -/
def Breaks (source : SourceRule) : Prop :=
  SelectorGroup.read source.selector = .error .brokenCharacter

/-- Whether a rule can be read and declares anything. -/
def isUsable (source : SourceRule) : Bool :=
  (SelectorGroup.read source.selector).toOption.isSome && !source.declarations.isEmpty

def trimmed (source : SourceRule) : SourceRule :=
  ⟨Text.trimmed source.selector, source.declarations⟩

end SourceRule

namespace RuleSet

/-- Every place has a rule with the place as its number, and each rule is sound. -/
structure WellFormed (set : RuleSet) : Prop where
  numbered : ∀ i (bound : i < set.rules.size),
    set.rules[i].id = i ∧ set.get? i = some set.rules[i]
  sound : ∀ rule ∈ set.rules, rule.IsSound

theorem Consistent.wellFormed {set : RuleSet} (h : set.Consistent) : set.WellFormed where
  numbered i bound := by
    have found : set.get? i = some set.rules[i] := Array.getElem?_eq_getElem bound
    exact ⟨h.numbered i _ found, found⟩
  sound rule member := by
    obtain ⟨i, found⟩ := Array.mem_iff_getElem?.1 member
    obtain ⟨text, source⟩ := h.read i rule found
    exact source.isSound

/-- How a call that adds one rule ends. -/
inductive AddsRule (set : RuleSet) (selector : String) (declarations : StyleMap)
    (origin : Origin) : Except SelectorError (RuleSet × Option RuleId) → Prop where
  | broken (read : SelectorGroup.read selector = .error .brokenCharacter) :
      AddsRule set selector declarations origin (.error .brokenCharacter)
  | unreadable {next : RuleSet} (read : SelectorGroup.read selector = .error .unreadable)
      (kept : next.rules = set.rules) : AddsRule set selector declarations origin (.ok (next, none))
  | silent {next : RuleSet} {group : SelectorGroup} (read : SelectorGroup.read selector = .ok group)
      (silent : declarations.isEmpty) (kept : next.rules = set.rules) :
      AddsRule set selector declarations origin (.ok (next, none))
  | appended {next : RuleSet} (rule : Rule) (read : SelectorGroup.read selector = .ok rule.selectors)
      (declares : declarations.isEmpty = false) (rules : next.rules = set.rules.push rule)
      (number : rule.id = set.size) (source : rule.source = ⟨Text.trimmed selector, declarations⟩)
      (own : rule.origin = origin) :
      AddsRule set selector declarations origin (.ok (next, some rule.id))

/-- A set with the usable rules of a list put behind its own. -/
structure Appends (set next : RuleSet) (origin : Origin) (sources : List SourceRule)
    (added : List Rule) : Prop where
  rules : next.rules.toList = set.rules.toList ++ added
  sources : added.map Rule.source = (sources.filter SourceRule.isUsable).map SourceRule.trimmed
  origin : ∀ rule ∈ added, rule.origin = origin
  reads : ∀ rule ∈ added, SelectorGroup.read rule.selectorText = .ok rule.selectors

/-- How a call that adds a sheet ends. -/
inductive AddsSheet (set : RuleSet) (css : String) (origin : Origin) :
    Except StyleError (RuleSet × Nat) → Prop where
  | unread {error : ColorError} (read : Stylesheet.read css = .error error) :
      AddsSheet set css origin (.error (.color error))
  | broken {sheet : Stylesheet} (read : Stylesheet.read css = .ok sheet)
      (breaks : ∃ source ∈ sheet.rules, source.Breaks) :
      AddsSheet set css origin (.error (.selector .brokenCharacter))
  | appended {sheet : Stylesheet} {next : RuleSet} {added : List Rule}
      (read : Stylesheet.read css = .ok sheet) (whole : ∀ source ∈ sheet.rules, ¬source.Breaks)
      (appends : Appends set next origin sheet.rules added) :
      AddsSheet set css origin (.ok (next, added.length))

section Calls

variable {set : RuleSet} {origin : Origin}

theorem addsRule (set : RuleSet) (selector : String) (declarations : StyleMap) (origin : Origin) :
    AddsRule set selector declarations origin (set.addRule selector declarations origin) := by
  unfold addRule
  cases read : SelectorGroup.read selector with
  | error error =>
      cases error with
      | brokenCharacter => exact .broken read
      | unreadable => exact .unreadable read rfl
  | ok group =>
      dsimp only
      cases silent : declarations.isEmpty with
      | true => exact .silent read silent rfl
      | false =>
          let rule : Rule :=
            ⟨set.size, Text.trimmed selector, group, declarations, group.specificity, origin⟩
          exact .appended rule read silent rfl rfl rfl rfl

/-- A rule that does not break the call puts one rule at the end if it is usable, and else none. -/
theorem appends_addRule (set : RuleSet) (origin : Origin) (source : SourceRule)
    (whole : ¬source.Breaks) :
    ∃ next id added, set.addRule source.selector source.declarations origin = .ok (next, id) ∧
      Appends set next origin [source] added := by
  have call := addsRule set source.selector source.declarations origin
  generalize set.addRule source.selector source.declarations origin = result at call
  cases call with
  | broken read => exact absurd read whole
  | unreadable read kept =>
      refine ⟨_, _, [], rfl, by simp [kept], ?_, nofun, nofun⟩
      simp [SourceRule.isUsable, read, Except.toOption]
  | silent read silent kept =>
      refine ⟨_, _, [], rfl, by simp [kept], ?_, nofun, nofun⟩
      simp [SourceRule.isUsable, silent]
  | appended rule read declares rules number made own =>
      have text : rule.selectorText = Text.trimmed source.selector :=
        congrArg SourceRule.selector made
      refine ⟨_, _, [rule], rfl, by simp [rules], ?_, List.forall_mem_singleton.2 own,
        List.forall_mem_singleton.2 ?_⟩
      · simp [SourceRule.isUsable, read, declares, made, Except.toOption, SourceRule.trimmed]
      · rw [text, SelectorGroup.read_trimmed, read]

theorem Appends.trans {middle next : RuleSet} {sources more : List SourceRule}
    {added later : List Rule} (first : Appends set middle origin sources added)
    (second : Appends middle next origin more later) :
    Appends set next origin (sources ++ more) (added ++ later) where
  rules := by rw [second.rules, first.rules, List.append_assoc]
  sources := by
    rw [List.map_append, first.sources, second.sources, List.filter_append, List.map_append]
  origin := List.forall_mem_append.2 ⟨first.origin, second.origin⟩
  reads := List.forall_mem_append.2 ⟨first.reads, second.reads⟩

/-- A usable rule of the list is one of the new ones, among no more others than in the list. -/
theorem Appends.exists_rule {next : RuleSet} {before after : List SourceRule} {source : SourceRule}
    {added : List Rule} (appends : Appends set next origin (before ++ source :: after) added)
    (usable : source.isUsable) :
    ∃ first rule last, added = first ++ rule :: last ∧ rule.source = source.trimmed ∧
      first.length ≤ before.length ∧ last.length ≤ after.length := by
  have sources := appends.sources
  rw [List.filter_append, List.filter_cons_of_pos usable, List.map_append, List.map_cons,
    List.map_eq_append_iff] at sources
  obtain ⟨first, others, rfl, front, behind⟩ := sources
  obtain ⟨rule, last, rfl, own, behind⟩ := List.map_eq_cons_iff.1 behind
  have bound {rules : List Rule} {given : List SourceRule}
      (same : rules.map Rule.source = (given.filter SourceRule.isUsable).map SourceRule.trimmed) :
      rules.length ≤ given.length := by
    have length := congrArg List.length same
    rw [List.length_map, List.length_map] at length
    exact length ▸ List.length_filter_le _ _
  exact ⟨first, rule, last, rfl, own, bound front, bound behind⟩

theorem appends_addSources (set : RuleSet) (origin : Origin) {sources : List SourceRule}
    (whole : ∀ source ∈ sources, ¬source.Breaks) :
    ∃ next added, set.addSources origin sources = .ok next ∧
      Appends set next origin sources added := by
  induction sources generalizing set with
  | nil => exact ⟨set, [], rfl, by simp, rfl, nofun, nofun⟩
  | cons source rest ih =>
      obtain ⟨own, whole⟩ := List.forall_mem_cons.1 whole
      obtain ⟨middle, id, added, call, first⟩ := appends_addRule set origin source own
      obtain ⟨next, later, calls, second⟩ := ih middle whole
      refine ⟨next, added ++ later, ?_, first.trans second⟩
      rw [addSources, call]
      exact calls

theorem addSources_of_breaks (set : RuleSet) (origin : Origin) {sources : List SourceRule}
    (breaks : ∃ source ∈ sources, source.Breaks) :
    set.addSources origin sources = .error .brokenCharacter := by
  induction sources generalizing set with
  | nil => simp at breaks
  | cons source rest ih =>
      rw [addSources]
      by_cases own : source.Breaks
      · rw [addRule, own]
        rfl
      · obtain ⟨middle, id, _, call, -⟩ := appends_addRule set origin source own
        rw [call]
        refine ih middle ?_
        obtain ⟨other, member, broken⟩ := breaks
        rcases List.mem_cons.1 member with rfl | member
        · exact absurd broken own
        · exact ⟨other, member, broken⟩

theorem appends_addSheet (set : RuleSet) (origin : Origin) {css : String} {sheet : Stylesheet}
    (read : Stylesheet.read css = .ok sheet) (whole : ∀ source ∈ sheet.rules, ¬source.Breaks) :
    ∃ next added, set.addSheet css origin = .ok next ∧
      Appends set next origin sheet.rules added := by
  obtain ⟨next, added, calls, appends⟩ := appends_addSources (set.noteSheet sheet) origin whole
  refine ⟨next, added, ?_, appends.1, appends.2, appends.3, appends.4⟩
  simp only [addSheet, read, Except.mapError, bind, Except.bind, calls]

/-- A call that returns has read the sheet, and put its usable rules at the end. -/
theorem exists_of_addSheet {next : RuleSet} {css : String}
    (call : set.addSheet css origin = .ok next) :
    ∃ sheet added, Stylesheet.read css = .ok sheet ∧ Appends set next origin sheet.rules added := by
  obtain ⟨sheet, read, calls⟩ := bind_eq_ok.1 call
  rw [mapError_eq_ok] at read
  by_cases breaks : ∃ source ∈ sheet.rules, source.Breaks
  · rw [addSources_of_breaks _ origin breaks] at calls
    cases calls
  · obtain ⟨_, added, own, appends⟩ := appends_addSheet set origin read (by simpa using breaks)
    cases call.symm.trans own
    exact ⟨sheet, added, read, appends⟩

theorem addsSheet (set : RuleSet) (css : String) (origin : Origin) :
    AddsSheet set css origin (set.appendSheet css origin) := by
  cases read : Stylesheet.read css with
  | error error =>
      rw [appendSheet, addSheet, read]
      exact .unread read
  | ok sheet =>
      by_cases breaks : ∃ source ∈ sheet.rules, source.Breaks
      · have failed := addSources_of_breaks (set.noteSheet sheet) origin breaks
        simp only [appendSheet, addSheet, read, Except.mapError, bind, Except.bind, failed]
        exact .broken read breaks
      · have whole : ∀ source ∈ sheet.rules, ¬source.Breaks := by simpa using breaks
        obtain ⟨next, added, call, appends⟩ := appends_addSheet set origin read whole
        have count : next.size - set.size = added.length := by
          have sizes := congrArg List.length appends.rules
          rw [List.length_append, Array.length_toList, Array.length_toList] at sizes
          exact Nat.sub_eq_of_eq_add' sizes
        simp only [appendSheet, call, bind, Except.bind, pure, Except.pure, count]
        exact .appended read whole appends

end Calls

/-- After any additions the rule at each place has it as its number, declares something, and is what
its selector text is read as; a further rule or sheet only puts rules at the end, those of a sheet in
its order and as many as it counts, and fails only where a text cannot be read. -/
theorem wellFormed_ofAdditions (additions : List Addition) :
    let set := ofAdditions additions
    set.WellFormed ∧
      (∀ selector declarations origin,
        AddsRule set selector declarations origin (set.addRule selector declarations origin)) ∧
      ∀ css origin, AddsSheet set css origin (set.appendSheet css origin) :=
  ⟨(consistent_ofAdditions additions).wellFormed, addsRule _, addsSheet _⟩

end RuleSet

end ComputedStyle
