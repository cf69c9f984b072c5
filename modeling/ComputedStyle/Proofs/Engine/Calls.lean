import ComputedStyle.Engine
import ComputedStyle.Proofs.Parallel.Apply
import ComputedStyle.Proofs.RuleSet.Fingerprint

/-!
Calls of an engine one after another.

What a call gives is decided by the settings and by the call itself (`Call.answer`): an index that the
engine has kept is the one it would build. This needs that two rule sets with one fingerprint have one
index, so the digest must not collide and no selector text may hold a null character.
-/

namespace ComputedStyle

inductive Call where
  | html (text extra : String)
  | tree (doc : Document) (sheets : List String)
  | rules (doc : Document) (additions : List Addition)

/-- What happens during a call: to the chunks of its cascade, and how long things take. -/
structure Circumstances where
  schedule : Parallel.Schedule
  phaseTime : String → Number.Double
  nodeTime : NodeId → Number.Double

def Circumstances.conditions (here : Circumstances) : Conditions :=
  ⟨fun chunks => here.schedule.dispatch chunks, here.phaseTime, here.nodeTime⟩

/-- What a pass gives apart from how it was carried out. -/
structure StyleResult where
  styled : StyledDocument
  rules : Nat
  nodes : Nat
  elements : Nat
  skipped : Nat
  unparsed : Nat

def StylePass.result (pass : StylePass) : StyleResult :=
  { styled := pass.styled
    rules := pass.report.rules
    nodes := pass.report.nodes
    elements := pass.report.elements
    skipped := pass.report.skipped
    unparsed := pass.report.unparsed }

namespace Config

/-- A tree styled by a rule set, with an index built for it alone. -/
def styled (config : Config) (doc : Document) (set : RuleSet) : Except StyleError StyledDocument :=
  (config.style doc (.whole (Cascade.matchNodes set (.build set) doc doc.preorder))).mapError
    fun fault => .color fault.error

def result (config : Config) (doc : Document) (set : RuleSet) : Except StyleError StyleResult :=
  let stats := (Cascade.matchNodes set (.build set) doc doc.preorder).stats
  (config.styled doc set).map fun styled =>
    ⟨styled, set.size, stats.nodes, stats.elements, set.skipped.length, set.unparsed⟩

end Config

namespace Call

def input (config : Config) : Call → Except StyleError (Document × RuleSet)
  | html text extra =>
      match Html.Page.read text with
      | .error error => .error (.document error)
      | .ok page => (config.compile (page.sheets ++ [extra])).map (page.document, ·)
  | tree doc sheets => (config.compile sheets).map (doc, ·)
  | rules doc additions => .ok (doc, .ofAdditions additions)

theorem input_html {config : Config} {text : String} {page : Html.Page}
    (read : Html.Page.read text = .ok page) (extra : String) :
    (html text extra).input config =
      (tree page.document (page.sheets ++ [extra])).input config := by
  rw [input, read, input]

def answer (config : Config) (call : Call) : Except StyleError StyledDocument :=
  (call.input config).bind fun (doc, set) => config.styled doc set

def result (config : Config) (call : Call) : Except StyleError StyleResult :=
  (call.input config).bind fun (doc, set) => config.result doc set

theorem map_styled_result (config : Config) (call : Call) :
    (call.result config).map StyleResult.styled = call.answer config := by
  rw [result, answer]
  cases call.input config with
  | error error => rfl
  | ok pair =>
      change ((config.styled pair.1 pair.2).map _).map _ = config.styled pair.1 pair.2
      cases config.styled pair.1 pair.2 <;> rfl

def ruleSet? (config : Config) (call : Call) : Option RuleSet :=
  (call.input config).toOption.map Prod.snd

end Call

namespace Engine

def call (engine : Engine) (here : Circumstances) : Call → Engine × Except StyleError StylePass
  | .html text extra => engine.styleHtml here.conditions text extra
  | .tree doc sheets => engine.styleTree here.conditions doc sheets
  | .rules doc additions => engine.styleWithRules here.conditions doc (.ofAdditions additions)

def after (engine : Engine) (calls : List (Circumstances × Call)) : Engine :=
  calls.foldl (fun engine entry => (engine.call entry.1 entry.2).1) engine

/-- An engine has these settings and keeps only indexes of these rule sets. -/
structure Keeps (engine : Engine) (config : Config) (sets : List RuleSet) : Prop where
  config : engine.config = config
  indexes : ∀ entry ∈ engine.indexes, ∃ set ∈ sets, entry = (set.fingerprint, .build set)

/-- Rule sets with one fingerprint have one index. -/
def Unambiguous (sets : List RuleSet) : Prop :=
  ∀ set ∈ sets, ∀ other ∈ sets, set.fingerprint = other.fingerprint →
    RuleIndex.build set = RuleIndex.build other

variable {engine : Engine} {config : Config} {sets : List RuleSet}

theorem keeps_new {fault? : String → Option String} (made : Engine.new config fault? = .ok engine) :
    engine.Keeps config sets := by
  unfold Engine.new at made
  split at made
  · cases made
  · split at made
    · cases made
    · cases made
      exact ⟨rfl, List.forall_mem_nil _⟩

theorem Keeps.log (keeps : engine.Keeps config sets) (events : List TraceEvent) :
    (engine.log events).Keeps config sets := by
  unfold Engine.log
  split
  · exact ⟨keeps.config, keeps.indexes⟩
  · exact keeps

theorem Keeps.measure (keeps : engine.Keeps config sets) (metrics : Metrics Number.Double) :
    (engine.measure metrics).Keeps config sets := by
  unfold Engine.measure
  split
  · exact ⟨keeps.config, keeps.indexes⟩
  · exact keeps

section Pass

variable {set : RuleSet} (keeps : engine.Keeps config sets) (clear : Unambiguous sets)
  (member : set ∈ sets)

include keeps clear member

theorem indexFor_spec :
    (engine.indexFor set).1.Keeps config sets ∧
      (engine.indexFor set).2.1 = RuleIndex.build set := by
  unfold indexFor
  dsimp only
  split
  · next index found =>
      obtain ⟨before, after, split, _⟩ := List.lookup_eq_some_iff.1 found
      obtain ⟨other, known, same⟩ := keeps.indexes (set.fingerprint, index) (by simp [split])
      obtain ⟨fingerprint, rfl⟩ := Prod.mk.inj same
      exact ⟨keeps, clear other known set member fingerprint.symm⟩
  · exact ⟨⟨keeps.config, List.forall_mem_cons.2 ⟨⟨set, member, rfl⟩, keeps.indexes⟩⟩, rfl⟩

omit keeps clear member in
theorem batch_cascade (config : Config) (here : Circumstances) (set : RuleSet) (index : RuleIndex)
    (doc : Document) :
    (config.cascade here.conditions.dispatch set index doc).batch =
      Cascade.matchNodes set index doc doc.preorder := by
  unfold Config.cascade
  split
  · exact Parallel.batch_run config.workers (Parallel.possible_dispatch _ here.schedule)
  · rfl

/-- A pass gives what its tree and its rule set come to, whatever the engine has kept. -/
theorem run_spec (here : Circumstances) (before : List String) (doc : Document) :
    (engine.run here.conditions before doc set).1.Keeps config sets ∧
      (engine.run here.conditions before doc set).2.map StylePass.result =
        config.result doc set := by
  obtain ⟨kept, index⟩ := indexFor_spec keeps clear member
  have batch : (config.cascade here.conditions.dispatch set (engine.indexFor set).2.1 doc).batch =
      Cascade.matchNodes set (.build set) doc doc.preorder := by
    rw [batch_cascade, index]
  have style : config.style doc (config.cascade here.conditions.dispatch set
      (engine.indexFor set).2.1 doc) =
      config.style doc (.whole (Cascade.matchNodes set (.build set) doc doc.preorder)) := by
    rw [Config.style, batch]
    rfl
  unfold run
  dsimp only
  rw [kept.config, Config.result, Config.styled, ← style]
  have traced := kept.log (CascadeRun.events doc
    (config.cascade here.conditions.dispatch set (engine.indexFor set).2.1 doc))
  rw [traced.config]
  split
  · next fault failed =>
      rw [failed]
      exact ⟨traced.measure _, rfl⟩
  · next styled done =>
      rw [done, ← batch]
      exact ⟨(traced.log _).measure _, rfl⟩

end Pass

variable (keeps : engine.Keeps config sets) (clear : Unambiguous sets) (here : Circumstances)

include keeps clear

theorem styleTree_spec (doc : Document) (sheets : List String)
    (known : ∀ set, (Call.tree doc sheets).ruleSet? config = some set → set ∈ sets) :
    (engine.styleTree here.conditions doc sheets).1.Keeps config sets ∧
      (engine.styleTree here.conditions doc sheets).2.map StylePass.result =
        (Call.tree doc sheets).result config := by
  have logged := keeps.log (engine.config.compileEvents sheets)
  unfold styleTree compile
  rw [keeps.config] at logged ⊢
  rw [Call.ruleSet?, Call.input] at known
  rw [Call.result, Call.input]
  cases compiled : config.compile sheets with
  | error error => exact ⟨logged.measure _, rfl⟩
  | ok set =>
      rw [compiled] at known
      exact run_spec logged clear (known set rfl) here ["parse"] doc

theorem call_result (call : Call) (known : ∀ set, call.ruleSet? config = some set → set ∈ sets) :
    (engine.call here call).1.Keeps config sets ∧
      (engine.call here call).2.map StylePass.result = call.result config := by
  cases call with
  | html text extra =>
      rw [Engine.call, styleHtml]
      cases read : Html.Page.read text with
      | error error =>
          rw [Call.result, Call.input, read]
          exact ⟨keeps.measure _, rfl⟩
      | ok page =>
          have input : (Call.html text extra).input config =
              (Call.tree page.document (page.sheets ++ [extra])).input config :=
            Call.input_html read extra
          rw [Call.ruleSet?, input] at known
          rw [Call.result, input]
          exact styleTree_spec keeps clear here page.document (page.sheets ++ [extra]) known
  | tree doc sheets => exact styleTree_spec keeps clear here doc sheets known
  | rules doc additions => exact run_spec keeps clear (known _ rfl) here [] doc

theorem call_spec (call : Call) (known : ∀ set, call.ruleSet? config = some set → set ∈ sets) :
    (engine.call here call).1.Keeps config sets ∧
      (engine.call here call).2.map StylePass.styled = call.answer config := by
  obtain ⟨kept, result⟩ := call_result keeps clear here call known
  refine ⟨kept, ?_⟩
  rw [← Call.map_styled_result, ← result]
  cases (engine.call here call).2 <;> rfl

theorem after_spec (calls : List (Circumstances × Call))
    (known : ∀ entry ∈ calls, ∀ set, entry.2.ruleSet? config = some set → set ∈ sets) :
    (engine.after calls).Keeps config sets := by
  induction calls generalizing engine with
  | nil => exact keeps
  | cons entry rest ih =>
      obtain ⟨first, later⟩ := List.forall_mem_cons.1 known
      exact ih (call_spec keeps clear entry.1 entry.2 first).1 later

end Engine

namespace Call

theorem reaches_baseRules {config : Config} {set : RuleSet} (h : config.baseRules = .ok set) :
    RuleSet.empty.Reaches set := by
  unfold Config.baseRules at h
  split at h
  · exact RuleSet.reaches_addSheet h
  · cases h
    exact .refl

theorem consistent_compile {config : Config} {sheets : List String} {set : RuleSet}
    (h : config.compile sheets = .ok set) : set.Consistent := by
  rw [Config.compile, bind_eq_ok] at h
  obtain ⟨base, made, h⟩ := h
  exact RuleSet.consistent_empty.reaches
    ((reaches_baseRules made).trans (RuleSet.reaches_addSheets h))

theorem consistent_input {config : Config} {call : Call} {doc : Document} {set : RuleSet}
    (h : call.input config = .ok (doc, set)) : set.Consistent := by
  have compiled : ∀ sheets tree, (config.compile sheets).map (tree, ·) = .ok (doc, set) →
      set.Consistent := by
    intro sheets tree mapped
    cases found : config.compile sheets with
    | error error =>
        rw [found] at mapped
        cases mapped
    | ok other =>
        rw [found] at mapped
        cases mapped
        exact consistent_compile found
  cases call with
  | html text extra =>
      rw [input] at h
      split at h
      · cases h
      · exact compiled _ _ h
  | tree tree sheets => exact compiled sheets tree h
  | rules tree additions =>
      cases h
      exact RuleSet.consistent_ofAdditions additions

theorem consistent_ruleSet? {config : Config} {call : Call} {set : RuleSet}
    (h : call.ruleSet? config = some set) : set.Consistent := by
  rw [ruleSet?] at h
  cases given : call.input config with
  | error error =>
      rw [given] at h
      cases h
  | ok pair =>
      rw [given] at h
      cases h
      exact consistent_input given

end Call

namespace Engine

def ruleSetsOf (config : Config) (calls : List (Circumstances × Call)) : List RuleSet :=
  calls.filterMap fun entry => entry.2.ruleSet? config

theorem unambiguous_ruleSetsOf {config : Config} {calls : List (Circumstances × Call)}
    (collisionFree : ∀ set ∈ ruleSetsOf config calls, ∀ other ∈ ruleSetsOf config calls,
      Digest.sha256 set.bytes = Digest.sha256 other.bytes → set.bytes = other.bytes)
    (plain : ∀ set ∈ ruleSetsOf config calls, set.IsPlain) :
    Unambiguous (ruleSetsOf config calls) := by
  intro set member other member' same
  obtain ⟨_, _, found⟩ := List.mem_filterMap.1 member
  obtain ⟨_, _, found'⟩ := List.mem_filterMap.1 member'
  exact RuleSet.build_eq_of_bytes_eq (Call.consistent_ruleSet? found)
    (Call.consistent_ruleSet? found') (plain set member) (plain other member')
    (collisionFree set member other member' same)

/-- An engine gives what a fresh one with its settings gives, whatever it was asked before and
whatever happens meanwhile, as long as the digest does not collide on the rule sets and their
selectors hold no null character. -/
theorem call_after (config : Config) (fault? : String → Option String) (fresh : Engine)
    (made : Engine.new config fault? = .ok fresh) (calls : List (Circumstances × Call))
    (here alone : Circumstances) (call : Call)
    (collisionFree : ∀ set ∈ ruleSetsOf config (calls ++ [(here, call)]),
      ∀ other ∈ ruleSetsOf config (calls ++ [(here, call)]),
        Digest.sha256 set.bytes = Digest.sha256 other.bytes → set.bytes = other.bytes)
    (plain : ∀ set ∈ ruleSetsOf config (calls ++ [(here, call)]), set.IsPlain) :
    ((fresh.after calls).call here call).2.map StylePass.styled =
      (fresh.call alone call).2.map StylePass.styled := by
  have clear := unambiguous_ruleSetsOf collisionFree plain
  have known : ∀ entry ∈ calls ++ [(here, call)], ∀ set, entry.2.ruleSet? config = some set →
      set ∈ ruleSetsOf config (calls ++ [(here, call)]) :=
    fun entry member set found => List.mem_filterMap.2 ⟨entry, member, found⟩
  have start : fresh.Keeps config (ruleSetsOf config (calls ++ [(here, call)])) := keeps_new made
  have kept := after_spec start clear calls fun entry member =>
    known entry (List.mem_append_left _ member)
  have own := known (here, call) (List.mem_append_right _ List.mem_cons_self)
  rw [(call_spec kept clear here call own).2, (call_spec start clear alone call own).2]

theorem call_after_itself :
    let still : Circumstances := ⟨.pool [.timeout], fun _ => .ofNat 0, fun _ => .ofNat 0⟩
    let call : Call :=
      .rules (.ofEdits [.addElement none "p"]) [.rule "p" (.ofList [("color", "red")]) .author]
    let fresh : Engine := { config := {} }
    ((fresh.after [(still, call)]).call still call).2.map StylePass.styled =
      (fresh.call still call).2.map StylePass.styled := by
  intro still call fresh
  obtain ⟨set, made⟩ : ∃ set, set = RuleSet.ofAdditions
      [.rule "p" (.ofList [("color", "red")]) .author] := ⟨_, rfl⟩
  have texts : set.rules.toList.map Rule.selectorText = ["p"] := by
    rw [made]
    cbv
  have same : ∀ other ∈ ruleSetsOf {} ([(still, call)] ++ [(still, call)]), other = set := by
    intro other member
    have sets : ruleSetsOf {} ([(still, call)] ++ [(still, call)]) = [set, set] := by
      rw [made]
      rfl
    rw [sets, List.mem_pair] at member
    exact member.elim id id
  refine call_after {} (fun _ => none) fresh rfl [(still, call)] still still call ?_ ?_
  · intro first member second member' _
    rw [same first member, same second member']
  · intro other member rule found
    rw [same other member] at found
    have text : rule.selectorText ∈ set.rules.toList.map Rule.selectorText :=
      List.mem_map_of_mem found
    rw [texts, List.mem_singleton] at text
    rw [text]
    decide

end Engine

end ComputedStyle
