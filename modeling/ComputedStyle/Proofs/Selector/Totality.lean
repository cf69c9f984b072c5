import Mathlib.Data.String.Basic
import ComputedStyle.Proofs.Selector.Group
import ComputedStyle.Proofs.Selector.Reading
import ComputedStyle.RuleSet

/-!
Reading a selector gives a value.

Only one thing stops the reading of a whole group: the operator of an attribute selector is looked for
in the one byte before the equals sign, and that byte may lie inside a character. All other cuts are
made between characters, and no bracket is counted as closed that has not been opened.
-/

namespace ComputedStyle

open Text

namespace Selector

/-! What each reader takes is a part of its text. -/

theorem readIdent_suffix (s : List Char) : (readIdent s).2 <:+ s := by
  fun_induction readIdent s with
  | case1 c rest ident after same ih =>
      rw [same] at ih
      exact ih.trans ((List.suffix_cons c rest).trans (List.suffix_cons _ _))
  | case2 c rest _ _ ident after same ih =>
      rw [same] at ih
      exact ih.trans (List.suffix_cons c rest)
  | case3 => exact List.suffix_rfl
  | case4 => exact List.suffix_rfl

theorem readTag_suffix (s : List Char) : (readTag s).2 <:+ s := by
  cases s with
  | nil => exact List.suffix_rfl
  | cons c rest =>
      rw [readTag]
      split
      · exact List.suffix_cons c rest
      · split
        · exact readIdent_suffix (c :: rest)
        · exact List.suffix_rfl

theorem eq_of_readBalanced {opener closer : Char} {state : Nesting} {s inner after : List Char}
    (found : readBalanced opener closer state s = some (inner, after)) :
    s = inner ++ closer :: after := by
  induction s generalizing state inner with
  | nil => cases found
  | cons c rest ih =>
      rw [readBalanced] at found
      split at found
      · next ends =>
          cases found
          simp only [Bool.and_eq_true, beq_iff_eq] at ends
          rw [ends.1.2, List.nil_append]
      · obtain ⟨⟨inside, final⟩, later, same⟩ := Option.map_eq_some_iff.1 found
        cases same
        rw [ih later, List.cons_append]

theorem eq_of_readBracket {opener closer : Char} {s inner after : List Char}
    (found : readBracket opener closer s = some (inner, after)) :
    s = inner ++ closer :: after :=
  eq_of_readBalanced found

/-- What a pseudo-class or pseudo-element takes out of a text. -/
structure PseudoText.IsPartOf (p : PseudoText) (s : List Char) : Prop where
  after : p.after <:+ s
  arguments : ∀ arguments, p.arguments = some arguments → arguments <:+: s

theorem isPartOf_readPseudoName {doubled : Bool} {s : List Char} {p : PseudoText}
    (h : readPseudoName doubled s = .ok p) : p.IsPartOf s := by
  have name := readIdent_suffix s
  unfold readPseudoName at h
  split at h
  · cases h
  · split at h
    · next inside opens =>
        split at h
        · next arguments after found =>
            cases h
            rw [opens, eq_of_readBracket found] at name
            constructor
            · exact List.IsSuffix.trans ⟨'(' :: arguments ++ [')'], by simp⟩ name
            · rintro _ ⟨⟩
              exact List.IsInfix.trans ⟨['('], ')' :: after, by simp⟩ name.isInfix
        · cases h
    · cases h
      exact ⟨name, nofun⟩

theorem isPartOf_readPseudo {s : List Char} {p : PseudoText} (h : readPseudo s = .ok p) :
    p.IsPartOf s := by
  unfold readPseudo at h
  split at h
  · next rest =>
      have part := isPartOf_readPseudoName h
      have longer := List.suffix_cons ':' rest
      exact ⟨part.after.trans longer,
        fun arguments own => (part.arguments arguments own).trans longer.isInfix⟩
  · exact isPartOf_readPseudoName h

/-! Where an operator follows a part of a character. -/

/-- The text before the first equals sign of an attribute selector ends in a character of more than
one byte. -/
def IsBroken (inner : List Char) : Prop :=
  ∃ before after c, splitOnce '=' (trim inner) = some (before, after) ∧ before.getLast? = some c ∧
    0x80 ≤ c.toNat

/-- A bracket in the text, closed there, encloses a broken attribute selector. -/
def HoldsBroken (s : List Char) : Prop :=
  ∃ lead rest inner after, s = lead ++ '[' :: rest ∧
    readBracket '[' ']' rest = some (inner, after) ∧ IsBroken inner

instance : DecidablePred IsBroken := fun inner =>
  decidable_of_iff
    ((splitOnce '=' (trim inner)).any fun parts => parts.1.getLast?.any fun c => 0x80 ≤ c.toNat)
    (by simp [IsBroken, Option.any_eq_true])

instance : DecidablePred HoldsBroken := fun s =>
  decidable_of_iff
    (∃ tail ∈ s.tails, tail.head? = some '[' ∧
      (readBracket '[' ']' tail.tail).any fun parts => decide (IsBroken parts.1))
    (by
      simp only [Option.any_eq_true, Prod.exists, decide_eq_true_eq, List.mem_tails]
      constructor
      · rintro ⟨_ | ⟨c, rest⟩, ⟨lead, parts⟩, opens, inner, after, found, broken⟩
        · cases opens
        · cases opens
          exact ⟨lead, rest, inner, after, parts.symm, found, broken⟩
      · rintro ⟨lead, rest, inner, after, parts, found, broken⟩
        exact ⟨'[' :: rest, ⟨lead, parts.symm⟩, rfl, inner, after, found, broken⟩)

theorem HoldsBroken.of_part {s t : List Char} (broken : HoldsBroken s) (part : s <:+: t) :
    HoldsBroken t := by
  obtain ⟨lead, rest, inner, after, rfl, found, own⟩ := broken
  obtain ⟨before, behind, rfl⟩ := part
  refine ⟨before ++ lead, rest ++ behind, inner, after ++ behind, by simp, ?_, own⟩
  exact readBalanced_append found behind

theorem readable_ne_brokenCharacter (value : Option α) :
    readable value ≠ .error .brokenCharacter := by
  cases value <;> nofun

/-- One byte before the end of a character there is a place for a cut only if it has no more. -/
theorem isValid_iff_of_ends {lead rest : List Char} {c : Char} :
    String.Pos.Raw.IsValid (String.ofList (lead ++ c :: rest))
        ⟨(String.ofList (lead ++ [c])).utf8ByteSize - 1⟩ ↔ c.toNat < 0x80 := by
  have small : c.utf8Size = 1 ↔ c.toNat < 0x80 := by
    rw [Char.utf8Size_eq_one_iff, Char.toNat, UInt32.le_iff_toNat_le]
    exact Nat.lt_succ_iff.symm
  have positive := c.utf8Size_pos
  rw [← small, String.Pos.Raw.isValid_iff_exists_append]
  constructor
  · rintro ⟨before, behind, parts, cut⟩
    have cut : (String.ofList (lead ++ [c])).utf8ByteSize - 1 = before.utf8ByteSize :=
      congrArg String.Pos.Raw.byteIdx cut
    have lists : lead ++ c :: rest = before.toList ++ behind.toList := by
      simpa using congrArg String.toList parts
    rw [← before.ofList_toList, String.utf8ByteSize_ofList, String.utf8ByteSize_ofList] at cut
    rcases List.append_eq_append_iff.1 lists with ⟨more, same, tail⟩ | ⟨more, same, _⟩
    · rw [same] at cut
      cases more with
      | nil =>
          simp only [String.utf8Len_append, String.utf8Len_cons, String.utf8Len_nil] at cut
          omega
      | cons d more =>
          obtain ⟨rfl, _⟩ := List.cons.inj tail
          simp only [String.utf8Len_append, String.utf8Len_cons, String.utf8Len_nil] at cut
          omega
    · rw [same] at cut
      simp only [String.utf8Len_append, String.utf8Len_cons, String.utf8Len_nil] at cut
      omega
  · intro one
    refine ⟨String.ofList lead, String.ofList (c :: rest), String.ofList_append .., ?_⟩
    rw [String.ofList_append, String.utf8ByteSize_append]
    simp [one, String.rawEndPos]

theorem isBroken_iff_not_isValid {inner before after : List Char}
    (found : splitOnce '=' (trim inner) = some (before, after)) (filled : before ≠ []) :
    IsBroken inner ↔ ¬String.Pos.Raw.IsValid (String.ofList (trim inner))
      ⟨(String.ofList before).utf8ByteSize - 1⟩ := by
  obtain ⟨lead, c, rfl⟩ := (List.eq_nil_or_concat before).resolve_left filled
  rw [List.concat_eq_append] at found ⊢
  rw [eq_of_splitOnce found, List.append_assoc, List.singleton_append, isValid_iff_of_ends,
    Nat.not_lt, IsBroken, found]
  constructor
  · rintro ⟨_, _, last, ⟨⟩, ends, wide⟩
    rw [List.getLast?_concat] at ends
    cases ends
    exact wide
  · exact fun wide => ⟨_, after, c, rfl, List.getLast?_concat, wide⟩

theorem isBroken_of_readAttribute {inner : List Char}
    (h : readAttribute inner = .error .brokenCharacter) : IsBroken inner := by
  unfold readAttribute at h
  dsimp only at h
  split at h
  · rw [bind_eq_error] at h
    rcases h with h | ⟨name, _, h⟩
    · exact absurd h (readable_ne_brokenCharacter _)
    · cases h
  · next before after split_ =>
      rw [bind_eq_error] at h
      rcases h with h | ⟨⟨name, operator⟩, _, h⟩
      · unfold splitOperator at h
        split at h
        · cases h
        · next c last =>
            split at h
            · next wide => exact ⟨before, after, c, split_, last, wide⟩
            · split at h <;> cases h
      · simp only [bind_eq_error] at h
        rcases h with h | ⟨_, _, h | ⟨_, _, h | ⟨_, _, h⟩⟩⟩
        · exact absurd h (readable_ne_brokenCharacter _)
        · exact absurd h (readable_ne_brokenCharacter _)
        · exact absurd h (readable_ne_brokenCharacter _)
        · cases h

theorem infix_of_trim (s : List Char) : trim s <:+: s := by
  induction s using trim_induction with
  | core => rw [trim_trim]
  | left b t blank ih =>
      rw [trim_cons_of_isBlank blank]
      exact ih.trans (List.suffix_cons b t).isInfix
  | right b t blank ih =>
      rw [trim_concat_of_isBlank blank]
      exact ih.trans (List.prefix_append t [b]).isInfix

/-- A compound is broken only where what follows its tag is. -/
theorem holdsBroken_of_tail {s : List Char}
    (tail : readSimples { Compound.empty with tag := (readTag (trim s)).1 } (readTag (trim s)).2 =
      .error .brokenCharacter → HoldsBroken (readTag (trim s)).2)
    (h : readCompound s = .error .brokenCharacter) : HoldsBroken s := by
  rw [readCompound, bind_eq_error] at h
  rcases h with h | ⟨compound, _, h⟩
  · exact (tail h).of_part ((readTag_suffix (trim s)).isInfix.trans (infix_of_trim s))
  · split at h <;> cases h

theorem requireIdent_ne_brokenCharacter (ident : List Char) :
    requireIdent ident ≠ .error .brokenCharacter := by
  unfold requireIdent
  split <;> nofun

theorem functionalPseudoClass_ne_brokenCharacter (name : String) (arguments : List Char) :
    functionalPseudoClass name arguments ≠ .error .brokenCharacter := by
  have positions := readable_ne_brokenCharacter (readProgression? arguments)
  unfold functionalPseudoClass
  dsimp only
  split
  · exact map_eq_error.not.2 positions
  · exact map_eq_error.not.2 positions
  · exact map_eq_error.not.2 positions
  · intro h
    cases h

theorem readPseudo_ne_brokenCharacter (s : List Char) :
    readPseudo s ≠ .error .brokenCharacter := by
  have name : ∀ doubled s, readPseudoName doubled s ≠ .error .brokenCharacter := by
    intro doubled s
    unfold readPseudoName
    split
    · nofun
    · split
      · split <;> nofun
      · nofun
  unfold readPseudo
  split
  · exact name true _
  · exact name false s

theorem suffix_of_readSimple {s after : List Char} {simple : Simple}
    (read : readSimple s = .ok (simple, after)) : after <:+ s := by
  cases readsSimple_of_readSimple read with
  | id rest value ident => exact (readIdent_suffix rest).trans (List.suffix_cons _ rest)
  | className rest name ident => exact (readIdent_suffix rest).trans (List.suffix_cons _ rest)
  | hasAttribute rest inner after test bracket own =>
      exact ⟨'[' :: inner ++ [']'], by simp [eq_of_readBracket bracket]⟩
  | pseudoElement rest p found element =>
      exact (isPartOf_readPseudo found).after.trans (List.suffix_cons _ rest)
  | pseudoClass rest p pseudo found plain meaning =>
      exact (isPartOf_readPseudo found).after.trans (List.suffix_cons _ rest)

/-- Of the pseudo-classes only a negation can be broken, in the compound that it negates. -/
theorem readCompound_of_meaning {p : PseudoText} (h : p.meaning = .error .brokenCharacter) :
    ∃ arguments, p.arguments = some arguments ∧
      readCompound arguments = .error .brokenCharacter := by
  unfold PseudoText.meaning at h
  split at h
  · cases h
  · next arguments own =>
      split at h
      · exact ⟨arguments, own, map_eq_error.1 h⟩
      · exact absurd h (functionalPseudoClass_ne_brokenCharacter _ _)

theorem holdsBroken_of_bracket {rest inner after : List Char}
    (bracket : readBracket '[' ']' rest = some (inner, after))
    (h : readAttribute inner = .error .brokenCharacter) : HoldsBroken ('[' :: rest) :=
  ⟨[], rest, inner, after, rfl, bracket, isBroken_of_readAttribute h⟩

/-- A simple selector is broken where it is an attribute selector, or in the compound it negates. -/
theorem holdsBroken_of_readSimple {s : List Char}
    (nested : ∀ t, t.length < s.length → readCompound t = .error .brokenCharacter → HoldsBroken t)
    (h : readSimple s = .error .brokenCharacter) : HoldsBroken s := by
  unfold readSimple at h
  split at h
  · rcases bind_eq_error.1 h with h | ⟨id, _, h⟩
    · exact absurd h (requireIdent_ne_brokenCharacter _)
    · cases h
  · rcases bind_eq_error.1 h with h | ⟨name, _, h⟩
    · exact absurd h (requireIdent_ne_brokenCharacter _)
    · cases h
  · split at h
    · cases h
    · next inner after bracket =>
        rcases bind_eq_error.1 h with h | ⟨test, _, h⟩
        · exact holdsBroken_of_bracket bracket h
        · cases h
  · next rest =>
      rcases bind_eq_error.1 h with h | ⟨p, found, h⟩
      · exact absurd h (readPseudo_ne_brokenCharacter rest)
      · split at h
        · cases h
        · rcases bind_eq_error.1 h with h | ⟨pseudo, _, h⟩
          · obtain ⟨arguments, own, failed⟩ := readCompound_of_meaning h
            have part := (isPartOf_readPseudo found).arguments arguments own
            have shorter := Nat.lt_succ_of_le part.length_le
            exact (nested arguments shorter failed).of_part
              (part.trans (List.suffix_cons ':' rest).isInfix)
          · cases h
  · cases h

theorem holdsBroken_of_readSimples {compound : Compound} {s : List Char}
    (h : readSimples compound s = .error .brokenCharacter) : HoldsBroken s := by
  induction length : s.length using Nat.strongRecOn generalizing compound s with
  | ind n ih =>
      subst length
      rcases eq_or_ne s [] with rfl | nonempty
      · rw [readSimples_nil] at h
        cases h
      · rw [readSimples_eq compound nonempty] at h
        split at h
        · cases h
        · rcases bind_eq_error.1 h with h | ⟨⟨simple, after⟩, read, h⟩
          · refine holdsBroken_of_readSimple (fun t shorter => holdsBroken_of_tail fun tail => ?_) h
            have bound := (length_readTag_le (trim t)).trans (length_trim_le t)
            exact ih _ (bound.trans_lt shorter) tail rfl
          · exact (ih after.length (length_of_readSimple read) h rfl).of_part
              (suffix_of_readSimple read).isInfix

theorem holdsBroken_of_readCompound {s : List Char}
    (h : readCompound s = .error .brokenCharacter) : HoldsBroken s :=
  holdsBroken_of_tail holdsBroken_of_readSimples h

theorem HoldsBroken.of_blank {b : Char} {s : List Char} (broken : HoldsBroken (b :: s))
    (blank : isBlank b) : HoldsBroken s := by
  obtain ⟨lead, rest, inner, after, parts, found, own⟩ := broken
  cases lead with
  | nil =>
      cases parts
      cases blank
  | cons c lead =>
      cases parts
      exact ⟨lead, rest, inner, after, rfl, found, own⟩

theorem HoldsBroken.of_blanks {s : List Char} (empty : trim s = []) :
    ∀ t, HoldsBroken (s ++ t) → HoldsBroken t := by
  induction s using trim_induction with
  | core =>
      rw [trim_trim] at empty
      rw [empty]
      exact fun t broken => broken
  | left b s blank ih =>
      rw [trim_cons_of_isBlank blank] at empty
      exact fun t broken => ih empty t (broken.of_blank blank)
  | right b s blank ih =>
      rw [trim_concat_of_isBlank blank] at empty
      intro t broken
      rw [List.append_assoc] at broken
      exact (ih empty _ broken).of_blank blank

/-- What is broken in the buffer and what will follow it is broken in the whole text: blanks that were
passed over stand in no bracket. -/
def Scan.KeepsBroken (scan : Scan) (lead : List Char) : Prop :=
  ∀ t, HoldsBroken (scan.buffer.reverse ++ t) → HoldsBroken (lead ++ t)

theorem Scan.join_ne_brokenCharacter (scan : Scan) (compound : Compound) :
    scan.join compound ≠ .error .brokenCharacter := by
  unfold Scan.join
  split <;> nofun

theorem Scan.holdsBroken_of_flush {scan : Scan}
    (h : scan.flush = .error .brokenCharacter) : HoldsBroken scan.buffer.reverse := by
  unfold Scan.flush at h
  dsimp only at h
  split at h
  · cases h
  · rw [bind_eq_error] at h
    rcases h with h | ⟨compound, _, h⟩
    · exact (holdsBroken_of_readCompound h).of_part (infix_of_trim _)
    · exact absurd h (join_ne_brokenCharacter _ _)

theorem Scan.keepsBroken_step {scan next : Scan} {c : Char} {lead : List Char}
    (keeps : scan.KeepsBroken lead) (h : scan.step c = .ok next) :
    next.KeepsBroken (lead ++ [c]) := by
  have dropped : ∀ t, HoldsBroken t → HoldsBroken (lead ++ [c] ++ t) :=
    fun t broken => broken.of_part (List.suffix_append _ t).isInfix
  obtain rfl | ⟨combinator, flushed, _, flush, rfl⟩ | ⟨_, empty, rfl⟩ | ⟨_, flushed, flush, rfl⟩ :=
    step_cases h
  · intro t broken
    rw [List.append_assoc]
    apply keeps
    rwa [List.reverse_cons, List.append_assoc] at broken
  · intro t broken
    rw [buffer_flush flush] at broken
    exact dropped t broken
  · intro t broken
    exact dropped t (.of_blanks (List.isEmpty_iff.1 empty) t broken)
  · intro t broken
    rw [buffer_flush flush] at broken
    exact dropped t broken

theorem Scan.holdsBroken_of_step {scan : Scan} {c : Char}
    (h : scan.step c = .error .brokenCharacter) : HoldsBroken scan.buffer.reverse := by
  unfold Scan.step at h
  split at h
  · cases h
  · split at h
    · rw [bind_eq_error] at h
      rcases h with h | ⟨flushed, _, h⟩
      · exact holdsBroken_of_flush h
      · split at h <;> cases h
    · split at h
      · split at h
        · cases h
        · rw [bind_eq_error] at h
          rcases h with h | ⟨flushed, _, h⟩
          · exact holdsBroken_of_flush h
          · cases h
      · cases h

theorem Scan.holdsBroken_of_finish {scan : Scan}
    (h : scan.finish = .error .brokenCharacter) : HoldsBroken scan.buffer.reverse := by
  unfold Scan.finish at h
  split at h
  · cases h
  · rw [bind_eq_error] at h
    rcases h with h | ⟨flushed, _, h⟩
    · exact holdsBroken_of_flush h
    · split at h
      · cases h
      · exact absurd h (readable_ne_brokenCharacter _)

/-- After every run the buffer is a part of the text up to there, apart from blanks. -/
theorem Scan.keepsBroken_run {lead : List Char} {scan : Scan}
    (run : lead.foldlM Scan.step {} = .ok scan) : scan.KeepsBroken lead := by
  let motive (scan : Scan) (rest : List Char) : Prop :=
    ∃ passed, passed ++ rest = lead ∧ scan.KeepsBroken passed
  have starts : motive {} lead := ⟨[], rfl, fun _ broken => broken⟩
  have ends : motive scan [] := by
    refine foldlM_ok_rest ?_ lead starts run
    rintro scan c rest next ⟨passed, whole, keeps⟩ stepped
    exact ⟨passed ++ [c], by rw [List.append_assoc]; exact whole, keepsBroken_step keeps stepped⟩
  obtain ⟨passed, rfl, keeps⟩ := ends
  rwa [List.append_nil]

theorem holdsBroken_of_readComplex {s : List Char}
    (h : readComplex s = .error .brokenCharacter) : HoldsBroken s := by
  rw [readComplex, bind_eq_error] at h
  refine HoldsBroken.of_part ?_ (infix_of_trim s)
  rcases h with h | ⟨scan, run, h⟩
  · obtain ⟨lead, c, rest, scan, parts, run, failed⟩ := foldlM_eq_error h
    rw [parts]
    apply Scan.keepsBroken_run run
    exact (Scan.holdsBroken_of_step failed).of_part (List.prefix_append _ _).isInfix
  · have broken := Scan.keepsBroken_run run []
    rw [List.append_nil, List.append_nil] at broken
    exact broken (Scan.holdsBroken_of_finish h)

/-- As long as a bracket is open, its counter is positive. -/
theorem one_le_depth_of_readBalanced {opener closer : Char} {state : Nesting} {s : List Char}
    (start : 1 ≤ state.depth) (unclosed : readBalanced opener closer state s = none) :
    1 ≤ (s.foldl (Nesting.step ⟨[opener], [closer]⟩) state).depth := by
  induction s generalizing state with
  | nil => exact start
  | cons c rest ih =>
      rw [readBalanced] at unclosed
      split at unclosed
      · cases unclosed
      · next keeps =>
          refine ih ?_ (Option.map_eq_none_iff.1 unclosed)
          unfold Nesting.step
          split
          · split <;> exact start
          · next quote =>
              split
              · exact start
              · split
                · exact Nat.le_succ_of_le start
                · split
                  · next closes =>
                      have deeper : state.depth ≠ 1 := by
                        simpa [quote, List.mem_singleton.1 closes] using keeps
                      exact Nat.le_sub_one_of_lt (Nat.lt_of_le_of_ne start deeper.symm)
                  · exact start

end Selector

open Selector

/-- Whatever is done with a selector text gives a value, and all its cuts are between characters. -/
structure SelectorGroup.Returns (text : String) : Prop where
  group : (∃ group, SelectorGroup.read text = .ok group) ∨
    SelectorGroup.read text = .error .unreadable
  specificity : ∃ specificity, specificityOf text = .ok specificity
  rule : ∀ (set : RuleSet) declarations origin,
    ∃ result, set.addRule text declarations origin = .ok result
  pieces : ∀ delimiter,
    [delimiter].intercalate (splitTopLevel delimiter text.toList) = text.toList
  operator : ∀ lead rest inner after before value, text.toList = lead ++ '[' :: rest →
    readBracket '[' ']' rest = some (inner, after) →
    splitOnce '=' (trim inner) = some (before, value) → before ≠ [] →
    String.Pos.Raw.IsValid (String.ofList (trim inner)) ⟨(String.ofList before).utf8ByteSize - 1⟩
  bracket : ∀ opener closer inside, readBracket opener closer inside = none →
    1 ≤ (inside.foldl (Nesting.step ⟨[opener], [closer]⟩) ⟨none, 1⟩).depth
  /-- The reader of combinators counts a closing bracket only where it is not at the top. -/
  level : ∀ scan : Scan, scan.nesting.quote = none → scan.nesting.isTop = false →
    1 ≤ scan.nesting.depth

namespace SelectorGroup

theorem read_ne_brokenCharacter {text : String} (whole : ¬HoldsBroken text.toList) :
    read text ≠ .error .brokenCharacter := by
  have sound : ∀ piece ∈ pieces text, ¬Breaks piece := by
    intro piece member breaks
    apply whole
    exact (holdsBroken_of_readComplex breaks).of_part (infix_of_mem_splitTopLevel ',' member)
  obtain ⟨unparsed, run⟩ := foldlM_addMember_eq_ok ⟨[], 0⟩ sound
  rw [read, ← pieces, run, ne_eq, bind_eq_error]
  rintro (failed | ⟨group, _, failed⟩)
  · cases failed
  · split at failed <;> cases failed

/-- Reading a selector gives a value, unless the operator of an attribute selector follows a
character of more than one byte. -/
theorem read_returns (text : String) (whole : ¬HoldsBroken text.toList) : Returns text := by
  have sound := read_ne_brokenCharacter whole
  constructor
  case group =>
    cases reading : read text with
    | ok group => exact .inl ⟨group, rfl⟩
    | error e =>
        cases e with
        | unreadable => exact .inr rfl
        | brokenCharacter => exact absurd reading sound
  case specificity =>
    unfold specificityOf
    split
    · exact ⟨_, rfl⟩
    · exact ⟨_, rfl⟩
    · next broken => exact absurd broken sound
  case rule =>
    intro set declarations origin
    unfold RuleSet.addRule
    split
    · next broken => exact absurd broken sound
    · exact ⟨_, rfl⟩
    · dsimp only
      split <;> exact ⟨_, rfl⟩
  case pieces =>
    exact fun delimiter => intercalate_splitTopLevel delimiter text.toList
  case operator =>
    intro lead rest inner after before value parts found split_ filled
    apply Decidable.not_not.1
    rw [← isBroken_iff_not_isValid split_ filled]
    exact fun broken => whole ⟨lead, rest, inner, after, parts, found, broken⟩
  case bracket =>
    exact fun opener closer inside => one_le_depth_of_readBalanced (Nat.le_refl 1)
  case level =>
    intro scan outside inner
    apply Nat.one_le_iff_ne_zero.2
    intro closed
    simp [Nesting.isTop, outside, closed] at inner

theorem read_returns_attribute :
    ¬HoldsBroken "é[title=\"é\"]".toList ∧ Returns "é[title=\"é\"]" :=
  ⟨by decide, read_returns _ (by decide)⟩

/-- An equals sign after a letter that is not ASCII stops the reading. -/
theorem read_accented_name :
    read "[é=x]" = .error .brokenCharacter ∧ specificityOf "[é=x]" = .error .brokenCharacter := by
  constructor
  · cbv
  · cbv

end SelectorGroup

end ComputedStyle
