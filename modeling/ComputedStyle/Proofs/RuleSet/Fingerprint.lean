import ComputedStyle.Proofs.RuleSet.Growth
import ComputedStyle.Proofs.Selector.Group
import ComputedStyle.RuleSet.Index

/-!
What the bytes of a rule set tell about it.

The mark after a rule is no byte of a text, so the bytes of the rules can be told apart; and in a rule
the selector text ends at the first zero, if it holds none. The selector text as it is kept is read as
the text it was trimmed from, so the bytes decide the index.
-/

namespace ComputedStyle

section Utf8

theorem toList_loop (bytes : ByteArray) (i : Nat) (read : List UInt8) :
    ByteArray.toList.loop bytes i read = read.reverse ++ bytes.data.toList.drop i := by
  fun_induction ByteArray.toList.loop bytes i read with
  | case1 i read less ih =>
      have bound : i < bytes.data.toList.length := by simpa using less
      rw [ih, List.drop_eq_getElem_cons bound]
      simp [ByteArray.get!, less]
  | case2 i read least =>
      rw [List.drop_eq_nil_of_le (by simpa using Nat.le_of_not_lt least), List.append_nil]

theorem toList_toUTF8 (text : String) :
    text.toUTF8.toList = text.toList.flatMap String.utf8EncodeChar := by
  have encoded : text.toUTF8 = (text.toList.flatMap String.utf8EncodeChar).toByteArray :=
    String.utf8Encode_toList.symm
  rw [ByteArray.toList, toList_loop, encoded, List.data_toByteArray]
  rfl

theorem toUTF8_injective {text other : String} (same : text.toUTF8.toList = other.toUTF8.toList) :
    text = other := by
  rw [toList_toUTF8, toList_toUTF8] at same
  rw [← String.toByteArray_inj, ← String.utf8Encode_toList, ← String.utf8Encode_toList]
  exact congrArg List.toByteArray same

/-- A byte of a character is no mark; it is zero only for the null character. -/
theorem byte_of_mem_utf8EncodeChar {c : Char} {byte : UInt8}
    (member : byte ∈ String.utf8EncodeChar c) : byte ≠ 0xff ∧ (byte = 0 → c = '\x00') := by
  have null : c.val.toNat = 0 → c = '\x00' := fun zero => Char.toNat_inj.1 zero
  have plain : ∀ n : Nat, n < 255 → (n = 0 → c.val.toNat = 0) →
      UInt8.ofNat n ≠ 0xff ∧ (UInt8.ofNat n = 0 → c = '\x00') := by
    intro n bound zero
    constructor
    · intro same
      have value := congrArg UInt8.toNat same
      rw [UInt8.toNat_ofNat', Nat.mod_eq_of_lt (by omega)] at value
      exact absurd value (Nat.ne_of_lt bound)
    · intro same
      have value := congrArg UInt8.toNat same
      rw [UInt8.toNat_ofNat', Nat.mod_eq_of_lt (by omega)] at value
      exact null (zero value)
  unfold String.utf8EncodeChar at member
  dsimp only at member
  split at member
  · next small =>
      rw [List.mem_singleton.1 member]
      exact plain _ (by omega) id
  split at member
  · rcases List.mem_pair.1 member with rfl | rfl <;> exact plain _ (by omega) (by omega)
  split at member
  · simp only [List.mem_cons, List.not_mem_nil, or_false] at member
    rcases member with rfl | rfl | rfl <;> exact plain _ (by omega) (by omega)
  · simp only [List.mem_cons, List.not_mem_nil, or_false] at member
    rcases member with rfl | rfl | rfl | rfl <;> exact plain _ (by omega) (by omega)

theorem mark_not_mem_toUTF8 (text : String) : 0xff ∉ text.toUTF8.toList := by
  rw [toList_toUTF8]
  intro member
  obtain ⟨c, _, inside⟩ := List.mem_flatMap.1 member
  exact (byte_of_mem_utf8EncodeChar inside).1 rfl

theorem zero_not_mem_toUTF8 {text : String} (plain : '\x00' ∉ text.toList) :
    0 ∉ text.toUTF8.toList := by
  rw [toList_toUTF8]
  intro member
  obtain ⟨c, found, inside⟩ := List.mem_flatMap.1 member
  exact plain ((byte_of_mem_utf8EncodeChar inside).2 rfl ▸ found)

end Utf8

namespace RuleSet

/-- The bytes of a rule before its mark. -/
def ruleBody (rule : Rule) : List UInt8 :=
  UInt8.ofNat rule.origin.rank :: rule.selectorText.toUTF8.toList ++
    0 :: rule.declarations.entries.flatMap fun (name, value) =>
      terminated name ':'.toUInt8 ++ terminated value 0

theorem ruleBytes_eq (rule : Rule) : ruleBytes rule = ruleBody rule ++ [0xff] := by
  simp [ruleBytes, ruleBody, terminated]

theorem mark_not_mem_terminated (text : String) {last : UInt8} (plain : last ≠ 0xff) :
    0xff ∉ terminated text last := by
  rw [terminated, List.mem_append, not_or]
  exact ⟨mark_not_mem_toUTF8 text, fun member => plain (List.mem_singleton.1 member).symm⟩

theorem mark_not_mem_ruleBody (rule : Rule) : 0xff ∉ ruleBody rule := by
  intro member
  rw [ruleBody, List.cons_append, List.mem_cons, List.mem_append, List.mem_cons,
    List.mem_flatMap] at member
  rcases member with rank | text | zero | ⟨⟨name, value⟩, _, member⟩
  · revert rank
    cases rule.origin <;> decide
  · exact mark_not_mem_toUTF8 _ text
  · revert zero
    decide
  · rcases List.mem_append.1 member with inName | inValue
    · exact mark_not_mem_terminated name (by decide) inName
    · exact mark_not_mem_terminated value (by decide) inValue

/-- No selector text of the set holds a null character. -/
def IsPlain (set : RuleSet) : Prop :=
  ∀ rule ∈ set.rules.toList, '\x00' ∉ rule.selectorText.toList

theorem selectorText_of_ruleBody {rule other : Rule}
    (plain : '\x00' ∉ rule.selectorText.toList) (plain' : '\x00' ∉ other.selectorText.toList)
    (same : ruleBody rule = ruleBody other) : rule.selectorText = other.selectorText := by
  have texts := (List.cons.inj same).2
  exact toUTF8_injective
    (Text.append_mark_inj (zero_not_mem_toUTF8 plain) (zero_not_mem_toUTF8 plain') texts).1

theorem selectorTexts_of_bytes {rules others : List Rule}
    (plain : ∀ rule ∈ rules, '\x00' ∉ rule.selectorText.toList)
    (plain' : ∀ rule ∈ others, '\x00' ∉ rule.selectorText.toList)
    (same : rules.flatMap ruleBytes = others.flatMap ruleBytes) :
    rules.map Rule.selectorText = others.map Rule.selectorText := by
  induction rules generalizing others with
  | nil =>
      cases others with
      | nil => rfl
      | cons other rest => simp [ruleBytes] at same
  | cons rule rest ih =>
      cases others with
      | nil => simp [ruleBytes] at same
      | cons other others =>
          rw [List.flatMap_cons, List.flatMap_cons, ruleBytes_eq, ruleBytes_eq, List.append_assoc,
            List.append_assoc, List.singleton_append, List.singleton_append] at same
          obtain ⟨body, later⟩ := Text.append_mark_inj (mark_not_mem_ruleBody rule)
            (mark_not_mem_ruleBody other) same
          obtain ⟨own, plain⟩ := List.forall_mem_cons.1 plain
          obtain ⟨own', plain'⟩ := List.forall_mem_cons.1 plain'
          rw [List.map_cons, List.map_cons, selectorText_of_ruleBody own own' body,
            ih plain plain' later]

def filed (rule : Rule) : RuleId × SelectorGroup :=
  (rule.id, rule.selectors)

theorem read_selectorText {rule : Rule} {text : String} (read : rule.FromText text) :
    SelectorGroup.read rule.selectorText = .ok rule.selectors := by
  rw [read.trimmed, SelectorGroup.read_trimmed, read.read]

theorem Consistent.filed_getElem? {set : RuleSet} (consistent : set.Consistent) (i : Nat) :
    (set.rules.toList.map filed)[i]? = ((set.rules.toList.map Rule.selectorText)[i]?).bind
      fun text => (SelectorGroup.read text).toOption.map (i, ·) := by
  rw [List.getElem?_map, List.getElem?_map, Array.getElem?_toList]
  cases found : set.rules[i]? with
  | none => rfl
  | some rule =>
      obtain ⟨text, read⟩ := consistent.read i rule found
      simp only [Option.map_some, Option.bind_some, read_selectorText read]
      rw [filed, consistent.numbered i rule found]
      rfl

theorem build_eq_foldl (set : RuleSet) :
    RuleIndex.build set = (set.rules.toList.map filed).foldl
      (fun index entry => entry.2.members.foldl
        (fun index member => index.file entry.1 member.filingKey) index)
      { ruleCount := (set.rules.toList.map filed).length } := by
  rw [RuleIndex.build, List.foldl_map, List.length_map, Array.length_toList]
  rfl

theorem build_eq_of_bytes_eq {set other : RuleSet} (consistent : set.Consistent)
    (consistent' : other.Consistent) (plain : set.IsPlain) (plain' : other.IsPlain)
    (same : set.bytes = other.bytes) : RuleIndex.build set = RuleIndex.build other := by
  have texts := selectorTexts_of_bytes plain plain' same
  have entries : set.rules.toList.map filed = other.rules.toList.map filed := by
    apply List.ext_getElem?
    intro i
    rw [consistent.filed_getElem?, consistent'.filed_getElem?, texts]
  rw [build_eq_foldl, build_eq_foldl, entries]

/-- A null character in a selector passes for the end of its text. -/
theorem build_ne_of_null :
    ¬∀ additions others : List Addition,
      (ofAdditions additions).bytes = (ofAdditions others).bytes →
        RuleIndex.build (ofAdditions additions) = RuleIndex.build (ofAdditions others) := by
  intro all
  let additions : List Addition := [.rule "a, b\x00c:d" (.ofList [("e", "f")]) .author]
  let others : List Addition := [.rule "a, b" (.ofList [("c", "d"), ("e", "f")]) .author]
  have missing : (RuleIndex.build (ofAdditions additions)).byTag.get? "b" = none := by
    cbv
  have filed : (RuleIndex.build (ofAdditions others)).byTag.get? "b" = some [0] := by
    cbv
  rw [all additions others (by cbv), filed] at missing
  cases missing

end RuleSet

end ComputedStyle
