import Mathlib
import ComputedStyle.Proofs.Syntax.Words

namespace ComputedStyle.Syntax

open Component

variable {s w name tag key : List Char}

/-- No character ends a string or has a meaning of its own in it. -/
def IsVerbatim (s : List Char) : Prop :=
  ∀ c ∈ s, c ≠ '"' ∧ c ≠ '\\' ∧ isNewline c = false

instance : DecidablePred IsVerbatim := fun s =>
  decidable_of_iff (s.all fun c => c ≠ '"' ∧ c ≠ '\\' ∧ isNewline c = false)
    (by simp [IsVerbatim])

/-- A text between double quotes. -/
def quoted (s : List Char) : List Char :=
  '"' :: (s ++ ['"'])

theorem quoted_free (free : ¬['/', '*'] <:+: s) : ¬['/', '*'] <:+: quoted s := by
  intro inside
  rcases List.infix_cons_iff.1 inside with first | later
  · cases (List.cons_prefix_cons.1 first).1
  · rcases infix_of_append_cons (by decide) later with own | empty
    · exact free own
    · cases List.eq_nil_of_infix_nil empty

theorem IsVerbatim.unquoted (verbatim : IsVerbatim s) : '"' ∉ s :=
  fun member => (verbatim '"' member).1 rfl

section Lexemes

/-- What the string says; a null character is no part of any value. -/
def stringValue (s : List Char) : List Char :=
  s.map fun c => if c == '\x00' then replacement else c

def quotedLexeme (s : List Char) : Lexeme :=
  ⟨.quoted (stringValue s), quoted s⟩

theorem readQuoted_verbatim (verbatim : IsVerbatim s) (w : List Char) :
    readQuoted '"' (s ++ '"' :: w) = (stringValue s, s.length + 1, true) := by
  induction s with
  | nil => rw [List.nil_append, readQuoted_cons, if_pos (beq_self_eq_true _)]; rfl
  | cons c rest ih =>
      obtain ⟨⟨quote, escape, line⟩, later⟩ := List.forall_mem_cons.1 verbatim
      rw [List.cons_append, readQuoted_cons, if_neg (by simpa using quote), if_neg (by simp [line]),
        if_neg (by simpa using escape), ih later]
      rfl

theorem lexemes_quoted (verbatim : IsVerbatim s) (w : List Char) :
    lexemes (quoted s ++ w) = quotedLexeme s :: lexemes w := by
  have text : quoted s ++ w = '"' :: (s ++ '"' :: w) := by simp [quoted]
  have scan : Token.scan '"' (s ++ '"' :: w) = (.quoted (stringValue s), s.length + 1) := by
    rw [Token.scan, readQuoted_verbatim verbatim]
    rfl
  have taken : (s ++ '"' :: w).take (s.length + 1) = s ++ ['"'] := by
    rw [List.take_length_add_append]
    rfl
  have left : (s ++ '"' :: w).drop (s.length + 1) = w := by
    rw [List.drop_length_add_append]
    rfl
  rw [text, lexemes_cons, scan, taken, left]
  rfl

/-- The marks of an attribute test, outside of its names and its value. -/
def attributeMarks : List Char :=
  ['[', '=', ']']

theorem lexemes_attributeMark {d : Char} (mark : d ∈ attributeMarks) (w : List Char) :
    lexemes (d :: w) = ⟨(singleToken? d).getD (.symbol d), [d]⟩ :: lexemes w := by
  rw [lexemes_cons]
  simp only [attributeMarks, List.mem_cons, List.not_mem_nil, or_false] at mark
  rcases mark with rfl | rfl | rfl <;> rfl

theorem lexemes_name_attributeMark {d : Char} (named : IsName name) (mark : d ∈ attributeMarks)
    (w : List Char) : lexemes (name ++ d :: w) = ⟨.name name, name⟩ :: lexemes (d :: w) := by
  have outside : isNameChar d = false ∧ d ≠ '\x00' ∧ d ≠ '\\' ∧ d ≠ '(' ∧
      ∀ l ∈ commentMarks, d ∉ l := by
    simp only [attributeMarks, List.mem_cons, List.not_mem_nil, or_false] at mark
    rcases mark with rfl | rfl | rfl <;> decide
  obtain ⟨other, null, escape, round, apart⟩ := outside
  have ends : readName (d :: w) = ([], 0) := by
    simp [readName_cons, other, null, escape]
  have unmarked : commentMarkLength (name ++ d :: w) = 0 := by
    have free {l : List Char} (listed : l ∈ commentMarks) : ¬l <+: name ++ d :: w := by
      have behind : ∀ c ∈ (d :: w).head?, c ∉ l := by
        rintro _ ⟨⟩
        exact apart l listed
      rw [isPrefix_append_iff behind]
      exact fun first => (isUnmarked_of_isNameChar named.chars).markers l listed first.isInfix
    rw [commentMarkLength_eq, if_neg (free (by simp [commentMarks])),
      if_neg (free (by simp [commentMarks]))]
  have nonempty : name ≠ [] := by
    rintro rfl
    cases named.starts
  refine lexemes_of_unmarked nonempty (startsName_append_of_isName named _)
    (readName_append_of_ends named.chars ends) unmarked ?_
  rintro ⟨⟩
  exact round rfl

end Lexemes

section Attributes

/-- The selector of the elements with a tag and an attribute of one value. -/
def attributeSelector (tag key value : List Char) : List Char :=
  tag ++ '[' :: (key ++ '=' :: (quoted value ++ [']']))

/-- What a test in square brackets holds. -/
def attributeLexemes (key value : List Char) : List Lexeme :=
  [⟨.name key, key⟩, ⟨.symbol '=', ['=']⟩, quotedLexeme value]

def attributeComponents (tag key value : List Char) : List Component :=
  [.single ⟨.name tag, tag⟩, .block ⟨.opening .square, ['[']⟩
    ((attributeLexemes key value).map .single) (some ⟨.closing .square, [']']⟩)]

variable (tagged : IsName tag) (named : IsName key) (verbatim : IsVerbatim s)

include tagged named

theorem attributeSelector_free (free : ¬['/', '*'] <:+: s) :
    ¬['/', '*'] <:+: attributeSelector tag key s := by
  intro inside
  rcases infix_of_append_cons (by decide) inside with own | inside
  · exact (isUnmarked_of_isNameChar tagged.chars).comments own
  rcases infix_of_append_cons (by decide) inside with own | inside
  · exact (isUnmarked_of_isNameChar named.chars).comments own
  rcases infix_of_append_cons (by decide) inside with own | last
  · exact quoted_free free own
  · cases List.eq_nil_of_infix_nil last

include verbatim

theorem lexemes_attributeSelector (w : List Char) :
    lexemes (attributeSelector tag key s ++ w) =
      ⟨.name tag, tag⟩ :: ⟨.opening .square, ['[']⟩ :: attributeLexemes key s ++
        ⟨.closing .square, [']']⟩ :: lexemes w := by
  have text : attributeSelector tag key s ++ w =
      tag ++ '[' :: (key ++ '=' :: (quoted s ++ ']' :: w)) := by
    simp [attributeSelector]
  rw [text, lexemes_name_attributeMark tagged (by decide), lexemes_attributeMark (by decide),
    lexemes_name_attributeMark named (by decide), lexemes_attributeMark (by decide),
    lexemes_quoted verbatim, lexemes_attributeMark (by decide)]
  rfl

theorem stands_attributeSelector :
    Stands (attributeSelector tag key s) (attributeComponents tag key s) := by
  have own := lexemes_attributeSelector tagged named verbatim []
  rw [List.append_nil, lexemes_nil] at own
  refine ⟨fun w => ?_, ?_⟩
  · rw [lexemes_attributeSelector tagged named verbatim, own]
    simp
  · rw [own]
    refine reads_of_isClosed rfl fun lexeme member closing => ?_
    simp only [attributeLexemes, quotedLexeme, List.mem_cons, List.mem_append, List.not_mem_nil,
      or_false] at member
    rcases member with (rfl | rfl | rfl | rfl | rfl) | rfl <;> cases closing

end Attributes

end ComputedStyle.Syntax
