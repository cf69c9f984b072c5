import ComputedStyle.Proofs.Syntax.Lexeme
import ComputedStyle.Proofs.Text.Spaced
import ComputedStyle.Stylesheet.Media

namespace ComputedStyle.Media

open Syntax Text

inductive Modifier where
  | not
  | only
deriving DecidableEq, Repr

def Modifier.word : Modifier → List Char
  | not => "not".toList
  | only => "only".toList

/-- A media query in lower case. -/
structure Query where
  modifier : Option Modifier
  kind : Option (List Char)
  features : List (List Char)
deriving DecidableEq, Repr

/-- A name that is no modifier. -/
structure IsKind (kind : List Char) : Prop where
  given : kind ≠ []
  named : ∀ c ∈ kind, isNameChar c ∧ isBlank c = false
  free : ∀ modifier : Modifier, kind ≠ modifier.word

/-- A text in brackets. The brackets and quotes that it opens are closed in it, and no comma is
outside of them. -/
structure IsFeature (feature : List Char) : Prop where
  enclosed : ∃ inner, feature = '(' :: (inner ++ [')'])
  whole : IsPiece ',' .top feature

structure Query.IsWritten (query : Query) : Prop where
  given : query.kind.isSome ∨ query.features ≠ []
  kind : ∀ kind ∈ query.kind, IsKind kind
  features : ∀ feature ∈ query.features, IsFeature feature

/-- The words after the modifier. -/
def Query.words (query : Query) : List (List Char) :=
  (query.kind.toList ++ query.features).intersperse "and".toList

/-- A printed snapshot is of the type, unless `not` stands before it; then it is of another one. A
type that is left out is any. -/
def Query.IsMet (query : Query) : Prop :=
  (∀ kind ∈ query.kind, kind = "all".toList ∨ kind = "print".toList) ↔ query.modifier ≠ some .not

instance (query : Query) : Decidable query.IsMet :=
  inferInstanceAs (Decidable (_ ↔ _))

/-- What of a query counts. -/
def Query.front (query : Query) : Option Modifier × Option (List Char) :=
  (query.modifier, query.kind)

/-- A modifier, if there is one, with one or more blanks after it. -/
inductive Introduced (lead : Char → Prop) : Option Modifier → List Char → Prop where
  | plain : Introduced lead none []
  | modified (modifier : Modifier) (c : Char) (blanks : List Char) (first : lead c)
      (more : ∀ c ∈ blanks, isSpace c) :
      Introduced lead (some modifier) (modifier.word ++ c :: blanks)

/-- A query in any letter case, with blanks around it and between its words. The blank right after
its modifier is of a kind. -/
inductive Spells (lead : Char → Prop) (query : Query) : List Char → Prop where
  | intro (before front s after : List Char) (left : ∀ c ∈ before, isSpace c)
      (right : ∀ c ∈ after, isSpace c) (introduced : Introduced lead query.modifier (lower front))
      (spaced : Spaced (isSpace ·) query.words (lower s)) :
      Spells lead query (before ++ (front ++ s ++ after))

/-- Queries with commas between them. -/
def Listed (lead : Char → Prop) (queries : List Query) (text : List Char) : Prop :=
  ∃ pieces, List.Forall₂ (Spells lead) queries pieces ∧ text = [','].intercalate pieces

section Words

variable {query : Query} {s t word rest name : List Char} {c : Char}

theorem isBare_of_isNameChar (named : isNameChar c) : IsBare c := by
  intro held
  have unnamed : ∀ d ∈ ['"', '\'', '(', ')', '[', ']'], isNameChar d = false := by
    simp only [List.forall_mem_cons]
    exact ⟨rfl, rfl, rfl, rfl, rfl, rfl, List.forall_mem_nil _⟩
  rw [unnamed c held] at named
  cases named

theorem isPiece_of_named (named : ∀ c ∈ word, isNameChar c) : IsPiece ',' .top word := by
  induction word with
  | nil => rfl
  | cons c rest ih =>
      obtain ⟨own, others⟩ := List.forall_mem_cons.1 named
      refine ⟨?_, ?_⟩
      · rintro rfl
        cases own
      · rw [Nesting.top, Nesting.step_of_isBare (isBare_of_isNameChar own)]
        exact ih others

/-- What a text is put together from: it is not cut, and not trimmed. -/
structure IsWord (word : List Char) : Prop where
  given : word ≠ []
  trimmed : IsTrimmed word
  whole : IsPiece ',' .top word

theorem isWord_of_named (given : word ≠ [])
    (named : ∀ c ∈ word, isNameChar c ∧ isBlank c = false) : IsWord word where
  given := given
  trimmed := ⟨fun c first => (named c (List.mem_of_head? first)).2,
    fun c last => (named c (List.mem_of_getLast? last)).2⟩
  whole := isPiece_of_named fun c member => (named c member).1

theorem Modifier.named (modifier : Modifier) :
    ∀ c ∈ modifier.word, isNameChar c ∧ isBlank c = false := by
  cases modifier with
  | not =>
      simp only [word, String.reduceToList, List.forall_mem_cons]
      exact ⟨⟨rfl, rfl⟩, ⟨rfl, rfl⟩, ⟨rfl, rfl⟩, List.forall_mem_nil _⟩
  | only =>
      simp only [word, String.reduceToList, List.forall_mem_cons]
      exact ⟨⟨rfl, rfl⟩, ⟨rfl, rfl⟩, ⟨rfl, rfl⟩, ⟨rfl, rfl⟩, List.forall_mem_nil _⟩

theorem Modifier.isWord (modifier : Modifier) : IsWord modifier.word := by
  refine isWord_of_named ?_ modifier.named
  cases modifier with
  | not => decide
  | only => decide

theorem IsFeature.isWord (feature : IsFeature word) : IsWord word := by
  obtain ⟨inner, rfl⟩ := feature.enclosed
  refine ⟨List.cons_ne_nil _ _, ⟨?_, ?_⟩, feature.whole⟩
  · rintro _ ⟨⟩
    rfl
  · intro c last
    rw [← List.cons_append, List.getLast?_concat] at last
    cases last
    rfl

theorem isWord_and : IsWord "and".toList := by
  apply isWord_of_named (by decide)
  simp only [String.reduceToList, List.forall_mem_cons]
  exact ⟨⟨rfl, rfl⟩, ⟨rfl, rfl⟩, ⟨rfl, rfl⟩, List.forall_mem_nil _⟩

theorem forall_mem_intersperse {α : Type} {p : α → Prop} {mark : α} {items : List α}
    (own : p mark) (each : ∀ item ∈ items, p item) : ∀ item ∈ items.intersperse mark, p item := by
  induction items with
  | nil => exact List.forall_mem_nil _
  | cons first others ih =>
      obtain ⟨head, tail⟩ := List.forall_mem_cons.1 each
      cases others with
      | nil => exact List.forall_mem_singleton.2 head
      | cons second more =>
          rw [List.intersperse_cons_cons]
          exact List.forall_mem_cons.2 ⟨head, List.forall_mem_cons.2 ⟨own, ih tail⟩⟩

theorem Query.IsWritten.isWord (written : query.IsWritten) : ∀ word ∈ query.words, IsWord word := by
  apply forall_mem_intersperse isWord_and
  intro word member
  rcases List.mem_append.1 member with kind | feature
  · have own := written.kind word (Option.mem_toList.1 kind)
    exact isWord_of_named own.given own.named
  · exact (written.features word feature).isWord

end Words

section Reading

variable {query : Query} {s t word rest name blanks : List Char}

theorem solid_of_named (named : ∀ c ∈ word, isNameChar c ∧ isBlank c = false) :
    ∀ c ∈ word, isBlank c = false :=
  fun c member => (named c member).2

theorem isBlank_of_forall (spaces : ∀ c ∈ blanks, isSpace c) : ∀ c ∈ blanks, isBlank c :=
  fun c member => isBlank_of_isSpace (spaces c member)

theorem fields_append (solid : ∀ c ∈ word, isBlank c = false)
    (ends : ∀ c ∈ rest.head?, isBlank c) : ∃ more, fields isBlank (word ++ rest) = word :: more := by
  induction word with
  | nil =>
      cases rest with
      | nil => exact ⟨[], rfl⟩
      | cons c rest =>
          refine ⟨fields isBlank rest, ?_⟩
          rw [List.nil_append, fields, if_pos (ends c rfl)]
  | cons c word ih =>
      obtain ⟨own, others⟩ := List.forall_mem_cons.1 solid
      obtain ⟨more, same⟩ := ih others
      refine ⟨more, ?_⟩
      rw [List.cons_append, fields, own, if_neg Bool.false_ne_true, same]

theorem head?_words (given : word ≠ []) (solid : ∀ c ∈ word, isBlank c = false)
    (ends : ∀ c ∈ rest.head?, isBlank c) :
    (Text.words isBlank (word ++ rest)).head? = some word := by
  obtain ⟨more, same⟩ := fields_append solid ends
  rw [Text.words, same, List.filter_cons_of_pos (by simpa using given)]
  rfl

theorem after?_eq_none (solid : ∀ c ∈ word, isBlank c = false)
    (ends : ∀ c ∈ rest.head?, isBlank c) (named : ∀ c ∈ name, isBlank c = false)
    (apart : word ≠ name) : after? (name ++ [' ']) (word ++ rest) = none := by
  rw [after?, if_neg]
  intro leads
  obtain ⟨others, same⟩ := List.isPrefixOf_iff_prefix.1 leads
  have blank : ∀ c ∈ ([' '] ++ others).head?, isBlank c := by
    rintro _ ⟨⟩
    rfl
  obtain ⟨more, first⟩ := fields_append named blank
  obtain ⟨later, second⟩ := fields_append solid ends
  rw [← List.append_assoc, same, second] at first
  exact apart (List.cons.inj first).1

/-- What a query starts with after its modifier: its type, or a bracket. -/
theorem Query.IsWritten.head_cases (written : query.IsWritten)
    (spaced : Spaced (isSpace ·) query.words t) :
    (∃ kind rest, query.kind = some kind ∧ IsKind kind ∧ t = kind ++ rest ∧
        ∀ c ∈ rest.head?, isBlank c) ∨
      ∃ rest, query.kind = none ∧ t = '(' :: rest := by
  have headed (first : List Char) (others : List (List Char))
      (front : query.kind.toList ++ query.features = first :: others) :
      ∃ rest, t = first ++ rest ∧ ∀ c ∈ rest.head?, isBlank c := by
    obtain ⟨more, same⟩ : ∃ more, query.words = first :: more := by
      rw [Query.words, front]
      cases others with
      | nil => exact ⟨[], rfl⟩
      | cons second others => exact ⟨_, List.intersperse_cons_cons⟩
    rw [same] at spaced
    obtain ⟨rest, same, ends⟩ := spaced.exists_rest
    exact ⟨rest, same, fun c member => isBlank_of_isSpace (ends c member)⟩
  cases named : query.kind with
  | some kind =>
      obtain ⟨rest, same, ends⟩ := headed kind query.features (by rw [named]; rfl)
      exact .inl ⟨kind, rest, rfl, written.kind kind named, same, ends⟩
  | none =>
      have given : query.features ≠ [] := by
        rcases written.given with kind | given
        · rw [named] at kind
          cases kind
        · exact given
      obtain ⟨feature, others, features⟩ := List.exists_cons_of_ne_nil given
      obtain ⟨rest, rfl, -⟩ := headed feature others (by rw [named, features]; rfl)
      have own := written.features feature (by rw [features]; exact List.mem_cons_self)
      obtain ⟨inner, rfl⟩ := own.enclosed
      exact .inr ⟨_, rfl, rfl⟩

theorem typeOf_of_spaced (written : query.IsWritten) (spaced : Spaced (isSpace ·) query.words t) :
    typeOf t = query.kind.getD "all".toList := by
  rcases written.head_cases spaced with ⟨kind, rest, same, own, rfl, ends⟩ | ⟨rest, same, rfl⟩
  · rw [same, typeOf, head?_words own.given (solid_of_named own.named) ends]
    intro others front
    obtain ⟨c, name, rfl⟩ := List.exists_cons_of_ne_nil own.given
    cases (List.cons.inj front).1
    cases (own.named _ List.mem_cons_self).1
  · rw [same]
    rfl

theorem after?_of_spaced (written : query.IsWritten) (spaced : Spaced (isSpace ·) query.words t)
    (modifier : Modifier) : after? (modifier.word ++ [' ']) t = none := by
  rcases written.head_cases spaced with ⟨kind, rest, same, own, rfl, ends⟩ | ⟨rest, same, rfl⟩
  · exact after?_eq_none (solid_of_named own.named) ends (solid_of_named modifier.named)
      (own.free modifier)
  · cases modifier with
    | not => rfl
    | only => rfl

theorem Query.IsWritten.isTrimmed (written : query.IsWritten)
    (spaced : Spaced (isSpace ·) query.words t) : t ≠ [] ∧ IsTrimmed t :=
  spaced.isTrimmed fun word member =>
    ⟨(written.isWord word member).given, (written.isWord word member).trimmed⟩

end Reading

section Lists

variable {lead : Char → Prop} {query : Query} {queries : List Query} {piece s t text : List Char}

theorem kind_iff (query : Query) :
    (String.ofList (query.kind.getD "all".toList) == "all" ||
        String.ofList (query.kind.getD "all".toList) == "print") ↔
      ∀ kind ∈ query.kind, kind = "all".toList ∨ kind = "print".toList := by
  cases query.kind with
  | none => simp
  | some kind => simp [← String.toList_inj]

theorem Introduced.isTrimmed {modifier : Option Modifier} {front : List Char}
    (introduced : Introduced lead modifier front) (nonempty : t ≠ []) (trimmed : IsTrimmed t) :
    IsTrimmed (front ++ t) := by
  cases introduced with
  | plain => exact trimmed
  | modified modifier c blanks first more =>
      have word := modifier.isWord
      exact isTrimmed_append word.trimmed trimmed word.given nonempty (c :: blanks)

theorem trim_of_spells (written : query.IsWritten) (spells : Spells lead query piece) :
    ∃ front t, lower (trim piece) = front ++ t ∧ Introduced lead query.modifier front ∧
      Spaced (isSpace ·) query.words t := by
  obtain ⟨before, front, s, after, left, right, introduced, spaced⟩ := spells
  refine ⟨lower front, lower s, ?_, introduced, spaced⟩
  obtain ⟨nonempty, trimmed⟩ := written.isTrimmed spaced
  rw [trim_append_left (isBlank_of_forall left), trim_append_right (isBlank_of_forall right),
    lower_trim, lower, List.map_append, ← lower, ← lower]
  exact trim_of_isTrimmed (introduced.isTrimmed nonempty trimmed)

theorem admits_iff (written : query.IsWritten) (spells : Spells (· = ' ') query piece) :
    admits piece ↔ query.IsMet := by
  obtain ⟨front, t, same, introduced, spaced⟩ := trim_of_spells written spells
  obtain ⟨nonempty, trimmed⟩ := written.isTrimmed spaced
  have left (blanks : List Char) (spaces : ∀ c ∈ blanks, isSpace c) :
      trimLeft (blanks ++ t) = t := by
    rw [trimLeft, List.dropWhile_append_of_pos (isBlank_of_forall spaces), ← trimLeft,
      trimLeft_of_head trimmed.1]
  have unturned : after? "not ".toList t = none := after?_of_spaced written spaced .not
  have unlimited : after? "only ".toList t = none := after?_of_spaced written spaced .only
  rw [Query.IsMet, ← kind_iff, ← typeOf_of_spaced written spaced, admits, same]
  generalize query.modifier = modifier at introduced
  cases introduced with
  | plain =>
      simp [unturned, unlimited, trimLeft_of_head trimmed.1, -String.reduceToList]
  | modified modifier c blanks first more =>
      subst first
      rw [List.append_assoc, List.cons_append]
      cases modifier with
      | not =>
          have turned : after? "not ".toList (Modifier.not.word ++ ' ' :: (blanks ++ t)) =
              some (blanks ++ t) := rfl
          simp [turned, left blanks more, unlimited, trimLeft_of_head trimmed.1,
            -String.reduceToList]
      | only =>
          have other : after? "not ".toList (Modifier.only.word ++ ' ' :: (blanks ++ t)) =
              none := rfl
          have limited : after? "only ".toList (Modifier.only.word ++ ' ' :: (blanks ++ t)) =
              some (blanks ++ t) := rfl
          simp [other, limited, left blanks more, -String.reduceToList]

theorem Introduced.isPiece {modifier : Option Modifier} {front : List Char}
    (blank : ∀ c, lead c → isBlank c) (introduced : Introduced lead modifier front) :
    IsPiece ',' .top front := by
  cases introduced with
  | plain => rfl
  | modified modifier c blanks first more =>
      apply modifier.isWord.whole.append
      apply isPiece_of_isBlank rfl
      exact List.forall_mem_cons.2 ⟨blank c first, isBlank_of_forall more⟩

theorem isPiece_of_spells (blank : ∀ c, lead c → isBlank c) (written : query.IsWritten)
    (spells : Spells lead query piece) : IsPiece ',' .top piece := by
  obtain ⟨before, front, s, after, left, right, introduced, spaced⟩ := spells
  have words : IsPiece ',' .top (lower s) :=
    (spaced.mono fun c => isBlank_of_isSpace).isPiece rfl fun word member =>
      (written.isWord word member).whole
  have cased (t : List Char) (whole : IsPiece ',' .top (lower t)) : IsPiece ',' .top t :=
    (isPiece_lower rfl fun d _ => (Option.some_ne_none d).symm).1 whole
  refine (isPiece_of_isBlank rfl (isBlank_of_forall left)).append ?_
  refine IsPiece.append ?_ (isPiece_of_isBlank rfl (isBlank_of_forall right))
  exact (cased front (introduced.isPiece blank)).append (cased s words)

theorem any_admits_trim (pieces : List (List Char)) :
    (pieces.map trim).any admits = pieces.any admits := by
  have same : admits ∘ trim = admits := by
    funext piece
    rw [Function.comp, admits, trim_trim, ← admits]
  rw [List.any_map, same]

theorem exists_of_mem_right {α β : Type} {relation : α → β → Prop} {items : List α}
    {others : List β} (related : List.Forall₂ relation items others) :
    ∀ other ∈ others, ∃ item ∈ items, relation item other := by
  induction related with
  | nil => exact List.forall_mem_nil _
  | cons own _ ih =>
      intro other member
      rcases List.mem_cons.1 member with rfl | later
      · exact ⟨_, List.mem_cons_self, own⟩
      · obtain ⟨item, found, same⟩ := ih other later
        exact ⟨item, List.mem_cons_of_mem _ found, same⟩

theorem exists_mem_iff {α β : Type} {relation : α → β → Prop} {p : α → Prop} {q : β → Prop}
    {items : List α} {others : List β} (related : List.Forall₂ relation items others)
    (same : ∀ item ∈ items, ∀ other, relation item other → (q other ↔ p item)) :
    (∃ other ∈ others, q other) ↔ ∃ item ∈ items, p item := by
  induction related with
  | nil => simp
  | cons own _ ih =>
      obtain ⟨first, later⟩ := List.forall_mem_cons.1 same
      rw [List.exists_mem_cons_iff, List.exists_mem_cons_iff, first _ own, ih later]

theorem trim_of_listed_ne_nil (given : queries ≠ []) (written : ∀ query ∈ queries, query.IsWritten)
    {pieces : List (List Char)} (spelled : List.Forall₂ (Spells lead) queries pieces) :
    ∃ piece ∈ pieces, trim piece ≠ [] := by
  cases spelled with
  | nil => exact absurd rfl given
  | cons own _ =>
      obtain ⟨query, others⟩ := List.forall_mem_cons.1 written
      obtain ⟨front, t, same, -, spaced⟩ := trim_of_spells query own
      refine ⟨_, List.mem_cons_self, fun empty => ?_⟩
      rw [empty] at same
      exact (query.isTrimmed spaced).1 (List.append_eq_nil_iff.1 same.symm).2

theorem isMet_of_front {other : Query} (same : other.front = query.front) :
    other.IsMet ↔ query.IsMet := by
  obtain ⟨modifier, kind⟩ := Prod.mk.inj same
  rw [Query.IsMet, Query.IsMet, modifier, kind]

theorem exists_isMet_of_perm {others : List Query}
    (same : (others.map Query.front).Perm (queries.map Query.front)) :
    (∃ query ∈ others, query.IsMet) → ∃ query ∈ queries, query.IsMet := by
  rintro ⟨other, member, met⟩
  obtain ⟨query, found, front⟩ :=
    List.mem_map.1 (same.mem_iff.1 (List.mem_map_of_mem member))
  exact ⟨query, found, (isMet_of_front front).2 met⟩

theorem applies_iff (given : queries ≠ []) (written : ∀ query ∈ queries, query.IsWritten)
    (listed : Listed (· = ' ') queries text) :
    applies text ↔ ∃ query ∈ queries, query.IsMet := by
  obtain ⟨pieces, spelled, rfl⟩ := listed
  have whole : ∀ piece ∈ pieces, IsPiece ',' .top piece := by
    intro piece member
    obtain ⟨query, found, spells⟩ := exists_of_mem_right spelled piece member
    refine isPiece_of_spells ?_ (written query found) spells
    rintro _ rfl
    rfl
  obtain ⟨piece, member, visible⟩ := trim_of_listed_ne_nil given written spelled
  have cut : (splitTopLevel ',' (trim ([','].intercalate pieces))).map trim = pieces.map trim := by
    rw [map_trim_splitTopLevel_trim rfl,
      splitTopLevel_intercalate (List.ne_nil_of_mem member) whole]
  have nonempty : (trim ([','].intercalate pieces)).isEmpty = false := by
    rw [List.isEmpty_eq_false_iff]
    intro empty
    rw [empty] at cut
    have same : trim piece ∈ (splitTopLevel ',' []).map trim := by
      rw [cut]
      exact List.mem_map_of_mem member
    exact visible (List.mem_singleton.1 same)
  rw [applies, nonempty, Bool.false_or, ← any_admits_trim, cut, any_admits_trim, List.any_eq_true]
  exact exists_mem_iff spelled fun query there piece => admits_iff (written query there)

/-- A list of queries admits a printed snapshot if one of them is met. So nothing counts but the
modifiers and the types, and not in which order the queries are. -/
theorem applies_listed (given : queries ≠ []) (written : ∀ query ∈ queries, query.IsWritten)
    (listed : Listed (· = ' ') queries text) :
    (applies text ↔ ∃ query ∈ queries, query.IsMet) ∧
      ∀ others other, (∀ query ∈ others, query.IsWritten) → Listed (· = ' ') others other →
        (others.map Query.front).Perm (queries.map Query.front) →
        applies other = applies text := by
  have met := applies_iff given written listed
  refine ⟨met, ?_⟩
  intro others other written' listed' same
  have given' : others ≠ [] := by
    rintro rfl
    exact given (List.map_eq_nil_iff.1 same.symm.eq_nil)
  rw [Bool.eq_iff_iff, met, applies_iff given' written' listed']
  exact ⟨exists_isMet_of_perm same, exists_isMet_of_perm same.symm⟩

theorem isKind_screen : IsKind "screen".toList := by
  refine ⟨by decide, ?_, by rintro (- | -) <;> decide⟩
  simp only [String.reduceToList, List.forall_mem_cons]
  exact ⟨⟨rfl, rfl⟩, ⟨rfl, rfl⟩, ⟨rfl, rfl⟩, ⟨rfl, rfl⟩, ⟨rfl, rfl⟩, ⟨rfl, rfl⟩,
    List.forall_mem_nil _⟩

/-- Commas and a square bracket in a feature, and the same queries in another order. -/
theorem applies_listed_screen :
    applies "NOT  Screen\tand (a:[1,2]) ,(b)".toList = true ∧
      applies "(B),not screen and\n(c)".toList =
        applies "NOT  Screen\tand (a:[1,2]) ,(b)".toList := by
  have space : ∀ c ∈ [' '], isSpace c := List.forall_mem_singleton.2 rfl
  have tab : ∀ c ∈ ['\t'], isSpace c := List.forall_mem_singleton.2 rfl
  have newline : ∀ c ∈ ['\n'], isSpace c := List.forall_mem_singleton.2 rfl
  have nothing : ∀ c ∈ ([] : List Char), isSpace c := List.forall_mem_nil _
  have screen (inner : List Char) (whole : IsPiece ',' .top ('(' :: (inner ++ [')']))) :
      Query.IsWritten ⟨some .not, some "screen".toList, ['(' :: (inner ++ [')'])]⟩ := by
    refine ⟨.inl rfl, ?_, List.forall_mem_singleton.2 ⟨⟨inner, rfl⟩, whole⟩⟩
    rintro _ ⟨⟩
    exact isKind_screen
  have feature : Query.IsWritten ⟨none, none, ["(b)".toList]⟩ :=
    ⟨.inr (List.cons_ne_nil _ _), nofun, List.forall_mem_singleton.2 ⟨⟨['b'], rfl⟩, by decide⟩⟩
  have first : Listed (· = ' ')
      [⟨some .not, some "screen".toList, ["(a:[1,2])".toList]⟩, ⟨none, none, ["(b)".toList]⟩]
      "NOT  Screen\tand (a:[1,2]) ,(b)".toList := by
    refine ⟨["NOT  Screen\tand (a:[1,2]) ".toList, "(b)".toList], .cons ?_ (.cons ?_ .nil), rfl⟩
    · exact .intro [] "NOT  ".toList "Screen\tand (a:[1,2])".toList [' '] nothing space
        (.modified .not ' ' [' '] rfl space)
        (.more "screen".toList ['\t'] _ _ (by decide) tab <|
          .more "and".toList [' '] _ _ (by decide) space <| .last _)
    · exact .intro [] [] "(b)".toList [] nothing nothing .plain (.last _)
  have second : Listed (· = ' ')
      [⟨none, none, ["(b)".toList]⟩, ⟨some .not, some "screen".toList, ["(c)".toList]⟩]
      "(B),not screen and\n(c)".toList := by
    refine ⟨["(B)".toList, "not screen and\n(c)".toList], .cons ?_ (.cons ?_ .nil), rfl⟩
    · exact .intro [] [] "(B)".toList [] nothing nothing .plain (.last _)
    · exact .intro [] "not ".toList "screen and\n(c)".toList [] nothing nothing
        (.modified .not ' ' [] rfl nothing)
        (.more "screen".toList [' '] _ _ (by decide) space <|
          .more "and".toList ['\n'] _ _ (by decide) newline <| .last _)
  obtain ⟨met, same⟩ := applies_listed (List.cons_ne_nil _ _)
    (List.forall_mem_cons.2 ⟨screen "a:[1,2]".toList (by decide),
      List.forall_mem_singleton.2 feature⟩) first
  refine ⟨met.2 ⟨_, List.mem_cons_self, by decide⟩, ?_⟩
  exact same _ _ (List.forall_mem_cons.2 ⟨feature,
    List.forall_mem_singleton.2 (screen "c".toList (by decide))⟩) second (by decide)

/-- A tab ends a modifier as well as a space does, but it is not found there. -/
theorem applies_tab : ∃ query : Query, query.IsWritten ∧
    Listed (isSpace ·) [query] "not\tscreen".toList ∧ query.IsMet ∧
      applies "not\tscreen".toList = false := by
  refine ⟨⟨some .not, some "screen".toList, []⟩, ⟨.inl rfl, ?_, nofun⟩, ?_, by decide, by decide⟩
  · rintro _ ⟨⟩
    exact isKind_screen
  · have introduced : Introduced (isSpace ·) (some .not) (lower "not\t".toList) :=
      .modified .not '\t' [] rfl (List.forall_mem_nil _)
    refine ⟨["not\tscreen".toList], .cons ?_ .nil, rfl⟩
    exact .intro [] "not\t".toList "screen".toList [] (List.forall_mem_nil _) (List.forall_mem_nil _)
      introduced (.last _)

end Lists

end ComputedStyle.Media
