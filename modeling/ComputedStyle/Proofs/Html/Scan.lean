import Mathlib
import ComputedStyle.Html.Scan
import ComputedStyle.Proofs.Text.Case

namespace ComputedStyle.Html

open Text

/-- A name without slashes and without a hash sign in front. -/
def IsPlainName (name : String) : Prop :=
  '/' ∉ name.toList ∧ name.toList.head? ≠ some '#'

instance : DecidablePred IsPlainName := fun _ => inferInstanceAs (Decidable (_ ∧ _))

theorem isPlainName_lowerName {s : List Char} (free : '/' ∉ s) (start : s.head? ≠ some '#') :
    IsPlainName (lowerName s) := by
  have kept : ∀ (c d : Char), d.isAlpha = false → replacement ≠ d →
      (if c = Char.ofNat 0 then replacement else c.toLower) = d → c = d := by
    intro c d other apart same
    split at same
    · exact absurd same apart
    · exact eq_of_toLower other same
  rw [IsPlainName, lowerName, String.toList_ofList]
  constructor
  · intro member
    obtain ⟨c, own, same⟩ := List.mem_map.1 member
    rw [kept c '/' rfl (by decide) same] at own
    exact free own
  · intro first
    rw [List.head?_map, Option.map_eq_some_iff] at first
    obtain ⟨c, own, same⟩ := first
    rw [kept c '#' rfl (by decide) same] at own
    exact start own

theorem isPlainName_toLower {name : String} (plain : IsPlainName name) :
    IsPlainName name.toLower := by
  have letters : name.toLower.toList = name.toList.map Char.toLower := String.toList_map
  rw [IsPlainName, letters]
  constructor
  · intro member
    obtain ⟨c, own, same⟩ := List.mem_map.1 member
    rw [eq_of_toLower rfl same] at own
    exact plain.1 own
  · intro first
    rw [List.head?_map, Option.map_eq_some_iff] at first
    obtain ⟨c, own, same⟩ := first
    rw [eq_of_toLower rfl same] at own
    exact plain.2 own

theorem isPlainName_readTag? {c : Char} {s : List Char} {reading : TagReading} (letter : c.isAlpha)
    (read : readTag? (c :: s) = some reading) : IsPlainName reading.tag.name := by
  obtain ⟨tail, _, rfl⟩ := Option.map_eq_some_iff.1 read
  apply isPlainName_lowerName
  · intro member
    have inside := List.mem_takeWhile_imp member
    cases inside
  · intro first
    rw [List.takeWhile_cons] at first
    split at first
    · cases first
      cases letter
    · cases first

def Token.IsPlain : Token → Prop
  | startTag tag => IsPlainName tag.name
  | _ => True

theorem isPlain_endTag (name : String) : (Token.endTag name).IsPlain :=
  trivial

theorem isPlain_character (c : Char) : (Token.character c).IsPlain :=
  trivial

theorem isPlain_endOfText : Token.endOfText.IsPlain :=
  trivial

def Scanned.IsPlain (scanned : Scanned) : Prop :=
  ∀ token ∈ scanned.tokens, token.IsPlain

theorem isPlain_single (token : Token) (plain : token.IsPlain) (rest : List Char) :
    Scanned.IsPlain ⟨[token], rest⟩ := by
  intro other member
  rw [List.mem_singleton.1 member]
  exact plain

theorem isPlain_characters (s rest : List Char) : Scanned.IsPlain ⟨s.map .character, rest⟩ := by
  intro token member
  obtain ⟨c, _, rfl⟩ := List.mem_map.1 member
  trivial

theorem isPlain_nothing (rest : List Char) : Scanned.IsPlain ⟨[], rest⟩ :=
  isPlain_characters [] rest

theorem isPlain_scanTag {token : Tag → Token} {s : List Char}
    (plain : ∀ reading, readTag? s = some reading → (token reading.tag).IsPlain) :
    (scanTag token s).IsPlain := by
  unfold scanTag
  split
  · next reading read => exact isPlain_single _ (plain reading read) _
  · exact isPlain_nothing []

theorem isPlain_scanDeclaration (foreign : Bool) (s : List Char) :
    (scanDeclaration foreign s).IsPlain := by
  unfold scanDeclaration
  split
  · exact isPlain_single _ (by trivial) _
  · split
    · exact isPlain_single _ (by trivial) _
    · split
      · exact isPlain_characters _ _
      · exact isPlain_single _ (by trivial) _

theorem isPlain_scanEnd (s : List Char) : (scanEnd s).IsPlain := by
  unfold scanEnd
  split
  · exact isPlain_characters ['<', '/'] []
  · exact isPlain_nothing _
  · split
    · exact isPlain_scanTag fun _ _ => trivial
    · exact isPlain_single _ (by trivial) _

theorem isPlain_scanBracket (foreign : Bool) (s : List Char) : (scanBracket foreign s).IsPlain := by
  unfold scanBracket
  split
  · exact isPlain_scanDeclaration foreign _
  · exact isPlain_scanEnd _
  · exact isPlain_single _ (by trivial) _
  · split
    · next letter =>
        apply isPlain_scanTag
        exact fun _ => isPlainName_readTag? letter
    · exact isPlain_single _ (by trivial) _
  · exact isPlain_single _ (by trivial) _

theorem isPlain_scanMarkup (foreign : Bool) (s : List Char) : (scanMarkup foreign s).IsPlain := by
  unfold scanMarkup
  split
  · exact isPlain_nothing _
  · exact isPlain_scanBracket foreign _
  · split
    · exact isPlain_characters _ _
    · exact isPlain_single _ (by trivial) _
  · exact isPlain_single _ (by trivial) _

theorem isPlain_scan (model : ContentModel) (foreign : Bool) (s : List Char) :
    (scan model foreign s).IsPlain := by
  unfold scan
  split
  · exact isPlain_scanMarkup foreign s
  · intro token member
    rcases List.mem_append.1 member with text | closing
    · exact isPlain_characters _ [] token text
    · have plain : (scanClosing (model.split s).rest).IsPlain := isPlain_scanTag fun _ _ => trivial
      exact plain token closing

end ComputedStyle.Html
