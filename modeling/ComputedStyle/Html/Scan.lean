import ComputedStyle.Html.Doctype
import ComputedStyle.Html.RawText

namespace ComputedStyle.Html

open Text

/-- The tokens of a step, and the text after it. -/
structure Scanned where
  tokens : List Token
  rest : List Char

def closeComment : List Char → List Char
  | '-' :: '-' :: '>' :: s => s
  | '-' :: '-' :: '!' :: '>' :: s => s
  | _ :: s => closeComment s
  | [] => []

/-- The text after a comment that is open; a bracket right at its start closes it, too. -/
def afterComment : List Char → List Char
  | '>' :: s => s
  | '-' :: '>' :: s => s
  | s => closeComment s

/-- Cuts a text at the end of a verbatim section. -/
def sectionText : List Char → Split
  | ']' :: ']' :: '>' :: s => ⟨[], s⟩
  | c :: s => (sectionText s).push c
  | [] => ⟨[], []⟩

def sectionMark : List Char := "[CDATA[".toList

/-- Reads what follows `<!`. -/
def scanDeclaration (foreign : Bool) (s : List Char) : Scanned :=
  match after? ['-', '-'] s with
  | some rest => ⟨[.comment], afterComment rest⟩
  | none =>
      match Doctype.afterWord? "doctype" s with
      | some rest => ⟨[.doctype (.read rest)], afterBracket rest⟩
      | none =>
          match if foreign then after? sectionMark s else none with
          | some rest => ⟨(sectionText rest).text.map .character, (sectionText rest).rest⟩
          | none => ⟨[.comment], afterBracket s⟩

/-- Reads a tag from its name; one that is cut off takes all the text with it. -/
def scanTag (token : Tag → Token) (s : List Char) : Scanned :=
  match readTag? s with
  | some reading => ⟨[token reading.tag], reading.rest⟩
  | none => ⟨[], []⟩

def endTagToken (tag : Tag) : Token :=
  .endTag tag.name

def scanEnd : List Char → Scanned
  | [] => ⟨[.character '<', .character '/'], []⟩
  | '>' :: s => ⟨[], s⟩
  | c :: s =>
      if c.isAlpha then scanTag endTagToken (c :: s) else ⟨[.comment], afterBracket (c :: s)⟩

/-- Reads what follows `<`. -/
def scanBracket (foreign : Bool) : List Char → Scanned
  | '!' :: s => scanDeclaration foreign s
  | '/' :: s => scanEnd s
  | '?' :: s => ⟨[.comment], afterBracket s⟩
  | c :: s => if c.isAlpha then scanTag .startTag (c :: s) else ⟨[.character '<'], c :: s⟩
  | [] => ⟨[.character '<'], []⟩

/-- Reads a tag, a declaration or a character. -/
def scanMarkup (foreign : Bool) : List Char → Scanned
  | [] => ⟨[], []⟩
  | '<' :: s => scanBracket foreign s
  | '&' :: s =>
      match Reference.read? false s with
      | some reference => ⟨reference.text.map .character, reference.rest⟩
      | none => ⟨[.character '&'], s⟩
  | c :: s => ⟨[.character c], s⟩

/-- Reads the end tag after the text of an element. -/
def scanClosing (s : List Char) : Scanned :=
  scanTag endTagToken (s.drop 2)

/-- Reads the next tokens. `foreign` tells whether verbatim sections may occur. -/
def scan (model : ContentModel) (foreign : Bool) (s : List Char) : Scanned :=
  match model with
  | .markup => scanMarkup foreign s
  | _ =>
      let split := model.split s
      let closing := scanClosing split.rest
      ⟨split.text.map .character ++ closing.tokens, closing.rest⟩

theorem length_closeComment_le (s : List Char) : (closeComment s).length ≤ s.length := by
  fun_induction closeComment s with
  | case1 => simp only [List.length_cons]; omega
  | case2 => simp only [List.length_cons]; omega
  | case3 => simp only [List.length_cons]; omega
  | case4 => exact Nat.le_refl _

theorem length_afterComment_le (s : List Char) : (afterComment s).length ≤ s.length := by
  unfold afterComment
  split
  · simp
  · simp only [List.length_cons]; omega
  · exact length_closeComment_le s

theorem length_sectionText_le (s : List Char) : (sectionText s).rest.length ≤ s.length := by
  fun_induction sectionText s with
  | case1 => simp only [List.length_cons]; omega
  | case2 => simp only [Split.push, List.length_cons]; omega
  | case3 => exact Nat.le_refl _

theorem length_after?_le {lead s rest : List Char} (h : after? lead s = some rest) :
    rest.length ≤ s.length := by
  unfold after? at h
  split at h
  · injection h with h
    subst h
    simp
  · simp at h

theorem Doctype.length_afterWord?_le {word : String} {s rest : List Char}
    (h : afterWord? word s = some rest) : rest.length ≤ s.length := by
  simp only [afterWord?] at h
  split at h
  · injection h with h
    subst h
    simp
  · simp at h

theorem length_scanDeclaration_le (foreign : Bool) (s : List Char) :
    (scanDeclaration foreign s).rest.length ≤ s.length := by
  unfold scanDeclaration
  split
  · next rest found =>
      exact Nat.le_trans (length_afterComment_le rest) (length_after?_le found)
  · split
    · next rest found =>
        exact Nat.le_trans (length_afterBracket_le rest) (Doctype.length_afterWord?_le found)
    · split
      · next rest found =>
          cases foreign with
          | false => simp at found
          | true =>
              exact Nat.le_trans (length_sectionText_le rest) (length_after?_le found)
      · exact length_afterBracket_le s

theorem length_scanTag_le (token : Tag → Token) (s : List Char) :
    (scanTag token s).rest.length ≤ s.length - 1 := by
  unfold scanTag
  split
  · next reading found =>
      have := readTag?_length found
      exact Nat.le_sub_one_of_lt this
  · exact Nat.zero_le _

theorem length_scanEnd_le (s : List Char) : (scanEnd s).rest.length ≤ s.length := by
  unfold scanEnd
  split
  · exact Nat.le_refl _
  · simp
  · split
    · exact Nat.le_trans (length_scanTag_le _ _) (Nat.sub_le _ _)
    · exact length_afterBracket_le _

theorem length_scanBracket_le (foreign : Bool) (s : List Char) :
    (scanBracket foreign s).rest.length ≤ s.length := by
  unfold scanBracket
  split
  · exact Nat.le_succ_of_le (length_scanDeclaration_le _ _)
  · exact Nat.le_succ_of_le (length_scanEnd_le _)
  · exact Nat.le_succ_of_le (length_afterBracket_le _)
  · split
    · exact Nat.le_trans (length_scanTag_le _ _) (Nat.sub_le _ _)
    · exact Nat.le_refl _
  · exact Nat.le_refl _

theorem length_scanMarkup_lt (foreign : Bool) {s : List Char} (h : s ≠ []) :
    (scanMarkup foreign s).rest.length < s.length := by
  unfold scanMarkup
  split
  · exact absurd rfl h
  · exact Nat.lt_succ_of_le (length_scanBracket_le _ _)
  · split
    · next found => exact Nat.lt_succ_of_le (Reference.read?_length found)
    · simp
  · simp

theorem length_scanClosing_le (s : List Char) :
    (scanClosing s).rest.length ≤ s.length - 1 := by
  have bound := length_scanTag_le endTagToken (s.drop 2)
  simp only [List.length_drop] at bound
  unfold scanClosing
  omega

theorem length_scan_lt (model : ContentModel) (foreign : Bool) {s : List Char} (h : s ≠ []) :
    (scan model foreign s).rest.length < s.length := by
  have bound := model.length_split_le s
  have closing := length_scanClosing_le (model.split s).rest
  have positive := List.length_pos_iff.2 h
  unfold scan
  split
  · exact length_scanMarkup_lt foreign h
  · simp only
    omega

end ComputedStyle.Html
