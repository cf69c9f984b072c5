import ComputedStyle.Proofs.Number.Spelling
import ComputedStyle.Proofs.Text.JsonString

/-!
JSON texts.

`Json.IsText` is the grammar of JSON: which texts a value has, with blanks wherever JSON allows them.
No text has two values (`Json.IsText.unique`).
-/

namespace ComputedStyle

open Number Text

/-- A number is given by its digits and a power of ten. An object keeps the order of its members, and
a name may come twice. -/
inductive Json where
  | null
  | flag (value : Bool)
  | number (value : Decimal)
  | text (value : String)
  | array (items : List Json)
  | object (members : List (String × Json))

namespace Json

def nat (n : Nat) : Json := .number ⟨false, n, 0⟩

def isBlank (c : Char) : Bool :=
  c ∈ [' ', '\t', '\n', '\r']

def IsBlanks (s : List Char) : Prop :=
  ∀ c ∈ s, isBlank c

/-- The whole part has no zero in front that could be left out. -/
inductive IsNumber : List Char → Prop where
  | intro (sign whole fraction power : List Char) (minus : sign = [] ∨ sign = ['-'])
      (digits : IsNumeral whole) (lead : whole.head? = some '0' → whole = ['0'])
      (point : fraction = [] ∨ ∃ places, IsNumeral places ∧ fraction = '.' :: places)
      (raised : SpellsPower power) : IsNumber (sign ++ (whole ++ (fraction ++ power)))

/-- What stands between two brackets: blanks, or items with commas between them. -/
inductive IsList {α : Type} (item : α → List Char → Prop) : List α → List Char → Prop where
  | empty (blanks : List Char) (blank : IsBlanks blanks) : IsList item [] blanks
  | last (a : α) (s : List Char) (own : item a s) : IsList item [a] s
  | more (a b : α) (s t : List Char) (items : List α) (own : item a s)
      (rest : IsList item (b :: items) t) : IsList item (a :: b :: items) (s ++ ',' :: t)

mutual

/-- A text of a value without blanks around it. -/
inductive Spells : Json → List Char → Prop where
  | null : Spells .null "null".toList
  | flag (value : Bool) : Spells (.flag value) (if value then "true" else "false").toList
  | number (value : Decimal) (s : List Char) (form : IsNumber s)
      (read : Decimal.read? s = some value) : Spells (.number value) s
  | text (value : String) (s : List Char) (read : JsonString.decode s = some value.toList) :
      Spells (.text value) ('"' :: (s ++ ['"']))
  | array (items : List Json) (s : List Char) (inside : IsList IsText items s) :
      Spells (.array items) ('[' :: (s ++ [']']))
  | object (members : List (String × Json)) (s : List Char)
      (inside : IsList IsMember members s) : Spells (.object members) ('{' :: (s ++ ['}']))

/-- A text of a value. -/
inductive IsText : Json → List Char → Prop where
  | intro (value : Json) (before s after : List Char) (left : IsBlanks before)
      (spells : Spells value s) (right : IsBlanks after) : IsText value (before ++ (s ++ after))

inductive IsMember : String × Json → List Char → Prop where
  | intro (name : String) (value : Json) (before s after t : List Char) (left : IsBlanks before)
      (read : JsonString.decode s = some name.toList) (right : IsBlanks after)
      (own : IsText value t) :
      IsMember (name, value) (before ++ '"' :: (s ++ '"' :: (after ++ ':' :: t)))

end

variable {α : Type} {item : α → List Char → Prop} {a b : α} {items others : List α}
  {c d close : Char} {s t x y before after : List Char} {v w : Json} {n : Nat}

theorem run_unique {p : Char → Bool} (first : ∀ c ∈ s, p c) (second : ∀ c ∈ t, p c)
    (left : ∀ c ∈ x.head?, p c = false) (right : ∀ c ∈ y.head?, p c = false)
    (same : s ++ x = t ++ y) : s = t ∧ x = y := by
  have front := (span_run first left).1
  rw [same, (span_run second right).1] at front
  subst front
  exact ⟨rfl, List.append_cancel_left same⟩

theorem blanks_unique (first : IsBlanks s) (second : IsBlanks t) (left : isBlank c = false)
    (right : isBlank d = false) (same : s ++ c :: x = t ++ d :: y) : s = t ∧ c = d ∧ x = y := by
  obtain ⟨front, rest⟩ := run_unique first second (x := c :: x) (y := d :: y)
    (by rintro _ ⟨⟩; exact left) (by rintro _ ⟨⟩; exact right) same
  exact ⟨front, List.cons.inj rest⟩

def isNumeric (c : Char) : Bool :=
  c.isDigit || c ∈ ['-', '+', '.', 'e', 'E']

theorem isNumeric_of_isNumeral (numeral : IsNumeral s) : ∀ c ∈ s, isNumeric c := fun c member => by
  rw [isNumeric, numeral.digits c member, Bool.true_or]

theorem isNumeric_of_spellsPower (raised : SpellsPower s) : ∀ c ∈ s, isNumeric c := by
  have signed : ∀ {n t}, SpelledInteger n t → ∀ c ∈ t, isNumeric c := by
    intro n t spelled
    cases spelled with
    | unsigned _ numeral => exact isNumeric_of_isNumeral numeral
    | signed _ _ spelled =>
        cases spelled with
        | plus digits numeral =>
            exact List.forall_mem_cons.2 ⟨rfl, isNumeric_of_isNumeral numeral⟩
        | minus digits numeral =>
            exact List.forall_mem_cons.2 ⟨rfl, isNumeric_of_isNumeral numeral⟩
  cases raised with
  | one => exact List.forall_mem_nil _
  | power mark n s isMark spelled =>
      refine List.forall_mem_cons.2 ⟨?_, signed spelled⟩
      rcases isMark with rfl | rfl
      · rfl
      · rfl

theorem IsNumber.isNumeric (form : IsNumber s) : ∀ c ∈ s, isNumeric c := by
  obtain ⟨sign, whole, fraction, power, minus, digits, -, point, raised⟩ := form
  simp only [List.forall_mem_append]
  refine ⟨?_, isNumeric_of_isNumeral digits, ?_, isNumeric_of_spellsPower raised⟩
  · rcases minus with rfl | rfl
    · exact List.forall_mem_nil _
    · exact List.forall_mem_singleton.2 rfl
  · rcases point with rfl | ⟨places, numeral, rfl⟩
    · exact List.forall_mem_nil _
    · exact List.forall_mem_cons.2 ⟨rfl, isNumeric_of_isNumeral numeral⟩

theorem IsNumber.head (form : IsNumber s) : ∃ c rest, s = c :: rest ∧ (c = '-' ∨ c.isDigit) := by
  obtain ⟨sign, whole, fraction, power, minus, digits, -, -, -⟩ := form
  rcases minus with rfl | rfl
  · obtain ⟨c, rest, rfl⟩ := List.exists_cons_of_ne_nil digits.nonempty
    exact ⟨c, _, rfl, .inr (digits.digits c List.mem_cons_self)⟩
  · exact ⟨'-', _, rfl, .inl rfl⟩

theorem IsNumber.exists_value (form : IsNumber s) : ∃ value, Decimal.read? s = some value := by
  obtain ⟨sign, whole, fraction, power, minus, digits, -, point, raised⟩ := form
  have spelled : SpellsDecimal (whole ++ (fraction ++ power)) := by
    rcases point with rfl | ⟨places, numeral, rfl⟩
    · exact .intro whole power (.whole whole digits) raised
    · have mantissa := SpellsMantissa.pointed whole places
        (List.forall_mem_append.2 ⟨digits.digits, numeral.digits⟩) (by simp [digits.nonempty])
      rw [← List.append_assoc]
      exact .intro _ power mantissa raised
  have signed : Signed SpellsDecimal (sign ++ (whole ++ (fraction ++ power))) := by
    rcases minus with rfl | rfl
    · exact .plain _ spelled
    · exact .signed '-' _ (.inr rfl) spelled
  have unsigned := (signed_iff_takeSign fun _ spelled => spelled.isUnsigned).1 signed
  exact Option.isSome_iff_exists.1 (Decimal.isSome_read?_iff.2 unsigned)

inductive Kind where
  | null
  | flag
  | number
  | text
  | array
  | object
  deriving DecidableEq

def kind : Json → Kind
  | null => .null
  | flag _ => .flag
  | number _ => .number
  | text _ => .text
  | array _ => .array
  | object _ => .object

/-- The kind of the values whose texts start with a character. -/
def kindOf? (c : Char) : Option Kind :=
  if c = 'n' then some .null
  else if c = 't' ∨ c = 'f' then some .flag
  else if c = '"' then some .text
  else if c = '[' then some .array
  else if c = '{' then some .object
  else if c = '-' ∨ c.isDigit then some .number
  else none

theorem kindOf?_of_isDigit (digit : c.isDigit) : kindOf? c = some .number := by
  have other : ∀ d, d.isDigit = false → c ≠ d := by
    rintro d letter rfl
    rw [letter] at digit
    cases digit
  simp [kindOf?, digit, other 'n' rfl, other 't' rfl, other 'f' rfl, other '"' rfl, other '[' rfl,
    other '{' rfl]

theorem Spells.head (spells : Spells v s) : ∃ c rest, s = c :: rest ∧ kindOf? c = some v.kind := by
  cases spells with
  | null => exact ⟨_, _, rfl, rfl⟩
  | flag value =>
      cases value with
      | true => exact ⟨_, _, rfl, rfl⟩
      | false => exact ⟨_, _, rfl, rfl⟩
  | number _ _ form _ =>
      obtain ⟨c, rest, same, rfl | digit⟩ := form.head
      · exact ⟨_, rest, same, rfl⟩
      · exact ⟨c, rest, same, kindOf?_of_isDigit digit⟩
  | text _ _ _ => exact ⟨_, _, rfl, rfl⟩
  | array _ _ _ => exact ⟨_, _, rfl, rfl⟩
  | object _ _ _ => exact ⟨_, _, rfl, rfl⟩

theorem kindOf?_of_isBlank (blank : isBlank c) : kindOf? c = none := by
  have each : ∀ c ∈ [' ', '\t', '\n', '\r'], kindOf? c = none := by simp [kindOf?]
  exact each c (of_decide_eq_true blank)

theorem not_isBlank_of_kindOf? {kind : Kind} (known : kindOf? c = some kind) :
    isBlank c = false := by
  by_contra blank
  rw [kindOf?_of_isBlank (Bool.not_eq_false _ ▸ blank)] at known
  cases known

/-- What may follow an item of a list. -/
def marks : List Char := [',', ']', '}']

theorem kindOf?_of_mem_marks (mark : c ∈ marks) : kindOf? c = none := by
  have each : ∀ c ∈ marks, kindOf? c = none := by simp [marks, kindOf?]
  exact each c mark

theorem not_isBlank_of_mem_marks (mark : c ∈ marks) : isBlank c = false := by
  have each : ∀ c ∈ marks, isBlank c = false := by simp [marks, isBlank]
  exact each c mark

/-- The text is over, or goes on with a comma or a closing bracket. -/
def Ends (s : List Char) : Prop :=
  ∀ c ∈ s.head?, c ∈ marks

/-- Texts of items shorter than `n` are told apart from what follows them, and have one item. -/
def AreClear (item : α → List Char → Prop) (n : Nat) : Prop :=
  ∀ a b s t x y, s.length < n → item a s → item b t → Ends x → Ends y → s ++ x = t ++ y →
    a = b ∧ s = t

/-- No text of an item is blanks up to one of the marks. -/
def AreVisible (item : α → List Char → Prop) : Prop :=
  ∀ a s blanks x y, ∀ mark ∈ marks, item a s → IsBlanks blanks → blanks ++ mark :: x ≠ s ++ y

theorem areVisible_text : AreVisible IsText := by
  intro v s blanks x y mark listed own blank same
  obtain ⟨_, before, core, after, left, spells, -⟩ := own
  obtain ⟨c, rest, rfl, known⟩ := spells.head
  simp only [List.append_assoc, List.cons_append] at same
  obtain ⟨-, rfl, -⟩ := blanks_unique blank left (not_isBlank_of_mem_marks listed)
    (not_isBlank_of_kindOf? known) same
  rw [kindOf?_of_mem_marks listed] at known
  cases known

theorem areVisible_member : AreVisible IsMember := by
  intro member s blanks x y mark listed own blank same
  obtain ⟨name, value, before, s, after, t, left, -, -, -⟩ := own
  simp only [List.append_assoc, List.cons_append] at same
  obtain ⟨-, rfl, -⟩ := blanks_unique blank left (not_isBlank_of_mem_marks listed) rfl same
  exact absurd listed (by decide)

theorem IsList.unique (clear : AreClear item n) (visible : AreVisible item)
    (closing : close ∈ [']', '}']) (first : IsList item items s) (second : IsList item others t)
    (short : s.length < n) (same : s ++ close :: x = t ++ close :: y) : items = others ∧ s = t := by
  have mark : close ∈ marks := List.mem_cons_of_mem _ closing
  have other : close ≠ ',' := by
    rintro rfl
    exact absurd closing (by decide)
  have ends : ∀ {c : Char} (z : List Char), c ∈ marks → Ends (c :: z) := by
    rintro c z listed _ ⟨⟩
    exact listed
  have comma : ',' ∈ marks := List.mem_cons_self
  induction first generalizing others t with
  | empty blanks blank =>
      cases second with
      | empty blanks' blank' =>
          have free := not_isBlank_of_mem_marks mark
          exact ⟨rfl, (blanks_unique blank blank' free free same).1⟩
      | last b t own => exact absurd same (visible b t blanks x _ close mark own blank)
      | more b b' t u rest own _ =>
          rw [List.append_assoc] at same
          exact absurd same (visible b t blanks x _ close mark own blank)
  | last a s own =>
      cases second with
      | empty _ blank => exact absurd same.symm (visible a s t y _ close mark own blank)
      | last b t own' =>
          obtain ⟨rfl, rfl⟩ := clear a b s t _ _ short own own' (ends _ mark) (ends _ mark) same
          exact ⟨rfl, rfl⟩
      | more b b' t u rest own' _ =>
          rw [List.append_assoc] at same
          obtain ⟨rfl, rfl⟩ := clear a b s t _ _ short own own' (ends _ mark) (ends _ comma) same
          exact absurd (List.cons.inj (List.append_cancel_left same)).1 other
  | more a a' s u items own rest ih =>
      rw [List.length_append, List.length_cons] at short
      have head : s.length < n := by omega
      rw [List.append_assoc] at same
      cases second with
      | empty _ blank => exact absurd same.symm (visible a s t y _ close mark own blank)
      | last b _ own' =>
          obtain ⟨rfl, rfl⟩ := clear a b s t _ _ head own own' (ends _ comma) (ends _ mark) same
          exact absurd (List.cons.inj (List.append_cancel_left same)).1.symm other
      | more b b' t z others own' rest' =>
          rw [List.append_assoc] at same
          obtain ⟨rfl, rfl⟩ := clear a b s t _ _ head own own' (ends _ comma) (ends _ comma) same
          have later := (List.cons.inj (List.append_cancel_left same)).2
          obtain ⟨tail, text⟩ := ih rest' (by omega) later
          rw [tail, text]
          exact ⟨rfl, rfl⟩

theorem append_of_enclosed (same : c :: (s ++ [d]) ++ x = c :: (t ++ [d]) ++ y) :
    s ++ d :: x = t ++ d :: y := by
  simpa using same

theorem Spells.unique (texts : AreClear IsText n) (members : AreClear IsMember n)
    (first : Spells v s) (second : Spells w t) (short : s.length ≤ n)
    (left : ∀ c ∈ x.head?, isNumeric c = false) (right : ∀ c ∈ y.head?, isNumeric c = false)
    (same : s ++ x = t ++ y) : v = w ∧ s = t := by
  have kinds : v.kind = w.kind := by
    obtain ⟨c, rest, rfl, known⟩ := first.head
    obtain ⟨d, rest', rfl, known'⟩ := second.head
    obtain ⟨rfl, -⟩ := List.cons.inj same
    exact Option.some.inj (known.symm.trans known')
  cases first with
  | null =>
      cases second with
      | null => exact ⟨rfl, rfl⟩
      | _ => cases kinds
  | flag value =>
      cases second with
      | flag other =>
          cases value with
          | true =>
              cases other with
              | true => exact ⟨rfl, rfl⟩
              | false => exact absurd (List.cons.inj same).1 (by decide)
          | false =>
              cases other with
              | true => exact absurd (List.cons.inj same).1 (by decide)
              | false => exact ⟨rfl, rfl⟩
      | _ => cases kinds
  | number value s form read =>
      cases second with
      | number other t form' read' =>
          obtain ⟨rfl, -⟩ := run_unique form.isNumeric form'.isNumeric left right same
          rw [read, Option.some.injEq] at read'
          rw [read']
          exact ⟨rfl, rfl⟩
      | _ => cases kinds
  | text value s read =>
      cases second with
      | text other t read' =>
          obtain rfl := (JsonString.isEscaped_of_decode read).eq_of_append
            (JsonString.isEscaped_of_decode read') (append_of_enclosed same)
          rw [read, Option.some.injEq, String.toList_inj] at read'
          rw [read']
          exact ⟨rfl, rfl⟩
      | _ => cases kinds
  | array items s inside =>
      cases second with
      | array others t inside' =>
          simp only [List.length_cons, List.length_append] at short
          obtain ⟨rfl, rfl⟩ := inside.unique texts areVisible_text (by decide) inside' (by omega)
            (append_of_enclosed same)
          exact ⟨rfl, rfl⟩
      | _ => cases kinds
  | object items s inside =>
      cases second with
      | object others t inside' =>
          simp only [List.length_cons, List.length_append] at short
          obtain ⟨rfl, rfl⟩ := inside.unique members areVisible_member (by decide) inside' (by omega)
            (append_of_enclosed same)
          exact ⟨rfl, rfl⟩
      | _ => cases kinds

theorem not_isNumeric_of_isBlank (blank : isBlank c) : isNumeric c = false := by
  have each : ∀ c ∈ [' ', '\t', '\n', '\r'], isNumeric c = false := by simp [isNumeric]
  exact each c (of_decide_eq_true blank)

theorem not_isNumeric_of_mem_marks (mark : c ∈ marks) : isNumeric c = false := by
  have each : ∀ c ∈ marks, isNumeric c = false := by simp [marks, isNumeric]
  exact each c mark

theorem Ends.not_isNumeric (ends : Ends x) (blank : IsBlanks s) :
    ∀ c ∈ (s ++ x).head?, isNumeric c = false := by
  intro c first
  cases s with
  | nil => exact not_isNumeric_of_mem_marks (ends c first)
  | cons d rest =>
      cases first
      exact not_isNumeric_of_isBlank (blank c List.mem_cons_self)

theorem Ends.not_isBlank (ends : Ends x) : ∀ c ∈ x.head?, isBlank c = false :=
  fun c first => not_isBlank_of_mem_marks (ends c first)

theorem areClear_text (texts : AreClear IsText n) (members : AreClear IsMember n) :
    AreClear IsText (n + 1) := by
  intro v w s t x y short own own' ends ends' same
  obtain ⟨_, before, s, after, left, spells, right⟩ := own
  obtain ⟨_, before', t, after', left', spells', right'⟩ := own'
  simp only [List.length_append] at short
  obtain ⟨c, rest, front, known⟩ := spells.head
  obtain ⟨d, rest', front', known'⟩ := spells'.head
  have cores : before = before' ∧ s ++ (after ++ x) = t ++ (after' ++ y) := by
    simp only [List.append_assoc] at same
    rw [front, front', List.cons_append, List.cons_append] at same ⊢
    obtain ⟨blanks, rfl, later⟩ := blanks_unique left left' (not_isBlank_of_kindOf? known)
      (not_isBlank_of_kindOf? known') same
    exact ⟨blanks, by rw [later]⟩
  obtain ⟨rfl, rfl⟩ := spells.unique texts members spells' (by omega) (ends.not_isNumeric right)
    (ends'.not_isNumeric right') cores.2
  obtain ⟨last, -⟩ := run_unique right right' ends.not_isBlank ends'.not_isBlank
    (List.append_cancel_left cores.2)
  rw [cores.1, last]
  exact ⟨rfl, rfl⟩

theorem areClear_member (texts : AreClear IsText n) : AreClear IsMember (n + 1) := by
  intro member other s t x y short own own' ends ends' same
  obtain ⟨name, v, before, s, after, t, left, read, right, own⟩ := own
  obtain ⟨name', w, before', s', after', t', left', read', right', own'⟩ := own'
  simp only [List.length_append, List.length_cons] at short
  simp only [List.append_assoc, List.cons_append] at same
  obtain ⟨rfl, -, same⟩ := blanks_unique left left' rfl rfl same
  obtain rfl := (JsonString.isEscaped_of_decode read).eq_of_append
    (JsonString.isEscaped_of_decode read') same
  obtain ⟨rfl, -, same⟩ := blanks_unique right right' rfl rfl
    (List.cons.inj (List.append_cancel_left same)).2
  obtain ⟨rfl, rfl⟩ := texts v w t t' x y (by omega) own own' ends ends' same
  rw [read, Option.some.injEq, String.toList_inj] at read'
  rw [read']
  exact ⟨rfl, rfl⟩

theorem areClear (n : Nat) : AreClear IsText n ∧ AreClear IsMember n := by
  induction n with
  | zero => exact ⟨fun _ _ _ _ _ _ => nofun, fun _ _ _ _ _ _ => nofun⟩
  | succ n ih => exact ⟨areClear_text ih.1 ih.2, areClear_member ih.1⟩

theorem IsText.unique (first : IsText v s) (second : IsText w s) : v = w :=
  ((areClear (s.length + 1)).1 v w s s [] [] (Nat.lt_succ_self _) first second nofun nofun rfl).1

end Json

end ComputedStyle
