import ComputedStyle.Json
import ComputedStyle.Proofs.Json.Grammar

namespace ComputedStyle

open Number Text

namespace Number

theorem isZero_of_head?_digitsOf {n : Nat} (zero : (digitsOf n).head? = some '0') : n = 0 := by
  induction n using Nat.strong_induction_on with
  | _ n ih =>
      rw [digitsOf, Nat.toDigits_eq_if (by decide)] at zero
      split at zero
      · next small =>
          interval_cases n
          · rfl
          all_goals exact absurd zero (by decide)
      · next large =>
          rw [List.head?_append_of_ne_nil _ Nat.toDigits_ne_nil] at zero
          have front := ih (n / 10) (by omega) zero
          omega

theorem Decimal.read?_digitsOf (n : Nat) : Decimal.read? (digitsOf n) = some ⟨false, n, 0⟩ := by
  have numeral := isNumeral_digitsOf n
  have nothing : ∀ c ∈ ([] : List Char).head?, c.isDigit = false := nofun
  have run := span_run numeral.digits nothing
  rw [List.append_nil] at run
  have spelled := SpellsDecimal.intro _ [] (.whole _ numeral) .one
  rw [List.append_nil] at spelled
  simp only [Decimal.read?, takeSign_of_isUnsigned spelled.isUnsigned, run.1, run.2]
  simp [numeral.nonempty, ofParts, ofDigits_digitsOf]

end Number

namespace Json

variable {v : Json} {s : List Char} {α : Type}
  {item : α → List Char → Prop} {items : List α} {texts : List (List Char)}

theorem Spells.isText (spells : Spells v s) : IsText v s := by
  have alone := IsText.intro v [] s [] (List.forall_mem_nil _) spells (List.forall_mem_nil _)
  rwa [List.nil_append, List.append_nil] at alone

theorem isNumber_digitsOf (n : Nat) : IsNumber (digitsOf n) := by
  have lead : (digitsOf n).head? = some '0' → digitsOf n = ['0'] := fun zero => by
    rw [isZero_of_head?_digitsOf zero]
    rfl
  have form := IsNumber.intro [] (digitsOf n) [] [] (.inl rfl) (isNumeral_digitsOf n) lead
    (.inl rfl) .one
  rwa [List.nil_append, List.append_nil, List.append_nil] at form

theorem spells_digitsOf (n : Nat) : Spells (nat n) (digitsOf n) :=
  .number _ _ (isNumber_digitsOf n) (Decimal.read?_digitsOf n)

theorem spells_toString (n : Nat) : Spells (nat n) (toString n).toList := by
  rw [Nat.toString_eq_repr, Nat.repr_eq_ofList_toDigits, String.toList_ofList]
  exact spells_digitsOf n

theorem isList_intercalate (each : List.Forall₂ item items texts) :
    IsList item items ([','].intercalate texts) := by
  induction each with
  | nil => exact .empty [] (List.forall_mem_nil _)
  | @cons a s items texts own rest ih =>
      cases rest with
      | nil =>
          rw [List.intercalate_singleton]
          exact .last a s own
      | cons next others =>
          rw [List.intercalate_cons_cons, List.append_assoc]
          exact .more a _ s _ _ own ih

end Json

namespace JsonValue

open Json

variable {value : String} {v : Json}

theorem toList_quote (s : String) :
    (JsonString.quote s).toList = '"' :: (JsonString.encode s.toList ++ ['"']) := by
  simp [JsonString.quote]

theorem toList_commaSeparated (parts : List String) :
    (commaSeparated parts).toList = [','].intercalate (parts.map String.toList) :=
  String.toList_intercalate

theorem toList_braced (inside : String) : (braced inside).toList = '{' :: (inside.toList ++ ['}']) := by
  simp [braced]

theorem isMember_member (name : String) (spells : Spells v value.toList) :
    IsMember (name, v) (member name value).toList := by
  have member := IsMember.intro name v [] (JsonString.encode name.toList) [] value.toList
    (List.forall_mem_nil _) (JsonString.decode_encode _) (List.forall_mem_nil _) spells.isText
  simpa [JsonValue.member, toList_quote] using member

theorem spells_braced {members : List (String × Json)} {parts : List String}
    (each : List.Forall₂ (fun member part => IsMember member part.toList) members parts) :
    Spells (.object members) (braced (commaSeparated parts)).toList := by
  rw [toList_braced, toList_commaSeparated]
  exact .object _ _ (isList_intercalate (List.forall₂_map_right_iff.2 each))

@[simp] theorem spells_text (value : String) : Spells (.text value) (text value).render.toList := by
  rw [render, toList_quote]
  exact .text _ _ (JsonString.decode_encode _)

@[simp] theorem spells_nat (n : Nat) : Spells (.nat n) (nat n).render.toList :=
  spells_toString n

@[simp] theorem spells_flag (value : Bool) : Spells (.flag value) (flag value).render.toList :=
  .flag value

@[simp] theorem spells_numbers (values : List Nat) :
    Spells (.array (values.map Json.nat)) (numbers values).render.toList := by
  have each : List.Forall₂ IsText (values.map Json.nat)
      ((values.map toString).map String.toList) := by
    rw [List.map_map, List.forall₂_map_left_iff, List.forall₂_map_right_iff]
    exact List.forall₂_same.2 fun n _ => (spells_toString n).isText
  have inside := Spells.array _ _ (isList_intercalate each)
  simpa [render, toList_commaSeparated] using inside

@[simp] theorem spells_counts (entries : List (String × Nat)) :
    Spells (.object (entries.map fun (name, n) => (name, .nat n))) (counts entries).render.toList := by
  rw [render]
  apply spells_braced
  rw [List.forall₂_map_left_iff, List.forall₂_map_right_iff]
  exact List.forall₂_same.2 fun entry _ => isMember_member entry.1 (spells_toString entry.2)

theorem spells_renderObject {members : List (String × Json)} {written : List (String × JsonValue)}
    (each : List.Forall₂ (fun member part =>
      member.1 = part.1 ∧ Spells member.2 part.2.render.toList) members written) :
    Spells (.object members) (renderObject written).toList := by
  apply spells_braced
  rw [List.forall₂_map_right_iff]
  refine each.imp fun member part same => ?_
  obtain ⟨name, v⟩ := member
  obtain ⟨rfl, spells⟩ := same
  exact isMember_member part.1 spells

end JsonValue

end ComputedStyle
