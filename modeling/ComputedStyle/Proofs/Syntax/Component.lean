import Mathlib.Data.List.Basic
import ComputedStyle.Syntax.Component

namespace ComputedStyle.Syntax

namespace Component

mutual

def lexemes : Component → List Lexeme
  | .single lexeme => [lexeme]
  | .block opener contents closer => opener :: lexemesOf contents ++ closer.toList

def lexemesOf : List Component → List Lexeme
  | [] => []
  | component :: rest => component.lexemes ++ lexemesOf rest

end

theorem lexemesOf_append (components others : List Component) :
    lexemesOf (components ++ others) = lexemesOf components ++ lexemesOf others := by
  induction components with
  | nil => rfl
  | cons component rest ih => rw [List.cons_append, lexemesOf, ih, lexemesOf, List.append_assoc]

theorem lexemesOf_singleton (component : Component) : lexemesOf [component] = component.lexemes :=
  List.append_nil _

theorem lexemesOf_eq_flatMap (components : List Component) :
    lexemesOf components = components.flatMap lexemes := by
  induction components with
  | nil => rfl
  | cons component rest ih => rw [lexemesOf, ih, List.flatMap_cons]

mutual

theorem text_eq_flatMap : (component : Component) →
    component.text = component.lexemes.flatMap Lexeme.text
  | .single lexeme => (List.append_nil lexeme.text).symm
  | .block opener contents closer => by
      rw [text, textOf_eq_flatMap contents, lexemes, List.flatMap_append, List.flatMap_cons]
      cases closer <;> simp

theorem textOf_eq_flatMap : (components : List Component) →
    textOf components = (lexemesOf components).flatMap Lexeme.text
  | [] => rfl
  | component :: rest => by
      rw [textOf, text_eq_flatMap component, textOf_eq_flatMap rest, lexemesOf, List.flatMap_append]

end

theorem curly?_eq_none {component : Component} (other : component.token ≠ .opening .curly) :
    component.curly? = none := by
  cases component with
  | single lexeme => rfl
  | block opener contents closer => exact if_neg other

/-- Blocks are opened and closed by brackets of one kind. -/
inductive IsMatched : Component → Prop where
  | single (lexeme : Lexeme) (plain : lexeme.token.opens? = none) : IsMatched (.single lexeme)
  | block (opener : Lexeme) (bracket : Bracket) (contents : List Component)
      (closer : Option Lexeme) (opens : opener.token.opens? = some bracket)
      (closes : ∀ last, closer = some last → last.token = .closing bracket)
      (inside : ∀ component ∈ contents, IsMatched component) :
      IsMatched (.block opener contents closer)

namespace Reader

def lexemesOfBlocks : List OpenBlock → List Lexeme
  | [] => []
  | inner :: outer => lexemesOfBlocks outer ++ lexemesOf inner.before.reverse ++ [inner.opener]

def lexemes (reader : Reader) : List Lexeme :=
  lexemesOfBlocks reader.blocks ++ lexemesOf reader.level.reverse

/-- All blocks are matched as far as they have been read. -/
structure IsMatched (reader : Reader) : Prop where
  level : ∀ component ∈ reader.level, component.IsMatched
  before : ∀ block ∈ reader.blocks, ∀ component ∈ block.before, component.IsMatched
  opens : ∀ block ∈ reader.blocks, block.opener.token.opens? = some block.bracket

variable {reader : Reader} {lexeme : Lexeme}

theorem lexemes_push (component : Component) :
    (reader.push component).lexemes = reader.lexemes ++ component.lexemes := by
  simp [lexemes, push, lexemesOf_append, lexemesOf_singleton]

theorem lexemes_step : (reader.step lexeme).lexemes = reader.lexemes ++ [lexeme] := by
  unfold step
  split
  · simp [lexemes, lexemesOfBlocks, lexemesOf]
  · split
    · next inner outer blocks =>
        split
        · simp [close, blocks, lexemes, lexemesOfBlocks, lexemesOf_append, lexemesOf,
            Component.lexemes]
        · exact lexemes_push (.single lexeme)
    · exact lexemes_push (.single lexeme)

theorem isMatched_push (matched : reader.IsMatched) {component : Component}
    (own : component.IsMatched) : (reader.push component).IsMatched where
  level := List.forall_mem_cons.2 ⟨own, matched.level⟩
  before := matched.before
  opens := matched.opens

theorem isMatched_step (lexeme : Lexeme) (matched : reader.IsMatched) :
    (reader.step lexeme).IsMatched := by
  unfold step
  split
  · next bracket opens =>
      refine ⟨List.forall_mem_nil _, ?_, ?_⟩
      · exact List.forall_mem_cons.2 ⟨matched.level, matched.before⟩
      · exact List.forall_mem_cons.2 ⟨opens, matched.opens⟩
  · next plain =>
      split
      · next inner outer blocks =>
          have before := List.forall_mem_cons.1 (blocks ▸ matched.before)
          have opens := List.forall_mem_cons.1 (blocks ▸ matched.opens)
          split
          · next closes =>
              rw [close, blocks]
              refine ⟨List.forall_mem_cons.2 ⟨?_, before.1⟩, before.2, opens.2⟩
              refine .block _ inner.bracket _ _ opens.1 ?_ ?_
              · rintro last ⟨⟩
                exact closes
              · exact fun component member => matched.level component (List.mem_reverse.1 member)
          · exact isMatched_push matched (.single lexeme plain)
      · exact isMatched_push matched (.single lexeme plain)

theorem lexemesOf_finishWith (blocks : List OpenBlock) (level : List Component) :
    lexemesOf (finishWith blocks level) = lexemesOfBlocks blocks ++ lexemesOf level.reverse := by
  induction blocks generalizing level with
  | nil => rfl
  | cons inner outer ih =>
      rw [finishWith, ih]
      simp [lexemesOfBlocks, lexemesOf_append, lexemesOf, Component.lexemes]

theorem isMatched_finish (matched : reader.IsMatched) :
    ∀ component ∈ reader.finish, component.IsMatched := by
  obtain ⟨blocks, level⟩ := reader
  rw [finish]
  induction blocks generalizing level with
  | nil => exact fun component member => matched.level component (List.mem_reverse.1 member)
  | cons inner outer ih =>
      have before := List.forall_mem_cons.1 matched.before
      have opens := List.forall_mem_cons.1 matched.opens
      refine ih _ ⟨List.forall_mem_cons.2 ⟨?_, before.1⟩, before.2, opens.2⟩
      refine .block _ inner.bracket _ _ opens.1 (by rintro _ ⟨⟩) ?_
      exact fun component member => matched.level component (List.mem_reverse.1 member)

theorem run_spec (lexemes : List Lexeme) (matched : reader.IsMatched) :
    (lexemes.foldl step reader).lexemes = reader.lexemes ++ lexemes ∧
      (lexemes.foldl step reader).IsMatched := by
  induction lexemes generalizing reader with
  | nil => exact ⟨(List.append_nil _).symm, matched⟩
  | cons lexeme rest ih =>
      obtain ⟨text, later⟩ := ih (isMatched_step lexeme matched)
      refine ⟨?_, later⟩
      rw [List.foldl_cons, text, lexemes_step, List.append_assoc]
      rfl

theorem isMatched_empty : empty.IsMatched :=
  ⟨List.forall_mem_nil _, List.forall_mem_nil _, List.forall_mem_nil _⟩

end Reader

theorem lexemesOf_read (s : List Char) : lexemesOf (read s) = Syntax.lexemes s := by
  have text := (Reader.run_spec (Syntax.lexemes s) Reader.isMatched_empty).1
  rw [read, ofLexemes, Reader.finish, Reader.lexemesOf_finishWith]
  exact text

theorem textOf_read (s : List Char) : textOf (read s) = s := by
  rw [textOf_eq_flatMap, lexemesOf_read, text_lexemes]

theorem isMatched_of_mem_read {s : List Char} {component : Component} (member : component ∈ read s) :
    component.IsMatched :=
  Reader.isMatched_finish (Reader.run_spec (Syntax.lexemes s) Reader.isMatched_empty).2 component
    member

theorem exists_single_of_mem_read {s : List Char} {component : Component}
    (member : component ∈ read s) (plain : component.token.opens? = none) :
    ∃ lexeme ∈ Syntax.lexemes s, component = .single lexeme := by
  cases isMatched_of_mem_read member with
  | single lexeme _ =>
      refine ⟨lexeme, ?_, rfl⟩
      rw [← lexemesOf_read, lexemesOf_eq_flatMap]
      exact List.mem_flatMap_of_mem member List.mem_cons_self
  | block opener bracket contents closer opens =>
      rw [token, opens] at plain
      cases plain

end Component

end ComputedStyle.Syntax
