import Mathlib
import ComputedStyle.Proofs.Syntax.Component
import ComputedStyle.Proofs.Syntax.Plain

namespace ComputedStyle.Syntax

variable {s t : List Char} {ls ms : List Lexeme} {cs ds : List Component}

namespace Component

namespace Reader

variable {base reader : Reader} {lexeme : Lexeme}

/-- What a reader holds on top of what another one holds. -/
def graft (base : Reader) : List OpenBlock → List Component → Reader
  | [], level => ⟨base.blocks, level ++ base.level⟩
  | inner :: outer, level =>
      let below := graft base outer inner.before
      ⟨⟨inner.bracket, inner.opener, below.level⟩ :: below.blocks, level⟩

def IsApart (base : Reader) (lexeme : Lexeme) : Prop :=
  ∀ inner ∈ base.blocks.head?, lexeme.token ≠ .closing inner.bracket

theorem step_of_opens {bracket : Bracket} (opens : lexeme.token.opens? = some bracket) :
    reader.step lexeme = ⟨⟨bracket, lexeme, reader.level⟩ :: reader.blocks, []⟩ := by
  simp only [step, opens]

theorem step_of_closes {inner : OpenBlock} {outer : List OpenBlock}
    (blocks : reader.blocks = inner :: outer) (closes : lexeme.token = .closing inner.bracket) :
    reader.step lexeme =
      ⟨outer, .block inner.opener reader.level.reverse (some lexeme) :: inner.before⟩ := by
  simp [step, close, blocks, closes, Token.opens?]

theorem step_of_isApart (plain : lexeme.token.opens? = none) (apart : reader.IsApart lexeme) :
    reader.step lexeme = reader.push (.single lexeme) := by
  unfold step
  simp only [plain]
  split
  · next inner outer blocks => exact if_neg (apart inner (by rw [blocks]; rfl))
  · rfl

theorem step_graft (apart : base.IsApart lexeme) :
    (graft base reader.blocks reader.level).step lexeme =
      graft base (reader.step lexeme).blocks (reader.step lexeme).level := by
  obtain ⟨blocks, level⟩ := reader
  dsimp only
  cases opens : lexeme.token.opens? with
  | some bracket =>
      rw [step_of_opens opens, step_of_opens opens]
      rfl
  | none =>
      cases blocks with
      | nil =>
          have top : IsApart (graft base [] level) lexeme := apart
          have alone : IsApart ⟨[], level⟩ lexeme := by rintro _ ⟨⟩
          rw [step_of_isApart opens top, step_of_isApart opens alone]
          rfl
      | cons inner outer =>
          by_cases closes : lexeme.token = .closing inner.bracket
          · have blocks : (graft base (inner :: outer) level).blocks =
                ⟨inner.bracket, inner.opener, (graft base outer inner.before).level⟩ ::
                  (graft base outer inner.before).blocks := rfl
            have own : (Reader.mk (inner :: outer) level).blocks = inner :: outer := rfl
            rw [step_of_closes blocks closes, step_of_closes own closes]
            cases outer <;> rfl
          · have top : IsApart (graft base (inner :: outer) level) lexeme := by
              rintro _ ⟨⟩
              exact closes
            have alone : IsApart ⟨inner :: outer, level⟩ lexeme := by
              rintro _ ⟨⟩
              exact closes
            rw [step_of_isApart opens top, step_of_isApart opens alone]
            rfl

theorem foldl_graft (base reader : Reader) (apart : ∀ lexeme ∈ ls, base.IsApart lexeme) :
    ls.foldl step (graft base reader.blocks reader.level) =
      graft base (ls.foldl step reader).blocks (ls.foldl step reader).level := by
  induction ls generalizing reader with
  | nil => rfl
  | cons lexeme rest ih =>
      obtain ⟨own, later⟩ := List.forall_mem_cons.1 apart
      rw [List.foldl_cons, step_graft own, ih _ later, List.foldl_cons]

theorem finish_graft (blocks : List OpenBlock) (level : List Component) (base : List Component) :
    (graft ⟨[], base⟩ blocks level).finish = base.reverse ++ finishWith blocks level := by
  induction blocks generalizing level with
  | nil => exact List.reverse_append
  | cons inner outer ih =>
      rw [finishWith, ← ih]
      cases outer <;> rfl

end Reader

open Reader

def IsClosed (ls : List Lexeme) : Prop :=
  (ls.foldl step .empty).blocks = []

instance (ls : List Lexeme) : Decidable (IsClosed ls) :=
  decidable_of_iff ((ls.foldl step .empty).blocks.isEmpty) List.isEmpty_iff

theorem foldl_of_isClosed (closed : IsClosed ls) :
    ls.foldl step .empty = ⟨[], (ofLexemes ls).reverse⟩ := by
  rw [IsClosed] at closed
  unfold ofLexemes finish
  generalize ls.foldl step .empty = reader at closed
  obtain ⟨blocks, level⟩ := reader
  cases closed
  rw [finishWith, List.reverse_reverse]

theorem ofLexemes_append (closed : IsClosed ls) (ms : List Lexeme) :
    ofLexemes (ls ++ ms) = ofLexemes ls ++ ofLexemes ms := by
  have apart : ∀ lexeme ∈ ms, Reader.IsApart ⟨[], (ofLexemes ls).reverse⟩ lexeme := by
    rintro _ _ _ ⟨⟩
  have on := foldl_graft _ .empty apart
  have start : graft ⟨[], (ofLexemes ls).reverse⟩ Reader.empty.blocks Reader.empty.level =
      ⟨[], (ofLexemes ls).reverse⟩ := rfl
  rw [start] at on
  rw [ofLexemes, List.foldl_append, foldl_of_isClosed closed, on, finish_graft, List.reverse_reverse]
  rfl

theorem IsClosed.append (first : IsClosed ls) (second : IsClosed ms) : IsClosed (ls ++ ms) := by
  have apart : ∀ lexeme ∈ ms, Reader.IsApart ⟨[], (ofLexemes ls).reverse⟩ lexeme := by
    rintro _ _ _ ⟨⟩
  have on := foldl_graft _ .empty apart
  rw [foldl_of_isClosed second] at on
  rw [IsClosed, List.foldl_append, foldl_of_isClosed first]
  exact congrArg Reader.blocks on

/-- What lexemes add to the innermost level, at the top or in a block in curly brackets. -/
def Reads (ls : List Lexeme) (cs : List Component) : Prop :=
  ∀ base : Reader, (∀ inner ∈ base.blocks.head?, inner.bracket = .curly) →
    ls.foldl step base = ⟨base.blocks, cs.reverse ++ base.level⟩

theorem reads_nil : Reads [] [] :=
  fun _ _ => rfl

theorem Reads.append (first : Reads ls cs) (second : Reads ms ds) : Reads (ls ++ ms) (cs ++ ds) := by
  intro base curly
  have later := second ⟨base.blocks, cs.reverse ++ base.level⟩ curly
  rw [List.foldl_append, first base curly, later, List.reverse_append, List.append_assoc]

theorem Reads.ofLexemes_eq (reads : Reads ls cs) : ofLexemes ls = cs := by
  rw [ofLexemes, reads .empty (by rintro _ ⟨⟩)]
  exact (congrArg List.reverse (List.append_nil cs.reverse)).trans (List.reverse_reverse cs)

theorem reads_of_isClosed (closed : IsClosed ls)
    (apart : ∀ lexeme ∈ ls, lexeme.token ≠ .closing .curly) : Reads ls (ofLexemes ls) := by
  intro base curly
  have outside : ∀ lexeme ∈ ls, base.IsApart lexeme := by
    intro lexeme member inner first
    rw [curly inner first]
    exact apart lexeme member
  have on := foldl_graft base .empty outside
  rw [foldl_of_isClosed closed] at on
  exact on

theorem reads_single {lexeme : Lexeme} (plain : lexeme.token.opens? = none)
    (apart : lexeme.token ≠ .closing .curly) : Reads [lexeme] [.single lexeme] := by
  intro base curly
  refine step_of_isApart plain fun inner first => ?_
  rw [curly inner first]
  exact apart

theorem reads_singles (plain : ∀ lexeme ∈ ls, lexeme.token.opens? = none)
    (apart : ∀ lexeme ∈ ls, lexeme.token ≠ .closing .curly) : Reads ls (ls.map .single) := by
  induction ls with
  | nil => exact reads_nil
  | cons lexeme rest ih =>
      obtain ⟨ownPlain, plain⟩ := List.forall_mem_cons.1 plain
      obtain ⟨ownApart, apart⟩ := List.forall_mem_cons.1 apart
      exact (reads_single ownPlain ownApart).append (ih plain apart)

theorem Reads.isClosed (reads : Reads ls cs) : IsClosed ls :=
  congrArg Reader.blocks (reads .empty (by rintro _ ⟨⟩))

theorem Reads.block (inside : Reads ls cs) {opener closer : Lexeme}
    (opens : opener.token = .opening .curly) (closes : closer.token = .closing .curly) :
    Reads (opener :: ls ++ [closer]) [.block opener cs (some closer)] := by
  intro base _
  have start : base.step opener = ⟨⟨.curly, opener, base.level⟩ :: base.blocks, []⟩ :=
    step_of_opens (by rw [opens]; rfl)
  rw [List.cons_append, List.foldl_cons, start, List.foldl_append, inside _ (by rintro _ ⟨⟩; rfl),
    List.foldl_cons, step_of_closes rfl closes, List.append_nil, List.reverse_reverse]
  rfl

end Component

/-! The blocks that the brackets of flat text open. -/

section Flat

open Component Reader

variable {reader : Reader} {lexeme : Lexeme} {outer inner : List Bracket}

/-- The tokens that end a declaration or delimit a block, and those that are left out. -/
def Token.isEdge : Token → Bool
  | .semicolon => true
  | .opening .curly => true
  | .closing .curly => true
  | .comment => true
  | .commentMark => true
  | _ => false

theorem Token.ne_of_not_isEdge {token other : Token} (inside : token.isEdge = false)
    (edge : other.isEdge) : token ≠ other := by
  rintro rfl
  rw [inside] at edge
  cases edge

theorem Lexeme.Bracketing.not_isEdge (bracketing : lexeme.Bracketing)
    (unmarked : lexeme.token ≠ .commentMark) : lexeme.token.isEdge = false := by
  cases bracketing with
  | inert token text inert free =>
      cases token with
      | commentMark => exact absurd rfl unmarked
      | _ => first | rfl | cases inert
  | mark c token bracket mark =>
      simp only [brackets, List.mem_cons, List.not_mem_nil, or_false] at bracket
      cases token with
      | opening kind => cases kind <;> first | rfl | (cases mark; simp at bracket)
      | closing kind => cases kind <;> first | rfl | (cases mark; simp at bracket)
      | semicolon => cases mark; simp at bracket
      | comment => cases mark
      | commentMark => cases mark
      | _ => rfl
  | function => rfl
  | address token word inside address free first => cases token <;> first | rfl | cases address

/-- The brackets open for a reader of lexemes are among those open for a reader of characters. -/
def Component.Reader.Under (reader : Reader) (outer : List Bracket) : Prop :=
  (reader.blocks.map OpenBlock.bracket).Sublist outer

theorem singleToken?_of_mark? {token : Token} {c : Char} (mark : token.mark? = some c) :
    singleToken? c = some token := by
  cases token with
  | opening bracket => cases bracket <;> (cases mark; rfl)
  | closing bracket => cases bracket <;> (cases mark; rfl)
  | colon => cases mark; rfl
  | semicolon => cases mark; rfl
  | comma => cases mark; rfl
  | _ => cases mark

theorem Token.opens?_of_isInert {token : Token} (inert : token.isInert) : token.opens? = none := by
  cases token <;> first | rfl | cases inert

theorem Token.opens?_of_isAddress {token : Token} (address : token.isAddress) :
    token.opens? = none := by
  cases token <;> first | rfl | cases address

theorem under_open {bracket : Bracket} (under : reader.Under outer)
    (opens : lexeme.token.opens? = some bracket) : (reader.step lexeme).Under (bracket :: outer) := by
  rw [Under, step_of_opens opens]
  exact under.cons_cons bracket

theorem under_close {bracket : Bracket} (under : reader.Under (bracket :: outer))
    (closes : lexeme.token = .closing bracket) : (reader.step lexeme).Under outer := by
  have plain : lexeme.token.opens? = none := by rw [closes]; rfl
  obtain ⟨blocks, level⟩ := reader
  rw [Under] at under ⊢
  cases blocks with
  | nil =>
      rw [step_of_isApart plain (by rintro _ ⟨⟩)]
      exact List.nil_sublist outer
  | cons first others =>
      by_cases same : bracket = first.bracket
      · rw [step_of_closes rfl (same ▸ closes)]
        exact (List.cons_sublist_cons.1 (same ▸ under) :)
      · have apart : (Reader.mk (first :: others) level).IsApart lexeme := by
          rintro _ ⟨⟩ ends
          exact same (Token.closing.inj (closes.symm.trans ends))
        rw [step_of_isApart plain apart]
        cases under with
        | cons _ inside => exact inside
        | cons_cons => exact absurd rfl same

theorem under_other (under : reader.Under outer) (plain : lexeme.token.opens? = none)
    (apart : ∀ bracket, lexeme.token ≠ .closing bracket) : (reader.step lexeme).Under outer := by
  rw [step_of_isApart plain fun _ _ => apart _]
  exact under

theorem foldlM_openAfter?_append (free : ∀ c ∈ s, c ∉ brackets)
    (run : (s ++ t).foldlM openAfter? outer = some inner) : t.foldlM openAfter? outer = some inner := by
  rw [List.foldlM_append, foldlM_openAfter?_of_free free] at run
  exact run

theorem openAfter?_round (step : openAfter? outer ')' = some inner) : outer = .round :: inner := by
  obtain ⟨first, same⟩ := Option.ite_none_right_eq_some.1 step
  cases outer with
  | nil => cases first
  | cons bracket others =>
      cases first
      cases same
      rfl

theorem openAfter?_square (step : openAfter? outer ']' = some inner) :
    outer = .square :: inner := by
  obtain ⟨first, same⟩ := Option.ite_none_right_eq_some.1 step
  cases outer with
  | nil => cases first
  | cons bracket others =>
      cases first
      cases same
      rfl

/-- An address takes away what it opens, and at most what was left open in it. -/
theorem sublist_of_address {inside : List Char} (first : ')' ∉ inside)
    (run : ('(' :: (inside ++ [')'])).foldlM openAfter? outer = some inner) : outer.Sublist inner := by
  have later : (inside ++ [')']).foldlM openAfter? ([] ++ .round :: outer) = some inner := run
  rw [List.foldlM_append, Option.bind_eq_bind, Option.bind_eq_some_iff] at later
  obtain ⟨after, inside, close⟩ := later
  obtain ⟨others, rfl⟩ := openAfter?_keeps_round first inside
  rw [List.foldlM_cons, Option.bind_eq_bind, Option.bind_eq_some_iff] at close
  obtain ⟨last, close, same⟩ := close
  cases same
  have whole := openAfter?_round close
  cases others with
  | nil =>
      cases whole
      exact List.Sublist.refl outer
  | cons bracket others =>
      cases whole
      exact (List.sublist_cons_self _ _).trans (List.sublist_append_right _ _)

theorem under_step (bracketing : lexeme.Bracketing)
    (run : lexeme.text.foldlM openAfter? outer = some inner) (under : reader.Under outer) :
    (reader.step lexeme).Under inner := by
  cases bracketing with
  | inert token text inert free =>
      rw [foldlM_openAfter?_of_free free] at run
      cases run
      refine under_other under (Token.opens?_of_isInert inert) ?_
      rintro bracket ⟨⟩
      cases inert
  | mark c token bracket mark =>
      simp only [brackets, List.mem_cons, List.not_mem_nil, or_false] at bracket
      rw [List.foldlM_cons, Option.bind_eq_bind, Option.bind_eq_some_iff] at run
      obtain ⟨last, step, same⟩ := run
      cases same
      rcases bracket with rfl | rfl | rfl | rfl
      · cases step
        cases singleToken?_of_mark? mark
        exact under_open under rfl
      · cases openAfter?_round step
        cases singleToken?_of_mark? mark
        exact under_close under rfl
      · cases step
        cases singleToken?_of_mark? mark
        exact under_open under rfl
      · cases openAfter?_square step
        cases singleToken?_of_mark? mark
        exact under_close under rfl
  | function value word free =>
      have opened := foldlM_openAfter?_append free run
      cases opened
      exact under_open under rfl
  | address token word inside address free first =>
      have whole := sublist_of_address first (foldlM_openAfter?_append free run)
      refine under_other (List.Sublist.trans under whole) (Token.opens?_of_isAddress address) ?_
      rintro bracket ⟨⟩
      cases address

theorem blocks_of_balances {ls : List Lexeme} (balances : Balances outer ls)
    (under : reader.Under outer) : (ls.foldl step reader).blocks = [] := by
  induction balances generalizing reader with
  | nil => exact List.map_eq_nil_iff.1 (List.sublist_nil.1 under)
  | cons lexeme rest outer inner bracketing run _ ih => exact ih (under_step bracketing run under)

theorem IsFlatText.isClosed (flat : IsFlatText s) : IsClosed (lexemes s) :=
  blocks_of_balances flat.balances (List.nil_sublist [])

theorem not_isEdge_of_balances {ls : List Lexeme} (balances : Balances outer ls) :
    ∀ lexeme ∈ ls, lexeme.token ≠ .commentMark → lexeme.token.isEdge = false := by
  induction balances with
  | nil => exact List.forall_mem_nil _
  | cons lexeme rest outer inner bracketing _ _ ih =>
      exact List.forall_mem_cons.2 ⟨bracketing.not_isEdge, ih⟩

theorem IsFlatText.reads (flat : IsFlatText s) : Reads (lexemes s) (read s) := by
  refine reads_of_isClosed flat.isClosed fun lexeme member closing => ?_
  have inside := not_isEdge_of_balances flat.balances lexeme member (by simp [closing])
  rw [closing] at inside
  cases inside

theorem token_mem_lexemes (component : Component) :
    ∃ lexeme ∈ component.lexemes, lexeme.token = component.token := by
  cases component with
  | single lexeme => exact ⟨lexeme, List.mem_cons_self, rfl⟩
  | block opener contents closer => exact ⟨opener, List.mem_cons_self, rfl⟩

theorem exists_lexeme_of_mem_read {component : Component} (member : component ∈ read s) :
    ∃ lexeme ∈ Syntax.lexemes s, lexeme.token = component.token := by
  obtain ⟨lexeme, inside, same⟩ := token_mem_lexemes component
  refine ⟨lexeme, ?_, same⟩
  rw [← lexemesOf_read, lexemesOf_eq_flatMap]
  exact List.mem_flatMap_of_mem member inside

theorem IsFlatText.not_isEdge (flat : IsFlatText s) :
    ∀ component ∈ read s, component.token ≠ .commentMark → component.token.isEdge = false := by
  intro component member unmarked
  obtain ⟨lexeme, listed, same⟩ := exists_lexeme_of_mem_read member
  rw [← same] at unmarked ⊢
  exact not_isEdge_of_balances flat.balances lexeme listed unmarked

theorem IsFlatText.token_ne (flat : IsFlatText s) (edge : Token) (isEdge : edge.isEdge)
    (unmarked : edge ≠ .commentMark) : ∀ component ∈ read s, component.token ≠ edge := by
  rintro component member rfl
  rw [flat.not_isEdge component member unmarked] at isEdge
  cases isEdge

theorem IsFlatText.isSpace_of_mem_read (flat : IsFlatText s) {component : Component}
    (member : component ∈ read s) (between : component.isBlankOrComment) :
    ∀ c ∈ component.text, isSpace c := by
  have visible := flat.token_ne .comment rfl nofun component member
  rw [isBlankOrComment, Bool.or_eq_true, beq_iff_eq, beq_iff_eq, or_iff_left visible] at between
  obtain ⟨lexeme, listed, rfl⟩ := exists_single_of_mem_read member (by rw [between]; rfl)
  exact (shape_of_mem_lexemes listed).isSpace between

theorem IsPlainText.not_isEdge (plain : IsPlainText s) :
    ∀ component ∈ read s, component.token.isEdge = false := by
  intro component member
  refine plain.isFlatText.not_isEdge component member fun marker => ?_
  obtain ⟨lexeme, listed, same⟩ := exists_lexeme_of_mem_read member
  exact commentMark_not_mem_lexemes plain.markers lexeme listed (same.trans marker)

end Flat

section Spelling

open Component

/-- A text that gives these components in front of a mark. -/
structure Spells (s : List Char) (cs : List Component) : Prop where
  ends : Ends s ';'
  reads : Reads (lexemes s) cs

/-- A text that gives these components in front of anything. -/
structure Stands (s : List Char) (cs : List Component) : Prop where
  lexemes_append : ∀ w, lexemes (s ++ w) = lexemes s ++ lexemes w
  reads : Reads (lexemes s) cs

theorem IsFlatText.spells (flat : IsFlatText s) : Spells s (read s) :=
  ⟨flat.ends, flat.reads⟩

theorem IsPlainText.spells (plain : IsPlainText s) : Spells s (read s) :=
  plain.isFlatText.spells

theorem Spells.lexemes_append {d : Char} (spells : Spells s cs) (stop : d ∈ stops) (w : List Char) :
    lexemes (s ++ d :: w) = lexemes s ++ lexemes (d :: w) := by
  refine Syntax.lexemes_append s spells.ends (.stop _ (by decide) ?_)
  rintro _ ⟨⟩
  exact stop

theorem stands_nil : Stands [] [] where
  lexemes_append w := by rw [lexemes_nil]; rfl
  reads := by rw [lexemes_nil]; exact reads_nil

theorem Stands.append (first : Stands s cs) (second : Stands t ds) :
    Stands (s ++ t) (cs ++ ds) where
  lexemes_append w := by
    rw [List.append_assoc, first.lexemes_append, second.lexemes_append, first.lexemes_append,
      List.append_assoc]
  reads := by
    rw [first.lexemes_append]
    exact first.reads.append second.reads

theorem Stands.read_append (stands : Stands s cs) (w : List Char) :
    Component.read (s ++ w) = cs ++ Component.read w := by
  rw [Component.read, stands.lexemes_append, ofLexemes_append stands.reads.isClosed,
    stands.reads.ofLexemes_eq]
  rfl

theorem Stands.append_spells (first : Stands s cs) (second : Spells t ds) :
    Spells (s ++ t) (cs ++ ds) where
  ends := by
    rw [Ends, List.append_assoc, first.lexemes_append, second.ends, first.lexemes_append,
      List.append_assoc]
  reads := by
    rw [first.lexemes_append]
    exact first.reads.append second.reads

theorem lexemes_mark {d : Char} {token : Token} (single : singleToken? d = some token)
    (stop : d ∈ stops) (w : List Char) : lexemes (d :: w) = ⟨token, [d]⟩ :: lexemes w := by
  rw [lexemes_cons]
  simp only [stops, List.mem_cons, List.not_mem_nil, or_false] at stop
  rcases stop with rfl | rfl | rfl | rfl | rfl <;> cases single <;> rfl

theorem Spells.mark {d : Char} {token : Token} (spells : Spells s cs)
    (single : singleToken? d = some token) (stop : d ∈ stops) (plain : token.opens? = none)
    (apart : token ≠ .closing .curly) : Stands (s ++ [d]) (cs ++ [.single ⟨token, [d]⟩]) where
  lexemes_append w := by
    rw [List.append_assoc, List.singleton_append, spells.lexemes_append stop,
      spells.lexemes_append stop, lexemes_mark single stop, lexemes_mark single stop, lexemes_nil,
      List.append_assoc]
    rfl
  reads := by
    rw [spells.lexemes_append stop, lexemes_mark single stop, lexemes_nil]
    exact spells.reads.append (reads_single plain apart)

def curlyBlock (contents : List Component) : Component :=
  .block ⟨.opening .curly, ['\x7b']⟩ contents (some ⟨.closing .curly, ['\x7d']⟩)

theorem Spells.block (before : Spells s cs) (inside : Spells t ds) :
    Stands (s ++ '\x7b' :: (t ++ ['\x7d'])) (cs ++ [curlyBlock ds]) := by
  have whole (w : List Char) : lexemes (s ++ '\x7b' :: (t ++ '\x7d' :: w)) =
      lexemes s ++ (⟨.opening .curly, ['\x7b']⟩ :: lexemes t ++ [⟨.closing .curly, ['\x7d']⟩]) ++
        lexemes w := by
    rw [before.lexemes_append (by decide), lexemes_mark rfl (by decide),
      inside.lexemes_append (by decide), lexemes_mark rfl (by decide)]
    simp
  refine ⟨fun w => ?_, ?_⟩
  · rw [List.append_assoc, List.cons_append, List.append_assoc, List.singleton_append, whole, whole,
      lexemes_nil, List.append_nil]
  · rw [whole, lexemes_nil, List.append_nil]
    exact before.reads.append (inside.reads.block rfl rfl)

end Spelling

end ComputedStyle.Syntax
