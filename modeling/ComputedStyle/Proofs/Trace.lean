import ComputedStyle.Proofs.Json
import ComputedStyle.Proofs.Json.Writing
import ComputedStyle.Trace

namespace ComputedStyle.TraceEvent

open Text

/-- What the line of an event says. -/
def toJson : TraceEvent → Json
  | rule selector parsed specificity =>
      .object [("type", .text "css.rule"), ("selector", .text selector), ("parsed", .flag parsed),
        ("specificity",
          .array [.nat specificity.ids, .nat specificity.classes, .nat specificity.types])]
  | skippedRule prelude reason =>
      .object [("type", .text "css.rule_skipped"), ("prelude", .text prelude),
        ("reason", .text reason)]
  | node path rules =>
      .object [("type", .text "cascade.node"), ("path", .text path),
        ("rules", .array (rules.map .nat))]
  | timeout pending total =>
      .object [("type", .text "parallel.timeout"), ("pending", .nat pending), ("total", .nat total)]
  | fallback reason => .object [("type", .text "parallel.fallback"), ("reason", .text reason)]
  | summary context counts =>
      .object [("type", .text "debug.summary"), ("context", .text context),
        ("counts", .object (counts.entries.map fun (name, n) => (name, .nat n)))]

theorem isOneLine_line (event : TraceEvent) : IsOneLine event.line := by
  apply JsonValue.isOneLine_renderObject
  cases event with
  | rule selector parsed specificity => simp [members]
  | skippedRule prelude reason => simp [members]
  | node path rules => simp [members]
  | timeout pending total => simp [members]
  | fallback reason => simp [members]
  | summary context counts => simp [members]

theorem spells_line (event : TraceEvent) : Json.Spells event.toJson event.line.toList := by
  cases event with
  | rule selector parsed specificity =>
      have numbers := JsonValue.spells_numbers specificity.toList
      exact JsonValue.spells_renderObject (by simpa [members, Specificity.toList] using numbers)
  | skippedRule prelude reason => exact JsonValue.spells_renderObject (by simp [members])
  | node path rules => exact JsonValue.spells_renderObject (by simp [members])
  | timeout pending total => exact JsonValue.spells_renderObject (by simp [members])
  | fallback reason => exact JsonValue.spells_renderObject (by simp [members])
  | summary context counts => exact JsonValue.spells_renderObject (by simp [members])

/-- Whatever text is written into a string stays inside its quotes and is read back, so different
texts are written differently. The line of an event holds one JSON object, which tells the event. -/
theorem line_decodes :
    (∀ s, JsonString.IsEscaped (JsonString.encode s) ∧
      JsonString.decode (JsonString.encode s) = some s) ∧
    Function.Injective JsonString.encode ∧
    ∀ event : TraceEvent, IsOneLine event.line ∧
      ∀ v, Json.IsText v event.line.toList ↔ v = event.toJson := by
  refine ⟨fun s => ⟨JsonString.isEscaped_encode s, JsonString.decode_encode s⟩,
    JsonString.encode_injective, fun event => ⟨isOneLine_line event, fun v => ⟨?_, ?_⟩⟩⟩
  · intro read
    exact read.unique (spells_line event).isText
  · rintro rfl
    exact (spells_line event).isText

end ComputedStyle.TraceEvent
