import ComputedStyle.BoxModel
import ComputedStyle.Cascade
import ComputedStyle.Color
import ComputedStyle.Color.Argument
import ComputedStyle.Color.Calculation
import ComputedStyle.Color.Conversion
import ComputedStyle.Color.Function
import ComputedStyle.Color.Mixture
import ComputedStyle.Color.Named
import ComputedStyle.Color.Quantity
import ComputedStyle.Color.Reading
import ComputedStyle.Color.Space
import ComputedStyle.Config
import ComputedStyle.Declaration.Block
import ComputedStyle.Declaration.Shorthand
import ComputedStyle.Dictionary
import ComputedStyle.Digest
import ComputedStyle.Document
import ComputedStyle.Document.Attribute
import ComputedStyle.Document.FontSize
import ComputedStyle.Document.Order
import ComputedStyle.Document.Path
import ComputedStyle.Edges
import ComputedStyle.Engine
import ComputedStyle.Html.Builder
import ComputedStyle.Html.Builder.After
import ComputedStyle.Html.Builder.Body
import ComputedStyle.Html.Builder.Formatting
import ComputedStyle.Html.Builder.Head
import ComputedStyle.Html.Builder.Table
import ComputedStyle.Html.Doctype
import ComputedStyle.Html.Entity
import ComputedStyle.Html.Forest
import ComputedStyle.Html.Markup
import ComputedStyle.Html.Name
import ComputedStyle.Html.Page
import ComputedStyle.Html.Parse
import ComputedStyle.Html.RawText
import ComputedStyle.Html.Reference
import ComputedStyle.Html.Scan
import ComputedStyle.Html.Tag
import ComputedStyle.Html.Token
import ComputedStyle.Inheritance
import ComputedStyle.Json
import ComputedStyle.Length
import ComputedStyle.Length.Units
import ComputedStyle.Metrics
import ComputedStyle.Number.Binary
import ComputedStyle.Number.Decimal
import ComputedStyle.Number.Machine
import ComputedStyle.Number.Power
import ComputedStyle.Parallel
import ComputedStyle.Parallel.Collector
import ComputedStyle.Proofs.BoxModel
import ComputedStyle.Proofs.Cascade.Apply
import ComputedStyle.Proofs.Cascade.Matching
import ComputedStyle.Proofs.Cascade.Order
import ComputedStyle.Proofs.Cascade.Turns
import ComputedStyle.Proofs.Declaration.Background
import ComputedStyle.Proofs.Declaration.Border
import ComputedStyle.Proofs.Declaration.Comments
import ComputedStyle.Proofs.Declaration.Components
import ComputedStyle.Proofs.Declaration.Font
import ComputedStyle.Proofs.Declaration.Longhands
import ComputedStyle.Proofs.Declaration.Parts
import ComputedStyle.Proofs.Declaration.Quoted
import ComputedStyle.Proofs.Declaration.Recovery
import ComputedStyle.Proofs.Dictionary
import ComputedStyle.Proofs.Document.Attributes
import ComputedStyle.Proofs.Document.Bookkeeping
import ComputedStyle.Proofs.Document.Consistency
import ComputedStyle.Proofs.Document.Edits
import ComputedStyle.Proofs.Document.FontSize
import ComputedStyle.Proofs.Document.Order
import ComputedStyle.Proofs.Document.Path
import ComputedStyle.Proofs.Document.Siblings
import ComputedStyle.Proofs.Engine.Calls
import ComputedStyle.Proofs.Engine.Settings
import ComputedStyle.Proofs.Except
import ComputedStyle.Proofs.Html.Builder
import ComputedStyle.Proofs.Html.Copy
import ComputedStyle.Proofs.Html.Forest
import ComputedStyle.Proofs.Html.Numbering
import ComputedStyle.Proofs.Html.Page
import ComputedStyle.Proofs.Html.Rules
import ComputedStyle.Proofs.Html.Scan
import ComputedStyle.Proofs.Inheritance.Element
import ComputedStyle.Proofs.Inheritance.Tree
import ComputedStyle.Proofs.Json
import ComputedStyle.Proofs.Length
import ComputedStyle.Proofs.Length.Sign
import ComputedStyle.Proofs.Metrics
import ComputedStyle.Proofs.NodeTimings
import ComputedStyle.Proofs.Number.Spelling
import ComputedStyle.Proofs.Parallel.Apply
import ComputedStyle.Proofs.Parallel.Balance
import ComputedStyle.Proofs.Parallel.Batches
import ComputedStyle.Proofs.Parallel.Chunks
import ComputedStyle.Proofs.RuleSet.Additions
import ComputedStyle.Proofs.RuleSet.Candidates
import ComputedStyle.Proofs.RuleSet.Fingerprint
import ComputedStyle.Proofs.RuleSet.Growth
import ComputedStyle.Proofs.Selector.Alike
import ComputedStyle.Proofs.Selector.AttributeForms
import ComputedStyle.Proofs.Selector.Dynamic
import ComputedStyle.Proofs.Selector.Escape
import ComputedStyle.Proofs.Selector.Formula
import ComputedStyle.Proofs.Selector.Fragments
import ComputedStyle.Proofs.Selector.Group
import ComputedStyle.Proofs.Selector.Markup
import ComputedStyle.Proofs.Selector.Placement
import ComputedStyle.Proofs.Selector.Places
import ComputedStyle.Proofs.Selector.Printing
import ComputedStyle.Proofs.Selector.Reading
import ComputedStyle.Proofs.Selector.Respelling
import ComputedStyle.Proofs.Selector.Search
import ComputedStyle.Proofs.Selector.Specificity
import ComputedStyle.Proofs.Selector.Structural
import ComputedStyle.Proofs.Selector.Totality
import ComputedStyle.Proofs.Stylesheet.Agreement
import ComputedStyle.Proofs.Stylesheet.AtRules
import ComputedStyle.Proofs.Stylesheet.Media
import ComputedStyle.Proofs.Stylesheet.Outline
import ComputedStyle.Proofs.Stylesheet.Quoted
import ComputedStyle.Proofs.Stylesheet.StaticSelector
import ComputedStyle.Proofs.Syntax.Blocks
import ComputedStyle.Proofs.Syntax.Boundary
import ComputedStyle.Proofs.Syntax.Component
import ComputedStyle.Proofs.Syntax.Lexeme
import ComputedStyle.Proofs.Syntax.Lookahead
import ComputedStyle.Proofs.Syntax.Plain
import ComputedStyle.Proofs.Syntax.Quoted
import ComputedStyle.Proofs.Syntax.Words
import ComputedStyle.Proofs.Text.Boundaries
import ComputedStyle.Proofs.Text.Case
import ComputedStyle.Proofs.Text.Closed
import ComputedStyle.Proofs.Text.Insertion
import ComputedStyle.Proofs.Text.Nested
import ComputedStyle.Proofs.Text.Nesting
import ComputedStyle.Proofs.Text.Spaced
import ComputedStyle.Proofs.Text.Tokens
import ComputedStyle.Proofs.TextStyle
import ComputedStyle.RuleSet
import ComputedStyle.RuleSet.Index
import ComputedStyle.Selector
import ComputedStyle.Selector.Matching
import ComputedStyle.Selector.Printing
import ComputedStyle.Selector.Reading
import ComputedStyle.Selector.Spelling
import ComputedStyle.StyledDocument
import ComputedStyle.Stylesheet
import ComputedStyle.Stylesheet.Media
import ComputedStyle.Stylesheet.Outline
import ComputedStyle.Stylesheet.StaticSelector
import ComputedStyle.Syntax.Component
import ComputedStyle.Syntax.Lexeme
import ComputedStyle.Syntax.Numeral
import ComputedStyle.Syntax.Plain
import ComputedStyle.Text.Blank
import ComputedStyle.Text.Case
import ComputedStyle.Text.Comments
import ComputedStyle.Text.JsonString
import ComputedStyle.Text.Nesting
import ComputedStyle.TextStyle
import ComputedStyle.Trace
import ComputedStyle.Proofs.Text.Gaps
import ComputedStyle.Proofs.Json.Grammar
import ComputedStyle.Proofs.Json.Writing
import ComputedStyle.Proofs.Trace
import ComputedStyle.Proofs.Engine.Readable
