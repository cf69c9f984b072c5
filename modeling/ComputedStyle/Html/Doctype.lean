import ComputedStyle.Html.Tag

namespace ComputedStyle.Html

open Text

/-- The text after the next closing bracket. -/
def afterBracket (s : List Char) : List Char :=
  (s.dropWhile (· != '>')).drop 1

theorem length_afterBracket_le (s : List Char) : (afterBracket s).length ≤ s.length := by
  have := length_dropWhile_le (· != '>') s
  simp only [afterBracket, List.length_drop]
  omega

namespace Doctype

/-- The text after a word, in any case. -/
def afterWord? (word : String) (s : List Char) : Option (List Char) :=
  let count := word.toList.length
  if lower (s.take count) = word.toList then some (s.drop count) else none

/-- An identifier in quotes, whether its closing quote is there, and the text after it. -/
structure Identifier where
  text : String
  closed : Bool
  rest : List Char

/-- Reads an identifier in quotes; a closing bracket breaks it off. -/
def readIdentifier? : List Char → Option Identifier
  | quote :: s =>
      if quote == '"' || quote == '\'' then
        let inside (c : Char) : Bool := c != quote && c != '>'
        let text := String.ofList ((s.takeWhile inside).map fun c =>
          if c = Char.ofNat 0 then replacement else c)
        match s.dropWhile inside with
        | c :: rest =>
            if c == quote then some ⟨text, true, rest⟩ else some ⟨text, false, c :: rest⟩
        | [] => some ⟨text, false, []⟩
      else none
  | [] => none

/-- Reads a system identifier, if any, up to the end of a declaration. -/
def readSystem (doctype : Doctype) (s : List Char) : Doctype :=
  match readIdentifier? s with
  | some id => { doctype with systemId := some id.text, broken := !id.closed }
  | none => { doctype with broken := s.head? != some '>' }

/-- Reads what follows the name. -/
def readIdentifiers (doctype : Doctype) (s : List Char) : Doctype :=
  match afterWord? "public" s with
  | some rest =>
      match readIdentifier? (rest.dropWhile isAsciiBlank) with
      | some id =>
          let doctype := { doctype with publicId := some id.text }
          if id.closed then doctype.readSystem (id.rest.dropWhile isAsciiBlank)
          else { doctype with broken := true }
      | none => { doctype with broken := true }
  | none =>
      match afterWord? "system" s with
      | some rest =>
          match readIdentifier? (rest.dropWhile isAsciiBlank) with
          | some id => { doctype with systemId := some id.text, broken := !id.closed }
          | none => { doctype with broken := true }
      | none => { doctype with broken := s.head? != some '>' }

def endsName (c : Char) : Bool :=
  isAsciiBlank c || c == '>'

/-- Reads a declaration after its keyword. -/
def read (s : List Char) : Doctype :=
  let s := s.dropWhile isAsciiBlank
  match s.takeWhile (!endsName ·) with
  | [] => { broken := true }
  | c :: name =>
      readIdentifiers { name := some (lowerName (c :: name)) }
        ((s.dropWhile (!endsName ·)).dropWhile isAsciiBlank)

/-- Public identifiers of documents that are read leniently, by their beginnings. -/
def lenientPrefixes : List String := [
  "-//advasoft ltd//dtd html 3.0 aswedit + extensions//",
  "-//as//dtd html 3.0 aswedit + extensions//",
  "-//ietf//dtd html 2.0 level 1//",
  "-//ietf//dtd html 2.0 level 2//",
  "-//ietf//dtd html 2.0 strict level 1//",
  "-//ietf//dtd html 2.0 strict level 2//",
  "-//ietf//dtd html 2.0 strict//",
  "-//ietf//dtd html 2.0//",
  "-//ietf//dtd html 2.1e//",
  "-//ietf//dtd html 3.0//",
  "-//ietf//dtd html 3.2 final//",
  "-//ietf//dtd html 3.2//",
  "-//ietf//dtd html 3//",
  "-//ietf//dtd html level 0//",
  "-//ietf//dtd html level 1//",
  "-//ietf//dtd html level 2//",
  "-//ietf//dtd html level 3//",
  "-//ietf//dtd html strict level 0//",
  "-//ietf//dtd html strict level 1//",
  "-//ietf//dtd html strict level 2//",
  "-//ietf//dtd html strict level 3//",
  "-//ietf//dtd html strict//",
  "-//ietf//dtd html//",
  "-//metrius//dtd metrius presentational//",
  "-//microsoft//dtd internet explorer 2.0 html strict//",
  "-//microsoft//dtd internet explorer 2.0 html//",
  "-//microsoft//dtd internet explorer 2.0 tables//",
  "-//microsoft//dtd internet explorer 3.0 html strict//",
  "-//microsoft//dtd internet explorer 3.0 html//",
  "-//microsoft//dtd internet explorer 3.0 tables//",
  "-//netscape comm. corp.//dtd html//",
  "-//netscape comm. corp.//dtd strict html//",
  "-//o'reilly and associates//dtd html 2.0//",
  "-//o'reilly and associates//dtd html extended 1.0//",
  "-//o'reilly and associates//dtd html extended relaxed 1.0//",
  "-//softquad software//dtd hotmetal pro 6.0::19990601::extensions to html 4.0//",
  "-//softquad//dtd hotmetal pro 4.0::19971010::extensions to html 4.0//",
  "-//spyglass//dtd html 2.0 extended//",
  "-//sq//dtd html 2.0 hotmetal + extensions//",
  "-//sun microsystems corp.//dtd hotjava html//",
  "-//sun microsystems corp.//dtd hotjava strict html//",
  "-//w3c//dtd html 3 1995-03-24//",
  "-//w3c//dtd html 3.2 draft//",
  "-//w3c//dtd html 3.2 final//",
  "-//w3c//dtd html 3.2//",
  "-//w3c//dtd html 3.2s draft//",
  "-//w3c//dtd html 4.0 frameset//",
  "-//w3c//dtd html 4.0 transitional//",
  "-//w3c//dtd html experimental 19960712//",
  "-//w3c//dtd html experimental 970421//",
  "-//w3c//dtd w3 html//",
  "-//w3o//dtd w3 html 3.0//",
  "-//webtechs//dtd mozilla html 2.0//",
  "-//webtechs//dtd mozilla html//"]

/-- Public identifiers of documents that are read leniently. -/
def lenientIds : List String := [
  "-//w3o//dtd w3 html strict 3.0//en//",
  "-/w3c/dtd html 4.0 transitional/en",
  "html"]

/-- Beginnings of public identifiers that stand for a lenient document unless a system identifier
follows. -/
def lenientAlone : List String := [
  "-//w3c//dtd html 4.01 frameset//",
  "-//w3c//dtd html 4.01 transitional//"]

/-- The path of a system identifier of documents that are read leniently. -/
def lenientSystem : String :=
  "/".intercalate ["http:", "", "www.ibm.com", "data", "dtd", "v11",
    "ibmxhtml1-transitional.dtd"]

def startsWithAny (starts : List String) (id : String) : Bool :=
  starts.any fun start => start.toList.isPrefixOf id.toList

/-- Whether the rest of a document is read leniently. -/
def isLenient (doctype : Doctype) : Bool :=
  let publicId := doctype.publicId.map String.toLower
  let systemId := doctype.systemId.map String.toLower
  doctype.broken || doctype.name != some "html" ||
    publicId.any lenientIds.contains || systemId == some lenientSystem ||
    publicId.any (startsWithAny lenientPrefixes) ||
    (systemId.isNone && publicId.any (startsWithAny lenientAlone))

end Doctype

end ComputedStyle.Html
