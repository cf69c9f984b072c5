import ComputedStyle.Html.Builder.Body

namespace ComputedStyle.Html.Builder

variable (b : Builder)

def addCommentToHtml : Builder :=
  match b.html? with
  | some html => b.addCommentTo html.id
  | none => b

def afterBodyStep : Token → Step
  | .character c =>
      if Text.isAsciiBlank c then b.bodyStep (.character c) else b.again .inBody (.character c)
  | .comment => b.addCommentToHtml.done
  | .startTag tag =>
      if tag.name = "html" then (b.mergeRoot tag).done else b.again .inBody (.startTag tag)
  | .endTag name =>
      if name = "html" then (b.enter .afterAfterBody).done else b.again .inBody (.endTag name)
  | _ => b.done

def afterAfterBodyStep : Token → Step
  | .character c =>
      if Text.isAsciiBlank c then b.bodyStep (.character c) else b.again .inBody (.character c)
  | .comment => (b.addCommentTo Forest.root).done
  | .startTag tag =>
      if tag.name = "html" then (b.mergeRoot tag).done else b.again .inBody (.startTag tag)
  | .endTag name => b.again .inBody (.endTag name)
  | _ => b.done

def leaveFrameset : Builder :=
  if b.stack.length = 1 then b
  else
    let b := b.pop
    if b.currentIsNamed "frameset" then b else b.enter .afterFrameset

def framesetStep : Token → Step
  | .character c => (if Text.isAsciiBlank c then b.addCharacter c else b).done
  | .comment => b.addComment.done
  | .startTag tag =>
      if tag.name = "html" then (b.mergeRoot tag).done
      else if tag.name = "frameset" then (b.openTag tag).done
      else if tag.name = "frame" then (b.addTag tag).done
      else if tag.name = "noframes" then b.headStart tag
      else b.done
  | .endTag name => if name = "frameset" then b.leaveFrameset.done else b.done
  | _ => b.done

def afterFramesetStep : Token → Step
  | .character c => (if Text.isAsciiBlank c then b.addCharacter c else b).done
  | .comment => b.addComment.done
  | .startTag tag =>
      if tag.name = "html" then (b.mergeRoot tag).done
      else if tag.name = "noframes" then b.headStart tag
      else b.done
  | .endTag name => if name = "html" then (b.enter .afterAfterFrameset).done else b.done
  | _ => b.done

def afterAfterFramesetStep : Token → Step
  | .character c => if Text.isAsciiBlank c then b.bodyStep (.character c) else b.done
  | .comment => (b.addCommentTo Forest.root).done
  | .startTag tag =>
      if tag.name = "html" then (b.mergeRoot tag).done
      else if tag.name = "noframes" then b.headStart tag
      else b.done
  | _ => b.done

end ComputedStyle.Html.Builder
