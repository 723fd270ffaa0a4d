import AutoImport.Text.Search

/-!
# Blanking comments

`blankComments` replaces the comments of a text by spaces, so that what is outside of them can be
read without care and byte offsets stay what they were.
-/

namespace AutoImport

open Text

/-- What a scan for comments is inside of. -/
inductive CommentState where
  | code
  | line
  | block
  deriving DecidableEq, Repr

/-- A character of a comment as it is left in the blanked text: a line feed, or a space for every
byte. -/
def blankChar (c : Char) : List Char :=
  if c == '\n' then [c] else List.replicate c.utf8Size ' '

/-- A text with its comments blanked, when the scan enters it in the given state. -/
def blankCommentsFrom : CommentState → List Char → List Char
  | _, [] => []
  | .code, '/' :: '/' :: text => ' ' :: ' ' :: blankCommentsFrom .line text
  | .code, '/' :: '*' :: text =>
    if contains ['*', '/'] text then ' ' :: ' ' :: blankCommentsFrom .block text
    -- Nothing ends the comment, so its two characters are code like any others.
    else '/' :: '*' :: blankCommentsFrom .code text
  | .code, c :: text => c :: blankCommentsFrom .code text
  | .line, c :: text =>
    blankChar c ++ blankCommentsFrom (if c == '\n' then .code else .line) text
  | .block, '*' :: '/' :: text => ' ' :: ' ' :: blankCommentsFrom .code text
  | .block, c :: text => blankChar c ++ blankCommentsFrom .block text

/-- A text with its comments blanked. A block comment that nothing ends is no comment. -/
def blankComments (text : List Char) : List Char :=
  blankCommentsFrom .code text

end AutoImport
