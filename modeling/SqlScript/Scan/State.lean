/-!
# Lexical contexts

The context a scan is in after some text. The next context depends only on the current one and
the next character.
-/

namespace SqlScript.Scan

inductive State where
  | plain
  /-- After a dash that may open a line comment. -/
  | dash
  | lineComment
  /-- After a slash that may open a block comment. -/
  | slash
  | blockComment
  /-- After a star in a block comment, which may close it. -/
  | blockCommentStar
  /-- In a string opened by this quote. -/
  | quoted (quote : Char)
  /-- After a backslash in a string: the next character is literal. -/
  | escaped (quote : Char)
deriving DecidableEq, Repr

namespace State

instance : Inhabited State := ⟨plain⟩

def isQuoted : State → Bool
  | quoted _ | escaped _ => true
  | _ => false

/--
Whether a text that ends here leaves a string or a block comment open. A pending dash or slash
does not count, and neither does a line comment, which the end of the text closes.
-/
def isUnterminated : State → Bool
  | quoted _ | escaped _ | blockComment | blockCommentStar => true
  | _ => false

/-- The context in words, for diagnostics. -/
def description : State → String
  | plain => "normal"
  | dash => "line comment start"
  | lineComment => "line comment"
  | slash => "block comment start"
  | blockComment => "block comment"
  | blockCommentStar => "block comment end"
  | quoted quote => "quoted string (" ++ quote.toString ++ ")"
  | escaped quote => "escape in quoted string (" ++ quote.toString ++ ")"

end State

end SqlScript.Scan
