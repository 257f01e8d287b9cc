import SqlScript.Scan.State
import SqlScript.Statement
import SqlScript.Text.Blank

/-!
# Scanning a script

One pass from left to right, one character at a time. Comments are dropped, strings are kept as
they stand, and a semicolon cuts only in plain text. A text that ends in a string or a comment is
no error: what is pending becomes the last statement.
-/

namespace SqlScript

open Scan

/--
A scan under way: its context, the text of the statement being read and the texts already cut,
both with the latest first.
-/
structure Scanner where
  state : State
  pending : List Char
  cut : List String
deriving DecidableEq, Repr

namespace Scanner

def start : Scanner := ⟨.plain, [], []⟩

instance : Inhabited Scanner := ⟨start⟩

def emitted (s : Scanner) : Nat := s.cut.length

/-- Keeps a character and goes on in `state`. -/
def keep (s : Scanner) (c : Char) (state : State) : Scanner :=
  { s with state, pending := c :: s.pending }

/-- Adds a text to the cut ones unless it is empty, and starts an empty one. -/
def close (s : Scanner) (text : List Char) : Scanner :=
  { state := .plain
    pending := []
    cut := if text.isEmpty then s.cut else String.ofList text :: s.cut }

/-- The pending text of a statement that a semicolon ends. -/
def pendingText (s : Scanner) : List Char := Text.trim s.pending.reverse

/-- The pending text of a statement that the end of the text ends. -/
def restText (s : Scanner) : List Char :=
  Text.trimStart (Text.trimTrailing s.pending.reverse)

def pushPlain (s : Scanner) (c : Char) : Scanner :=
  if c = ';' then s.close s.pendingText
  else if c = '-' then s.keep c .dash
  else if c = '/' then s.keep c .slash
  else if c = '\x27' ∨ c = '\x22' then s.keep c (.quoted c)
  else s.keep c .plain

/--
Reads a character. After a lone dash or slash it is kept literally and not looked at again, so a
quote there opens no string and a semicolon there cuts nothing.
-/
def push (s : Scanner) (c : Char) : Scanner :=
  match s.state with
  | .plain => s.pushPlain c
  | .dash =>
      if c = '-' then { s with state := .lineComment, pending := s.pending.tail }
      else s.keep c .plain
  | .lineComment => if c = '\n' then s.keep c .plain else s
  | .slash =>
      if c = '*' then { s with state := .blockComment, pending := s.pending.tail }
      else s.keep c .plain
  | .blockComment => if c = '*' then { s with state := .blockCommentStar } else s
  | .blockCommentStar =>
      if c = '/' then { s with state := .plain }
      else if c = '*' then s
      else { s with state := .blockComment }
  | .quoted quote =>
      if c = '\\' then s.keep c (.escaped quote)
      else if c = quote then s.keep c .plain
      else s.keep c (.quoted quote)
  | .escaped quote => s.keep c (.quoted quote)

/-- Reads a text. How a text is divided into chunks makes no difference: `feed_append`. -/
def feed (s : Scanner) (text : List Char) : Scanner := text.foldl push s

@[simp] theorem feed_nil (s : Scanner) : s.feed [] = s := rfl

@[simp] theorem feed_cons (s : Scanner) (c : Char) (text : List Char) :
    s.feed (c :: text) = (s.push c).feed text := rfl

theorem feed_append (s : Scanner) (first second : List Char) :
    s.feed (first ++ second) = (s.feed first).feed second := by
  simp [feed, List.foldl_append]

/-- Ends the text: all statements, in script order. -/
def finish (s : Scanner) : List Statement :=
  Statement.number (s.close s.restText).cut.reverse

end Scanner

/-- The scan of a whole text, before its end is taken into account. -/
def scan (text : String) : Scanner := Scanner.start.feed text.toList

theorem scan_append (first second : String) :
    scan (first ++ second) = (scan first).feed second.toList := by
  rw [scan, String.toList_append, Scanner.feed_append, scan]

def split (text : String) : List Statement := (scan text).finish

end SqlScript
