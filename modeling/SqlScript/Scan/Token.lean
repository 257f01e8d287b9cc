import SqlScript.Statement
import SqlScript.Text.Blank

/-!
# Tokens

A script as a sequence of tokens, each read in one go from the place where the last one ended. A
token knows the text that it covers and what of it goes into a statement: the tokens cover the
whole text (`flatMap_text_tokens`), and all but comments and cuts are kept as they stand.
-/

namespace SqlScript.Scan

/-- The text up to and including the first end of a line, and what follows it. -/
def throughLine : List Char → List Char × List Char
  | [] => ([], [])
  | c :: rest =>
      if c = '\n' then ([c], rest)
      else (c :: (throughLine rest).1, (throughLine rest).2)

/-- The text up to and including the first star before a slash, and what follows that slash. -/
def throughStarSlash : List Char → List Char × List Char
  | [] => ([], [])
  | [c] => ([c], [])
  | c :: d :: rest =>
      if c = '*' ∧ d = '/' then ([c, d], rest)
      else (c :: (throughStarSlash (d :: rest)).1, (throughStarSlash (d :: rest)).2)

/-- The text up to and including the first quote that no backslash makes literal, and the rest. -/
def throughQuote (quote : Char) : List Char → List Char × List Char
  | [] => ([], [])
  | [c] => ([c], [])
  | c :: d :: rest =>
      if c = '\\' then (c :: d :: (throughQuote quote rest).1, (throughQuote quote rest).2)
      else if c = quote then ([c], d :: rest)
      else (c :: (throughQuote quote (d :: rest)).1, (throughQuote quote (d :: rest)).2)

theorem throughLine_append (text : List Char) :
    (throughLine text).1 ++ (throughLine text).2 = text := by
  fun_induction throughLine text <;> simp_all

theorem throughStarSlash_append (text : List Char) :
    (throughStarSlash text).1 ++ (throughStarSlash text).2 = text := by
  fun_induction throughStarSlash text <;> simp_all

theorem throughQuote_append (quote : Char) (text : List Char) :
    (throughQuote quote text).1 ++ (throughQuote quote text).2 = text := by
  fun_induction throughQuote quote text <;> simp_all

inductive Token where
  /-- Two dashes and the line they stand in, to its end. -/
  | lineComment (body : List Char)
  /-- A slash and a star, to the next star and slash. -/
  | blockComment (body : List Char)
  /-- A lone dash or slash with the character after it, which is literal whatever it is. -/
  | sign (c : Char) (next : List Char)
  /-- A string from its quote to the closing one. -/
  | string (quote : Char) (body : List Char)
  | cut
  | plain (c : Char)
deriving DecidableEq, Repr

namespace Token

def text : Token → List Char
  | lineComment body => '-' :: '-' :: body
  | blockComment body => '/' :: '*' :: body
  | sign c next => c :: next
  | string quote body => quote :: body
  | cut => [';']
  | plain c => [c]

/-- What a token gives to its statement: of a line comment only the end of the line is left. -/
def kept : Token → List Char
  | lineComment body => body.filter (· = '\n')
  | blockComment _ | cut => []
  | token => token.text

def isComment : Token → Bool
  | lineComment _ | blockComment _ => true
  | _ => false

/-- The token that starts with `c`, and what follows it. -/
def read (c : Char) (rest : List Char) : Token × List Char :=
  if c = '-' ∧ rest.head? = some '-' then
    (lineComment (throughLine rest.tail).1, (throughLine rest.tail).2)
  else if c = '/' ∧ rest.head? = some '*' then
    (blockComment (throughStarSlash rest.tail).1, (throughStarSlash rest.tail).2)
  else if c = '-' ∨ c = '/' then (sign c (rest.take 1), rest.drop 1)
  else if c = '\x27' ∨ c = '\x22' then
    (string c (throughQuote c rest).1, (throughQuote c rest).2)
  else if c = ';' then (cut, rest)
  else (plain c, rest)

/-- Nothing is lost between a token and what follows it. -/
theorem text_read (c : Char) (rest : List Char) :
    (read c rest).1.text ++ (read c rest).2 = c :: rest := by
  unfold read
  split
  · rename_i h
    obtain ⟨later, rfl⟩ : ∃ later, rest = '-' :: later := by
      cases rest <;> simp_all
    simp [text, h.1, throughLine_append]
  · split
    · rename_i h
      obtain ⟨later, rfl⟩ : ∃ later, rest = '*' :: later := by
        cases rest <;> simp_all
      simp [text, h.1, throughStarSlash_append]
    · split
      · cases rest <;> simp [text]
      · split
        · simp [text, throughQuote_append]
        · split <;> simp_all [text]

theorem text_ne_nil (token : Token) : token.text ≠ [] := by cases token <;> simp [text]

theorem length_read (c : Char) (rest : List Char) :
    (read c rest).2.length < (c :: rest).length := by
  have h := congrArg List.length (text_read c rest)
  have := List.length_pos_iff.2 (text_ne_nil (read c rest).1)
  rw [List.length_append] at h
  omega

end Token

def tokens : List Char → List Token
  | [] => []
  | c :: rest => (Token.read c rest).1 :: tokens (Token.read c rest).2
termination_by text => text.length
decreasing_by exact Token.length_read c rest

@[simp] theorem tokens_nil : tokens [] = [] := by rw [tokens]

theorem tokens_cons (c : Char) (rest : List Char) :
    tokens (c :: rest) = (Token.read c rest).1 :: tokens (Token.read c rest).2 := by
  rw [tokens]

theorem flatMap_text_tokens (text : List Char) : (tokens text).flatMap Token.text = text := by
  fun_induction tokens text with
  | case1 => rfl
  | case2 c rest ih => simp [ih, Token.text_read]

/-- What the tokens between cuts keep: one piece more than there are cuts. -/
def pieces : List Token → List (List Char)
  | [] => [[]]
  | .cut :: rest => [] :: pieces rest
  | token :: rest =>
      match pieces rest with
      | [] => [token.kept]
      | piece :: later => (token.kept ++ piece) :: later

/-- The pieces without blanks at their ends; the last one also without semicolons at its end. -/
def trimPieces : List (List Char) → List (List Char)
  | [] => []
  | [last] => [Text.trimTrailing (Text.trim last)]
  | piece :: later => Text.trim piece :: trimPieces later

def statements (tokens : List Token) : List Statement :=
  Statement.number (((trimPieces (pieces tokens)).filter (! ·.isEmpty)).map String.ofList)

end SqlScript.Scan
