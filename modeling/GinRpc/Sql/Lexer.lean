import GinRpc.Text.Basic

/-!
# Lexical structure of SQL

A lexer for SQL as an automaton that reads one character at a time.  What differs between database
systems is a `Lexicon`: the quotes of names and of strings, where a backslash escapes the next
character, the forms of comments, and which words are not names.  Blanks are the white space of
Unicode in all of them.  Not modelled are dollar quotes, names in brackets and the comments of MySQL
that are executed.

* `Lexicon.lex` : the tokens of a text; none if a quote or a comment is not closed.
* `Lexicon.postgreSQL` : the rules of one database system.
-/

namespace GinRpc

namespace Sql

open Text

inductive Token where
  | word (t : Text)
  /-- a name in quotes -/
  | name (q : Char) (t : Text)
  | string (t : Text)
  | punct (c : Char)
  deriving DecidableEq

/-- Letters, digits, the underscore, the dollar sign, and everything outside of ASCII. -/
def isWordChar (c : Char) : Bool :=
  !isSpace c && (c.isAlphanum || c == '_' || c == '$' || decide (0x80 ≤ c.toNat))

/-- The lexical rules of a database system. -/
structure Lexicon where
  nameQuotes : List Char
  stringQuotes : List Char
  /-- a backslash in these quotes escapes the next character -/
  escapes : Char → Bool
  /-- a number sign begins a comment -/
  hashComments : Bool
  /-- two dashes begin a comment only before a blank -/
  dashBlank : Bool
  nestedComments : Bool
  /-- a quoted name may be empty -/
  emptyNames : Bool
  /-- words that are numbers -/
  isNumber : Text → Bool
  /-- words, in capital letters, that cannot be names without quotes -/
  reserved : List Text

/-- What the lexer is reading. -/
inductive Mode where
  | blank
  | word (w : Text)
  | quoted (q : Char) (body : Text)
  /-- after a quote, which ends the text unless it is doubled -/
  | closing (q : Char) (body : Text)
  | escaped (q : Char) (body : Text)
  | dash
  | dashes
  | slash
  | line
  | block (depth : ℕ)
  /-- in a comment, after a star -/
  | star (depth : ℕ)
  /-- in a comment, after a slash -/
  | opening (depth : ℕ)

namespace Lexicon

variable (L : Lexicon)

/-- The token of a quoted text. -/
def quotedToken (q : Char) (body : Text) : Option Token :=
  if q ∈ L.nameQuotes then
    if body = [] ∧ L.emptyNames = false then none else some (.name q body)
  else some (.string body)

/-- A character between two tokens. -/
def enter (c : Char) : List Token × Mode :=
  if isSpace c then ([], .blank)
  else if isWordChar c then ([], .word [c])
  else if c ∈ L.nameQuotes ∨ c ∈ L.stringQuotes then ([], .quoted c [])
  else if c = '-' then ([], .dash)
  else if c = '/' then ([], .slash)
  else if c = '#' ∧ L.hashComments = true then ([], .line)
  else ([.punct c], .blank)

/-- Tokens are complete, and a character comes after them. -/
def after (ts : List Token) (c : Char) : List Token × Mode :=
  (ts ++ (L.enter c).1, (L.enter c).2)

def step : Mode → Char → Option (List Token × Mode)
  | .blank, c => some (L.enter c)
  | .word w, c => some (if isWordChar c then ([], .word (w ++ [c])) else L.after [.word w] c)
  | .quoted q body, c =>
    some ([],
      if c = q then .closing q body
      else if c = '\\' ∧ L.escapes q = true then .escaped q body
      else .quoted q (body ++ [c]))
  | .escaped q body, c => some ([], .quoted q (body ++ [c]))
  | .closing q body, c =>
    if c = q then some ([], .quoted q (body ++ [q]))
    else (L.quotedToken q body).map fun t => L.after [t] c
  | .dash, c =>
    some (if c = '-' then ([], if L.dashBlank then .dashes else .line)
      else L.after [.punct '-'] c)
  | .dashes, c =>
    some (if isSpace c then ([], if c = '\n' then .blank else .line)
      else if c = '-' then ([.punct '-'], .dashes)
      else L.after [.punct '-', .punct '-'] c)
  | .slash, c => some (if c = '*' then ([], .block 0) else L.after [.punct '/'] c)
  | .line, c => some ([], if c = '\n' then .blank else .line)
  | .block depth, c =>
    some ([],
      if c = '*' then .star depth
      else if c = '/' ∧ L.nestedComments = true then .opening depth
      else .block depth)
  | .star depth, c =>
    some ([],
      if c = '/' then if depth = 0 then .blank else .block (depth - 1)
      else if c = '*' then .star depth
      else .block depth)
  | .opening depth, c =>
    some ([],
      if c = '*' then .block (depth + 1)
      else if c = '/' then .opening depth
      else .block depth)

/-- The end of the text. -/
def finish : Mode → Option (List Token)
  | .blank | .line | .dashes => some []
  | .word w => some [.word w]
  | .closing q body => (L.quotedToken q body).map fun t => [t]
  | .dash => some [.punct '-']
  | .slash => some [.punct '/']
  | .quoted _ _ | .escaped _ _ | .block _ | .star _ | .opening _ => none

/-- The tokens of the rest of a text.  The null character is not allowed anywhere. -/
def lexFrom : Mode → Text → Option (List Token)
  | m, [] => L.finish m
  | m, c :: t =>
    if c = '\x00' then none
    else (L.step m c).bind fun r => (lexFrom r.2 t).map (r.1 ++ ·)

def lex (t : Text) : Option (List Token) := L.lexFrom .blank t

theorem isSpace_eq_false_of_isWordChar {c : Char} (h : isWordChar c = true) : isSpace c = false :=
  Bool.not_eq_true' _ ▸ (Bool.and_eq_true_iff.1 h).1

/-! ### Database systems -/

/-- The words that begin with a digit are numbers. -/
def isNumberLike (w : Text) : Bool := w.head?.any Char.isDigit

def postgreSQL (reserved : List Text) : Lexicon where
  nameQuotes := ['"']
  stringQuotes := ['\'']
  escapes _ := false
  hashComments := false
  dashBlank := false
  nestedComments := true
  emptyNames := false
  isNumber := isNumberLike
  reserved := reserved

end Lexicon

end Sql

end GinRpc
