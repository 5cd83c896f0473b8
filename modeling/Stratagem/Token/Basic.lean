import Stratagem.Text.Quoted
import Stratagem.Text.Decimal

/-!
# Tokens

A program is a sequence of symbols, numbers and words. Some words are keywords, all others are
names. Each token remembers its spelling and the place where it starts: the offset from zero, the
line and the column from one.

Two tokens are the same when they agree in kind, spelling, value and offset; line and column only
repeat what the offset says.
-/

namespace Stratagem

/-- The kinds of tokens. -/
inductive Token.Kind where
  | plus | minus | star | slash | percent | caret | equal
  | lparen | rparen | lbrace | rbrace
  | number | ident
  | done | move | shoot | ifWord | thenWord | elseWord | whileWord
  | ally | opponent | nearby
  | up | down | upleft | upright | downleft | downright
  | eof
  deriving DecidableEq, Repr, Inhabited

namespace Token.Kind

/-- All kinds, in the order of the language's table. -/
def all : List Kind := [
    .plus, .minus, .star, .slash, .percent, .caret, .equal, .lparen, .rparen, .lbrace, .rbrace,
    .number, .ident, .done, .move, .shoot, .ifWord, .thenWord, .elseWord, .whileWord,
    .ally, .opponent, .nearby, .up, .down, .upleft, .upright, .downleft, .downright, .eof]

/-- The name of a kind, as listings give it. -/
def name : Kind → String
  | .plus => "PLUS"
  | .minus => "MINUS"
  | .star => "STAR"
  | .slash => "SLASH"
  | .percent => "PERCENT"
  | .caret => "CARET"
  | .equal => "EQUAL"
  | .lparen => "LPAREN"
  | .rparen => "RPAREN"
  | .lbrace => "LBRACE"
  | .rbrace => "RBRACE"
  | .number => "NUMBER"
  | .ident => "IDENT"
  | .done => "DONE"
  | .move => "MOVE"
  | .shoot => "SHOOT"
  | .ifWord => "IF"
  | .thenWord => "THEN"
  | .elseWord => "ELSE"
  | .whileWord => "WHILE"
  | .ally => "ALLY"
  | .opponent => "OPPONENT"
  | .nearby => "NEARBY"
  | .up => "UP"
  | .down => "DOWN"
  | .upleft => "UPLEFT"
  | .upright => "UPRIGHT"
  | .downleft => "DOWNLEFT"
  | .downright => "DOWNRIGHT"
  | .eof => "EOF"

/-- The kind with a given name. -/
def ofName? (name : String) : Option Kind := all.find? fun kind => kind.name = name

/-- The keywords and their kinds. -/
def keywords : List (String × Kind) := [
    ("done", .done), ("move", .move), ("shoot", .shoot), ("if", .ifWord), ("then", .thenWord),
    ("else", .elseWord), ("while", .whileWord), ("ally", .ally), ("opponent", .opponent),
    ("nearby", .nearby), ("up", .up), ("down", .down), ("upleft", .upleft), ("upright", .upright),
    ("downleft", .downleft), ("downright", .downright)]

/-- The one-character symbols and their kinds. -/
def symbols : List (Char × Kind) := [
    ('+', .plus), ('-', .minus), ('*', .star), ('/', .slash), ('%', .percent), ('^', .caret),
    ('=', .equal), ('(', .lparen), (')', .rparen), ('\x7b', .lbrace), ('\x7d', .rbrace)]

/-- The kind of a word: a keyword's own kind, and a name otherwise. -/
def ofWord (word : String) : Kind := (keywords.lookup word).getD .ident

/-- The kind of a symbol. -/
def ofSymbol? (c : Char) : Option Kind := symbols.lookup c

end Token.Kind

/-- A token with its spelling, its value if it is a number, and the place where it starts. -/
structure Token where
  kind : Token.Kind
  lexeme : String
  value : Option Int := none
  pos : Int := 0
  line : Int := 1
  column : Int := 1
  deriving DecidableEq, Repr, Inhabited

namespace Token

/-- Equality of tokens: line and column do not count. -/
def same (a b : Token) : Bool :=
  a.kind = b.kind && a.lexeme = b.lexeme && a.value = b.value && a.pos = b.pos

/-- A token as listings show it. -/
def display (t : Token) : String :=
  "Token(" ++ t.kind.name ++ ", " ++ Text.quoted t.lexeme ++
    (match t.value with
      | some value => ", value=" ++ Decimal.text value
      | none => "") ++
    ", pos=" ++ Decimal.text t.pos ++ ")"

end Token

end Stratagem
