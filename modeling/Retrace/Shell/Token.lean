import Retrace.Shell.Syntax

/-!
# Tokens of shell scripts

What a script is made of, and how a shell names each of them when it does not fit.
-/

namespace Retrace.Shell

/-- What a script is made of. -/
inductive Token where
  | endOfFile
  | newline
  | semicolon
  | ampersand
  | andAnd
  | orOr
  | bar
  | openParen
  | closeParen
  | doubleSemicolon
  | redirection
  | word
  | reserved (w : String)
  deriving DecidableEq, Repr

/-- A text in double quotes. -/
def inQuotes (s : String) : String := "\"" ++ s ++ "\""

namespace Token

/-- The words that are no words of a command where one begins. -/
def reservedWords : List String :=
  ["!", "case", "do", "done", "elif", "else", "esac", "fi", "for", "if", "in", "then", "until", "while", "\x7b", "\x7d"]

/-- The reserved word that some characters spell. -/
def reserved? (cs : Raw) : Option Token := (reservedWords.find? (·.toList == cs)).map .reserved

/-- What a complaint calls a token. -/
def title : Token → String
  | .endOfFile => "end of file"
  | .newline => "newline"
  | .semicolon => inQuotes ";"
  | .ampersand => inQuotes "&"
  | .andAnd => inQuotes "&&"
  | .orOr => inQuotes "||"
  | .bar => inQuotes "|"
  | .openParen => inQuotes "("
  | .closeParen => inQuotes ")"
  | .doubleSemicolon => inQuotes ";;"
  | .redirection => "redirection"
  | .word => "word"
  | .reserved w => inQuotes w

/-- A list of commands ends before this token. -/
def endsList : Token → Bool
  | .endOfFile | .closeParen | .doubleSemicolon => true
  | .reserved w => ["do", "done", "elif", "else", "esac", "fi", "then", "\x7d"].contains w
  | _ => false

end Token

/-- What is wrong with a script, and on which line. -/
structure Fault where
  line : Nat
  why : String
  deriving DecidableEq, Repr

end Retrace.Shell
