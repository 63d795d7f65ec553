import Attest.Category
import Attest.Double.Text
import Attest.Keyword
import Attest.Position
import Attest.Text.Quoted

/-!
Tokens of the source language.
-/

namespace Attest

inductive Symbol where
  | eq | ne | lt | gt | le | ge
  | plus | minus | star | slash | percent | caret | concat
  | comma | lparen | rparen | lbracket | rbracket | lbrace | rbrace
  | colon | semicolon | dot
deriving DecidableEq, Repr

namespace Symbol

def name : Symbol → String
  | eq => "="
  | ne => "!="
  | lt => "<"
  | gt => ">"
  | le => "<="
  | ge => ">="
  | plus => "+"
  | minus => "-"
  | star => "*"
  | slash => "/"
  | percent => "%"
  | caret => "^"
  | concat => "||"
  | comma => ","
  | lparen => "("
  | rparen => ")"
  | lbracket => "["
  | rbracket => "]"
  | lbrace => "\x7b"
  | rbrace => "\x7d"
  | colon => ":"
  | semicolon => ";"
  | dot => "."

instance : ToString Symbol := ⟨name⟩

end Symbol

inductive TokenKind where
  | keyword (k : Keyword)
  | typeName (c : Category)
  | ident (name : String)
  | nat (n : UInt64)
  | float (x : Double)
  | text (s : String)
  | bool (b : Bool)
  | null
  | symbol (s : Symbol)
  | comment (s : String)
  | eof
deriving DecidableEq, Repr

namespace TokenKind

def describe : TokenKind → String
  | keyword k => s!"keyword {k}"
  | typeName c => s!"type {c}"
  | ident n => "identifier '" ++ n ++ "'"
  | nat n => s!"number {n}"
  | float x => "number " ++ x.literal
  | text s => "string " ++ Text.quote s
  | bool b => if b then "TRUE" else "FALSE"
  | null => "NULL"
  | symbol s => "'" ++ s.name ++ "'"
  | comment _ => "comment"
  | eof => "end of input"

def isComment : TokenKind → Bool
  | comment _ => true
  | _ => false

end TokenKind

/-- A token with its source text and the place where that begins. -/
structure Token where
  kind : TokenKind
  lexeme : String
  position : Position
deriving DecidableEq, Repr

namespace Token

def endOffset (t : Token) : Nat := t.position.offset + t.lexeme.utf8ByteSize

def isEnd (t : Token) : Bool := t.kind == .eof

end Token
end Attest
