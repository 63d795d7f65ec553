import Attest.Text.Lower

/-!
Reserved words.  They match in either case.  Most of them have no place in the grammar yet: they
are reserved so that it can grow without turning the name of a column into a word of its own.
-/

namespace Attest

inductive Keyword where
  | ACTOR | ADD | ALL | ALTER | AND | ANY | AS | ASC | BEGIN | BETWEEN | BY | CASCADE | CASE
  | CAST | CHECK | COLUMN | COMMIT | CONSTRAINT | CREATE | CROSS | DATABASE | DEFAULT | DELETE
  | DESC | DISTINCT | DROP | ELSE | END | EXCEPT | EXISTS | EXPLAIN | FOREIGN | FROM | FULL
  | GRANT | GROUP | HAVING | IF | IN | INDEX | INNER | INSERT | INTERSECT | INTO | IS | JOIN | KEY
  | LEFT | LIKE | LIMIT | NATURAL | NORMALIZE | NOT | OFFSET | ON | OR | ORDER | OUTER | PRIMARY
  | PROVENANCE | RATIONALE | REFERENCES | REPLACE | RETURNING | REVOKE | RIGHT | ROLE | ROLLBACK
  | SCHEMA | SELECT | SET | TABLE | THEN | TO | TRANSACTION | TRUNCATE | UNION | UNIQUE | UPDATE
  | USING | VALUES | VERIFY | VIEW | WHEN | WHERE | WITH
deriving DecidableEq, Repr

namespace Keyword

def all : List Keyword := [
  .ACTOR, .ADD, .ALL, .ALTER, .AND, .ANY, .AS, .ASC, .BEGIN, .BETWEEN, .BY, .CASCADE, .CASE,
  .CAST, .CHECK, .COLUMN, .COMMIT, .CONSTRAINT, .CREATE, .CROSS, .DATABASE, .DEFAULT, .DELETE,
  .DESC, .DISTINCT, .DROP, .ELSE, .END, .EXCEPT, .EXISTS, .EXPLAIN, .FOREIGN, .FROM, .FULL,
  .GRANT, .GROUP, .HAVING, .IF, .IN, .INDEX, .INNER, .INSERT, .INTERSECT, .INTO, .IS, .JOIN, .KEY,
  .LEFT, .LIKE, .LIMIT, .NATURAL, .NORMALIZE, .NOT, .OFFSET, .ON, .OR, .ORDER, .OUTER, .PRIMARY,
  .PROVENANCE, .RATIONALE, .REFERENCES, .REPLACE, .RETURNING, .REVOKE, .RIGHT, .ROLE, .ROLLBACK,
  .SCHEMA, .SELECT, .SET, .TABLE, .THEN, .TO, .TRANSACTION, .TRUNCATE, .UNION, .UNIQUE, .UPDATE,
  .USING, .VALUES, .VERIFY, .VIEW, .WHEN, .WHERE, .WITH]

def name : Keyword → String
  | .ACTOR => "ACTOR"
  | .ADD => "ADD"
  | .ALL => "ALL"
  | .ALTER => "ALTER"
  | .AND => "AND"
  | .ANY => "ANY"
  | .AS => "AS"
  | .ASC => "ASC"
  | .BEGIN => "BEGIN"
  | .BETWEEN => "BETWEEN"
  | .BY => "BY"
  | .CASCADE => "CASCADE"
  | .CASE => "CASE"
  | .CAST => "CAST"
  | .CHECK => "CHECK"
  | .COLUMN => "COLUMN"
  | .COMMIT => "COMMIT"
  | .CONSTRAINT => "CONSTRAINT"
  | .CREATE => "CREATE"
  | .CROSS => "CROSS"
  | .DATABASE => "DATABASE"
  | .DEFAULT => "DEFAULT"
  | .DELETE => "DELETE"
  | .DESC => "DESC"
  | .DISTINCT => "DISTINCT"
  | .DROP => "DROP"
  | .ELSE => "ELSE"
  | .END => "END"
  | .EXCEPT => "EXCEPT"
  | .EXISTS => "EXISTS"
  | .EXPLAIN => "EXPLAIN"
  | .FOREIGN => "FOREIGN"
  | .FROM => "FROM"
  | .FULL => "FULL"
  | .GRANT => "GRANT"
  | .GROUP => "GROUP"
  | .HAVING => "HAVING"
  | .IF => "IF"
  | .IN => "IN"
  | .INDEX => "INDEX"
  | .INNER => "INNER"
  | .INSERT => "INSERT"
  | .INTERSECT => "INTERSECT"
  | .INTO => "INTO"
  | .IS => "IS"
  | .JOIN => "JOIN"
  | .KEY => "KEY"
  | .LEFT => "LEFT"
  | .LIKE => "LIKE"
  | .LIMIT => "LIMIT"
  | .NATURAL => "NATURAL"
  | .NORMALIZE => "NORMALIZE"
  | .NOT => "NOT"
  | .OFFSET => "OFFSET"
  | .ON => "ON"
  | .OR => "OR"
  | .ORDER => "ORDER"
  | .OUTER => "OUTER"
  | .PRIMARY => "PRIMARY"
  | .PROVENANCE => "PROVENANCE"
  | .RATIONALE => "RATIONALE"
  | .REFERENCES => "REFERENCES"
  | .REPLACE => "REPLACE"
  | .RETURNING => "RETURNING"
  | .REVOKE => "REVOKE"
  | .RIGHT => "RIGHT"
  | .ROLE => "ROLE"
  | .ROLLBACK => "ROLLBACK"
  | .SCHEMA => "SCHEMA"
  | .SELECT => "SELECT"
  | .SET => "SET"
  | .TABLE => "TABLE"
  | .THEN => "THEN"
  | .TO => "TO"
  | .TRANSACTION => "TRANSACTION"
  | .TRUNCATE => "TRUNCATE"
  | .UNION => "UNION"
  | .UNIQUE => "UNIQUE"
  | .UPDATE => "UPDATE"
  | .USING => "USING"
  | .VALUES => "VALUES"
  | .VERIFY => "VERIFY"
  | .VIEW => "VIEW"
  | .WHEN => "WHEN"
  | .WHERE => "WHERE"
  | .WITH => "WITH"

instance : ToString Keyword := ⟨name⟩

/-- The reserved word that a word spells in either case of ASCII. -/
def ofWord? (w : String) : Option Keyword := all.find? (·.name == Text.asciiUpper w)

end Keyword
end Attest
