/-!
# Keywords

The reserved words of the statement language. Only words that the grammar decides on are reserved:
names of types and functions are ordinary identifiers. A keyword is recognised in any mixture of ASCII
case and written in capitals.
-/

namespace Clausal

inductive Keyword where
  | select
  | insert
  | upsert
  | merge
  | update
  | delete
  | create
  | from
  | into
  | values
  | set
  | where
  | group
  | having
  | order
  | by
  | limit
  | offset
  | on
  | distinct
  | new
  | as
  | asc
  | desc
  | table
  | index
  | unique
  | constraint
  | primary
  | key
  | check
  | and
  | or
  | not
  | in
  | between
  | like
  | is
  | null
  | true
  | false
  deriving DecidableEq, Repr

namespace Keyword

def all : List Keyword :=
  [.select, .insert, .upsert, .merge, .update, .delete, .create, .from, .into, .values, .set,
   .where, .group, .having, .order, .by, .limit, .offset, .on, .distinct, .new, .as, .asc, .desc,
   .table, .index, .unique, .constraint, .primary, .key, .check, .and, .or, .not, .in, .between,
   .like, .is, .null, .true, .false]

def text : Keyword → String
  | .select => "SELECT"
  | .insert => "INSERT"
  | .upsert => "UPSERT"
  | .merge => "MERGE"
  | .update => "UPDATE"
  | .delete => "DELETE"
  | .create => "CREATE"
  | .from => "FROM"
  | .into => "INTO"
  | .values => "VALUES"
  | .set => "SET"
  | .where => "WHERE"
  | .group => "GROUP"
  | .having => "HAVING"
  | .order => "ORDER"
  | .by => "BY"
  | .limit => "LIMIT"
  | .offset => "OFFSET"
  | .on => "ON"
  | .distinct => "DISTINCT"
  | .new => "NEW"
  | .as => "AS"
  | .asc => "ASC"
  | .desc => "DESC"
  | .table => "TABLE"
  | .index => "INDEX"
  | .unique => "UNIQUE"
  | .constraint => "CONSTRAINT"
  | .primary => "PRIMARY"
  | .key => "KEY"
  | .check => "CHECK"
  | .and => "AND"
  | .or => "OR"
  | .not => "NOT"
  | .in => "IN"
  | .between => "BETWEEN"
  | .like => "LIKE"
  | .is => "IS"
  | .null => "NULL"
  | .true => "TRUE"
  | .false => "FALSE"

def ofWord? (word : List Char) : Option Keyword :=
  let capitals := String.ofList (word.map Char.toUpper)
  all.find? fun k => k.text == capitals

def isReserved (name : String) : Bool := (ofWord? name.toList).isSome

end Keyword

end Clausal
