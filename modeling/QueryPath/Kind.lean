/-!
# Kinds of values

A kind says what a basic value is: for an attribute, both how queries see it and how its column
stores it. Each kind has a name, by which definitions refer to it, and a column type.
-/

namespace QueryPath

/-- What a basic value is. -/
inductive Kind where
  | boolean
  | integer
  | long
  | double
  | decimal
  | string
  | date
  | timestamp
  | uuid
  | binary
  | enum
deriving DecidableEq, Repr, Inhabited

namespace Kind

def all : List Kind :=
  [boolean, integer, long, double, decimal, string, date, timestamp, uuid, binary, enum]

def name : Kind → String
  | boolean => "boolean"
  | integer => "integer"
  | long => "long"
  | double => "double"
  | decimal => "decimal"
  | string => "string"
  | date => "date"
  | timestamp => "timestamp"
  | uuid => "uuid"
  | binary => "binary"
  | enum => "enum"

/-- Column type of values of the kind. -/
def sqlType : Kind → String
  | boolean => "boolean"
  | integer => "integer"
  | long => "bigint"
  | double => "double precision"
  | decimal => "numeric"
  | string => "varchar"
  | date => "date"
  | timestamp => "timestamp"
  | uuid => "uuid"
  | binary => "varbinary"
  | enum => "smallint"

/-- The kind of that name. -/
def ofName? (name : String) : Option Kind := all.find? (·.name == name)

/-- Name and column type, as shown to users. -/
def text (k : Kind) : String := s!"{k.name} ({k.sqlType})"

end Kind

end QueryPath
