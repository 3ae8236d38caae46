import QueryPath.Text.Quoted

/-!
# Documents of another form

What a document says where its form wants something else.
-/

namespace QueryPath.Document

/-- What is found in a document. -/
inductive Found where
  | nothing
  | flag (value : Bool)
  | integer (value : Int)
  /-- An integer of more than 64 bits; the type that holds it is named in messages. -/
  | largeInteger (value : Int) (type : String)
  /-- A number with a fraction or an exponent, as its digits are shown. -/
  | decimal (digits : String)
  | text (value : String)
  | list
  | record
deriving DecidableEq, Repr

/-- What is found, in words. Formats differ in the word for nothing. -/
def Found.describe (nothingWord : String) : Found → String
  | nothing => nothingWord
  | flag value => s!"boolean `{value}`"
  | integer value => s!"integer `{value}`"
  | largeInteger value type => s!"integer `{value}` as {type}"
  | decimal digits => s!"floating point `{digits}`"
  | text value => s!"string {Text.quoted value}"
  | list => "sequence"
  | record => "map"

/-- Why a document does not have a form. -/
inductive Mismatch where
  | kind (found : Found) (expected : String)
  /-- A list that stands for a record breaks off before a required field. -/
  | tooShort (length : Nat) (expected : String)
  | missing (field : String)
  | repeated (field : String)
  | unknownWord (word : String) (known : List String)
deriving DecidableEq, Repr

/-- A choice of words. -/
def alternatives : List String → String
  | [] => "nothing"
  | [w] => s!"`{w}`"
  | [v, w] => s!"`{v}` or `{w}`"
  | ws => "one of " ++ ", ".intercalate (ws.map fun w => s!"`{w}`")

def Mismatch.message (nothingWord : String) : Mismatch → String
  | kind found expected => s!"invalid type: {found.describe nothingWord}, expected {expected}"
  | tooShort length expected => s!"invalid length {length}, expected {expected}"
  | missing field => s!"missing field `{field}`"
  | repeated field => s!"duplicate field `{field}`"
  | unknownWord word known => s!"unknown variant `{word}`, expected {alternatives known}"

end QueryPath.Document
