/-!
# Natural numbers in texts

A numeral is read from the left, and the first fault counts: a character that is no digit, or a
digit with which the number becomes too large.
-/

namespace QueryPath.Text

/-- Why a text is no numeral. -/
inductive NumeralError where
  | empty
  | notDigit
  | tooLarge
deriving DecidableEq, Repr

def NumeralError.message : NumeralError → String
  | empty => "cannot parse integer from empty string"
  | notDigit => "invalid digit found in string"
  | tooLarge => "number too large to fit in target type"

/-- The numbers of 64 bits are those below. -/
def wordBound : Nat := 0x10000000000000000

/-- The number that decimal digits write after the value `n` of the digits before them. -/
def naturalFrom (bound n : Nat) : List Char → Except NumeralError Nat
  | [] => .ok n
  | c :: s =>
      if c.isDigit then
        let n := n * 10 + (c.toNat - '0'.toNat)
        if n < bound then naturalFrom bound n s else .error .tooLarge
      else .error .notDigit

/-- The number below `bound` that a text writes in decimal digits, of which there is at least one,
after an optional plus sign. -/
def natural (bound : Nat) (text : String) : Except NumeralError Nat :=
  match text.toList with
  | [] => .error .empty
  | ['+'] => .error .notDigit
  | '+' :: s => naturalFrom bound 0 s
  | s => naturalFrom bound 0 s

end QueryPath.Text
