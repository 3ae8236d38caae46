import QueryPath.Document.Json.Fault
import QueryPath.Text.Blank
import QueryPath.Text.Decimal
import QueryPath.Text.Hex
import QueryPath.Text.Natural

/-!
# Words, strings and numbers of a JSON text

The grammar is the strict one. A string stands for a text only if all surrogates among its
escapes come in pairs, and a number has a value only if a floating-point number can hold it; both
are checked where the value is wanted, and not where it is skipped.
-/

namespace QueryPath.Document.Json

open Text

/-- The text after the word that is expected. -/
def dropWord : (expected s : List Char) → Except Stop (List Char)
  | [], s => .ok s
  | _ :: _, [] => .error ⟨.endInValue, [], 0⟩
  | e :: expected, c :: s => if e == c then dropWord expected s else .error ⟨.noWord, c :: s, 1⟩

/-! ### Strings -/

/-- The character of an escape of one letter. -/
def letterEscape? : Char → Option Char
  | '"' => some '"'
  | '\\' => some '\\'
  | '/' => some '/'
  | 'b' => some (Char.ofNat 8)
  | 'f' => some (Char.ofNat 12)
  | 'n' => some '\n'
  | 'r' => some '\r'
  | 't' => some '\t'
  | _ => none

/-- The UTF-16 unit that four hexadecimal digits write. -/
def unit (s : List Char) : Except Stop (Nat × List Char) :=
  match (s.take 4).mapM hexValue? with
  | some [a, b, c, d] => .ok (((a * 16 + b) * 16 + c) * 16 + d, s.drop 4)
  | _ => if byteLength s < 4 then .error ⟨.endInString, [], 0⟩ else .error ⟨.badEscape, s, 4⟩

/-- Whether a UTF-16 unit is the first half of a pair. -/
def isHighSurrogate (u : Nat) : Bool := 0xD800 ≤ u && u < 0xDC00

/-- Whether a UTF-16 unit is the second half of a pair. -/
def isLowSurrogate (u : Nat) : Bool := 0xDC00 ≤ u && u < 0xE000

/-- The character that one unit or a pair of them writes. -/
def unitEscape (s : List Char) : Except Stop (Char × List Char) := do
  let (u, s) ← unit s
  if isLowSurrogate u then throw ⟨.loneSurrogate, s, 0⟩
  if !isHighSurrogate u then return (Char.ofNat u, s)
  match s with
  | '\\' :: 'u' :: s =>
      let (v, s) ← unit s
      if !isLowSurrogate v then throw ⟨.loneSurrogate, s, 0⟩
      return (Char.ofNat (0x10000 + (u - 0xD800) * 0x400 + (v - 0xDC00)), s)
  | [] | ['\\'] => throw ⟨.endInString, [], 0⟩
  | '\\' :: s => throw ⟨.noSecondSurrogate, s, 1⟩
  | s => throw ⟨.noSecondSurrogate, s, 1⟩

/-- The character of an escape, whose backslash has been read. -/
def escape (s : List Char) : Except Stop (Char × List Char) :=
  match s with
  | [] => .error ⟨.endInString, [], 0⟩
  | 'u' :: r => unitEscape r
  | c :: r =>
      match letterEscape? c with
      | some e => .ok (e, r)
      | none => .error ⟨.badEscape, s, 1⟩

/-- The text of a string up to its closing quote, behind the characters `done`, in reverse order.
The bound is the number of characters left. -/
def quotedTextFrom (done : List Char) : (bound : Nat) → List Char → Except Stop (String × List Char)
  | _, [] | 0, _ => .error ⟨.endInString, [], 0⟩
  | bound + 1, c :: s =>
      if c == '"' then .ok (String.ofList done.reverse, s)
      else if c == '\\' then do
        let (e, s) ← escape s
        quotedTextFrom (e :: done) bound s
      else if c.toNat < 32 then .error ⟨.control, s, 0⟩
      else quotedTextFrom (c :: done) bound s

/-- The text of a string whose opening quote has been read. -/
def quotedText (s : List Char) : Except Stop (String × List Char) := quotedTextFrom [] s.length s

/-- The text after a string whose opening quote has been read. -/
def dropString : List Char → Except Stop (List Char)
  | [] => .error ⟨.endInString, [], 0⟩
  | '"' :: s => .ok s
  | '\\' :: 'u' :: a :: b :: c :: d :: s =>
      match [a, b, c, d].mapM hexValue? with
      | some _ => dropString s
      | none => .error ⟨.badEscape, a :: b :: c :: d :: s, 4⟩
  | '\\' :: c :: s =>
      if c == 'u' then
        if byteLength s < 4 then .error ⟨.endInString, [], 0⟩ else .error ⟨.badEscape, s, 4⟩
      else if (letterEscape? c).isSome then dropString s
      else .error ⟨.badEscape, c :: s, 1⟩
  | c :: s =>
      if c == '\\' then .error ⟨.endInString, [], 0⟩
      else if c.toNat < 32 then .error ⟨.control, c :: s, 0⟩
      else dropString s

/-! ### Numbers -/

/-- A number as it is written. -/
structure Numeral where
  isNegative : Bool
  whole : List Char
  /-- The digits behind the point, if there is one. -/
  fraction : Option (List Char)
  /-- The sign and the digits of the exponent, if there is one. -/
  exponent : Option (Bool × List Char)
deriving DecidableEq, Repr

/-- The fault where a digit is wanted. At the end of the text it is `atEnd`. -/
def noDigit (atEnd : Cause) (s : List Char) : Stop :=
  match s with
  | [] => ⟨atEnd, [], 0⟩
  | _ => ⟨.badNumber, s, 1⟩

/-- One digit or more. -/
def digits (atEnd : Cause) (s : List Char) : Except Stop (List Char × List Char) :=
  match s.takeWhile Char.isDigit with
  | [] => .error (noDigit atEnd s)
  | ds => .ok (ds, s.dropWhile Char.isDigit)

/-- The digits before the point; a zero stands alone. -/
def wholeDigits (atEnd : Cause) (s : List Char) : Except Stop (List Char × List Char) :=
  match s with
  | '0' :: r => if r.head?.any Char.isDigit then .error ⟨.badNumber, r, 1⟩ else .ok (['0'], r)
  | _ => digits atEnd s

/-- The digits behind a point, if there is one. -/
def fraction (atEnd : Cause) (s : List Char) : Except Stop (Option (List Char) × List Char) :=
  match s with
  | '.' :: r => (digits atEnd r).map fun (ds, r) => (some ds, r)
  | _ => .ok (none, s)

/-- The sign and the digits of an exponent, if there is one. -/
def exponent (atEnd : Cause) (s : List Char) :
    Except Stop (Option (Bool × List Char) × List Char) :=
  let signed (isNegative : Bool) (r : List Char) :
      Except Stop (Option (Bool × List Char) × List Char) :=
    (digits atEnd r).map fun (ds, r) => (some (isNegative, ds), r)
  match s with
  | 'e' :: r | 'E' :: r =>
      match r with
      | '+' :: r => signed false r
      | '-' :: r => signed true r
      | _ => signed false r
  | _ => .ok (none, s)

/-- A number. -/
def numeral (atEnd : Cause) (s : List Char) : Except Stop (Numeral × List Char) := do
  let (isNegative, s) := match s with
    | '-' :: r => (true, r)
    | _ => (false, s)
  let (whole, s) ← wholeDigits atEnd s
  let (fraction, s) ← fraction atEnd s
  let (exponent, s) ← exponent atEnd s
  return (⟨isNegative, whole, fraction, exponent⟩, s)

/-- The number of as many leading digits as fit into a word, and the digits left. -/
def wordDigits (n : Nat) : List Char → Nat × List Char
  | [] => (n, [])
  | c :: ds =>
      let next := n * 10 + (c.toNat - '0'.toNat)
      if next < wordBound then wordDigits next ds else (n, c :: ds)

/-- The floating-point number `significand * 10 ^ exponent`, in at most `steps` divisions, or
`none` where it is too large. -/
def scaled? (steps : Nat) (significand : Float) (exponent : Int) : Option Float :=
  if exponent.natAbs ≤ 308 then
    let power := Float.ofScientific 1 false exponent.natAbs
    let x := if 0 ≤ exponent then significand * power else significand / power
    if x.isInf then none else some x
  else if significand == 0.0 then some significand
  else if 0 ≤ exponent then none
  else match steps with
    | 0 => some 0.0
    | steps + 1 => scaled? steps (significand / Float.ofScientific 1 false 308) (exponent + 308)

/-- Exponents are less than this. -/
def exponentBound : Nat := 0x80000000

/-- The number that digits write behind those of `n`, or the digits left behind the first one with
which it is no exponent any more. -/
def exponentDigits (n : Nat) : List Char → Except (List Char) Nat
  | [] => .ok n
  | c :: ds =>
      let next := n * 10 + (c.toNat - '0'.toNat)
      if next < exponentBound then exponentDigits next ds else .error ds

namespace Numeral

/-- The exponent, or the digits that are left behind its bound. -/
def power (n : Numeral) : Except (List Char) Int :=
  match n.exponent with
  | none => .ok 0
  | some (isNegative, ds) =>
      (exponentDigits 0 ds).map fun value => if isNegative then -(value : Int) else value

/-- Whether the exponent has a minus sign. -/
def hasNegativePower (n : Numeral) : Bool :=
  match n.exponent with
  | some (isNegative, _) => isNegative
  | none => false

/-- The floating-point number that is written, or the digits that are left where it is seen to be
too large. As many digits count as fit into a word. -/
def float (n : Numeral) : Except (List Char) Float :=
  let (whole, wholeLeft) := wordDigits 0 n.whole
  let fraction := n.fraction.getD []
  let (significand, fractionLeft) := wordDigits whole fraction
  let counted : Int := wholeLeft.length - (fraction.length - fractionLeft.length : Nat)
  let magnitude : Except (List Char) Float := match n.power with
    | .ok power =>
        match scaled? 4 significand.toUInt64.toFloat (counted + power) with
        | some x => .ok x
        | none => .error []
    | .error unread => if significand = 0 || n.hasNegativePower then .ok 0.0 else .error unread
  magnitude.map fun x => if n.isNegative then -x else x

/-- The value of a number without fraction and exponent in 64 bits, if it has one there. -/
def integer? (n : Numeral) : Option Int :=
  match n.fraction, n.exponent with
  | none, none =>
      match wordDigits 0 n.whole with
      | (value, []) =>
          if !n.isNegative then some value
          else if value = 0 ∨ wordBound < 2 * value then none
          else some (-(value : Int))
      | _ => none
  | _, _ => none

end Numeral

/-- How floating-point numbers are shown: without a power of ten up to sixteen digits before the
point, and down to four zeros behind it. -/
def decimalStyle : DecimalStyle := ⟨false, fun point => -5 < point && point ≤ 16⟩

/-- The number at the start of the text, as it is shown. -/
def foundNumber (s : List Char) : Except Stop (Found × List Char) := do
  let (n, s) ← numeral .endInValue s
  match n.integer?, n.float with
  | some value, _ => return (.integer value, s)
  | none, .ok x => return (.decimal (decimalStyle.text x), s)
  | none, .error unread => throw ⟨.numberTooLarge, unread ++ s, 0⟩

/-! ### Values that are not wanted -/

/-- What stands at the start of the text, read up to its end unless it is a list or a record. -/
def found (s : List Char) : Except Stop (Found × List Char) :=
  match s with
  | 'n' :: r => (dropWord ['u', 'l', 'l'] r).map (.nothing, ·)
  | 't' :: r => (dropWord ['r', 'u', 'e'] r).map (.flag true, ·)
  | 'f' :: r => (dropWord ['a', 'l', 's', 'e'] r).map (.flag false, ·)
  | '"' :: r => (quotedText r).map fun (t, r) => (.text t, r)
  | '[' :: _ => .ok (.list, s)
  | '{' :: _ => .ok (.record, s)
  | '-' :: _ => foundNumber s
  | c :: _ => if c.isDigit then foundNumber s else .error ⟨.noValue, s, 1⟩
  | [] => .error ⟨.noValue, [], 0⟩

/-- The text after a scalar, or after the opening bracket of a list or a record, which is given. -/
def dropScalar (s : List Char) : Except Stop (Option Char × List Char) :=
  match s with
  | [] => .error ⟨.endInValue, [], 0⟩
  | 'n' :: r => (dropWord ['u', 'l', 'l'] r).map (none, ·)
  | 't' :: r => (dropWord ['r', 'u', 'e'] r).map (none, ·)
  | 'f' :: r => (dropWord ['a', 'l', 's', 'e'] r).map (none, ·)
  | '"' :: r => (dropString r).map (none, ·)
  | c :: r =>
      if c == '[' || c == '{' then .ok (some c, r)
      else if c == '-' || c.isDigit then (numeral .badNumber s).map fun (_, r) => (none, r)
      else .error ⟨.noValue, s, 1⟩

/-- The text after the colon between a name and its value. -/
def dropColon (s : List Char) : Except Stop (List Char) :=
  match dropGap s with
  | ':' :: r => .ok r
  | [] => .error ⟨.endInRecord, [], 0⟩
  | r => .error ⟨.noColon, r, 1⟩

/-- The text after a name and the colon behind it. -/
def dropName (s : List Char) : Except Stop (List Char) :=
  match dropGap s with
  | '"' :: r => (dropString r).bind dropColon
  | [] => .error ⟨.endInRecord, [], 0⟩
  | r => .error ⟨.nameNotText, r, 1⟩

mutual

/-- The text after a value inside the brackets of the open lists and records, innermost first, and
after all that they hold. The bound is twice the number of characters left. -/
def dropValue (opened : List Char) : (bound : Nat) → List Char → Except Stop (List Char)
  | 0, s => .error ⟨.endInValue, s, 0⟩
  | bound + 1, s => do
      match ← dropScalar (dropGap s) with
      | (some bracket, s) => dropRest (bracket :: opened) true bound s
      | (none, s) => dropRest opened false bound s

/-- The text after the rest of the open lists and records, of which the innermost has just been
opened or holds a value already. -/
def dropRest (opened : List Char) (isFresh : Bool) :
    (bound : Nat) → List Char → Except Stop (List Char)
  | 0, s => .error ⟨.endInValue, s, 0⟩
  | bound + 1, s =>
      match opened with
      | [] => .ok s
      | bracket :: outer =>
          let isList := bracket == '['
          let next (s : List Char) : Except Stop (List Char) := do
            let s ← if isList then .ok s else dropName s
            dropValue opened bound s
          match dropGap s with
          | [] => .error ⟨if isList then .endInList else .endInRecord, [], 0⟩
          | c :: r =>
              if c == (if isList then ']' else '}') then dropRest outer false bound r
              else if isFresh then next (c :: r)
              else if c == ',' then next r
              else .error ⟨if isList then .noListEnd else .noRecordEnd, c :: r, 1⟩

end

/-- The text after a value. -/
def skip (s : List Char) : Except Stop (List Char) := dropValue [] (2 * s.length + 2) s

end QueryPath.Document.Json
