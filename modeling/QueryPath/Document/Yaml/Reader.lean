import QueryPath.Document.Form
import QueryPath.Document.Yaml.Event
import QueryPath.Text.Decimal
import QueryPath.Text.Natural

/-!
# Reading YAML

Values of a form from the events of a document. Every scalar is a text, however it is written; a
plain one may also be nothing, a truth value or a number. Nothing at all is an empty list and a
record without fields too. Fields that the form does not name are skipped.
-/

namespace QueryPath.Document.Yaml

open Text (wordBound)

/-! ### Plain scalars -/

/-- The natural number that digits of a base write, of which there is at least one. -/
def digits? (base : Nat) (s : List Char) : Option Nat :=
  if s.isEmpty then none
  else s.foldlM (fun n c => (Text.hexValue? c).bind fun d =>
    if d < base then some (n * base + d) else none) 0

/-- The digits behind the mark of a base, and the base; all others are decimal. -/
def base (s : List Char) : Nat × List Char :=
  match s with
  | '0' :: 'x' :: r => (16, r)
  | '0' :: 'o' :: r => (8, r)
  | '0' :: 'b' :: r => (2, r)
  | _ => (10, s)

/-- Whether decimal digits begin with a zero that is not the whole number. -/
def hasLeadingZero (s : List Char) : Bool :=
  match s with
  | '0' :: c :: r => (c :: r).all Char.isDigit
  | _ => false

/-- The text behind a sign, and whether the sign is a minus. -/
def dropSign (s : List Char) : Bool × List Char :=
  match s with
  | '-' :: r => (true, r)
  | '+' :: r => (false, r)
  | _ => (false, s)

/-- The integer that a plain scalar writes: decimal without a leading zero, or with a base. -/
def integer? (s : List Char) : Option Int :=
  let (isNegative, unsigned) := dropSign s
  if hasLeadingZero unsigned then none
  else
    let (base, ds) := base unsigned
    (digits? base ds).map fun n => if isNegative then -(n : Int) else n

/-- The number below the word bound that a plain scalar writes. -/
def word? (s : List Char) : Option Nat :=
  if s.head? == some '-' then none
  else ((integer? s).map Int.toNat).filter (· < wordBound)

/-- The floating-point number `digits * 10 ^ exponent`. Exponents far out of range are not
computed. -/
def scaled (digits : Nat) (exponent : Int) : Float :=
  let size := digits.repr.length + exponent
  if digits = 0 ∨ size < -400 then 0.0
  else if 400 < size then 1.0 / 0.0
  else Float.ofScientific digits (exponent < 0) exponent.natAbs

/-- The power of ten behind the letter of an exponent; without a letter it is zero. -/
def power? (s : List Char) : Option Int :=
  match s with
  | [] => some 0
  | c :: r =>
      if c == 'e' || c == 'E' then
        let (isNegative, ds) := dropSign r
        (digits? 10 ds).map fun n => if isNegative then -(n : Int) else n
      else none

/-- The finite floating-point number that a text writes, with a point or an exponent or neither. -/
def finite? (s : List Char) : Option Float := do
  let (isNegative, unsigned) := dropSign s
  let whole := unsigned.takeWhile Char.isDigit
  let (fraction, rest) := match unsigned.dropWhile Char.isDigit with
    | '.' :: r => (r.takeWhile Char.isDigit, r.dropWhile Char.isDigit)
    | r => ([], r)
  let digits ← digits? 10 (whole ++ fraction)
  let x := scaled digits ((← power? rest) - fraction.length)
  if x.isFinite then some (if isNegative then -x else x) else none

/-- The floating-point number that a plain scalar writes. -/
def float? (text : String) : Option Float :=
  let s := text.toList
  if [".inf", ".Inf", ".INF", "+.inf", "+.Inf", "+.INF"].contains text then some (1.0 / 0.0)
  else if ["-.inf", "-.Inf", "-.INF"].contains text then some (-(1.0 / 0.0))
  else if [".nan", ".NaN", ".NAN"].contains text then some (0.0 / 0.0)
  else if hasLeadingZero (dropSign s).2 then none
  else finite? s

/-- Whether a plain scalar stands for nothing where a value is optional. -/
def isNothing (text : String) : Bool := ["", "~", "null", "Null", "NULL"].contains text

/-- The truth value that a plain scalar writes. -/
def flag? (text : String) : Option Bool :=
  if ["true", "True", "TRUE"].contains text then some true
  else if ["false", "False", "FALSE"].contains text then some false
  else none

/-- How floating-point numbers are shown: with all digits before and behind the point. -/
def decimalStyle : Text.DecimalStyle := ⟨true, fun _ => true⟩

/-- The integer that a plain scalar writes, if at most 128 bits hold it. -/
def foundInteger? (s : List Char) : Option Found :=
  (integer? s).bind fun n =>
    let half : Int := wordBound / 2
    if s.head? == some '-' then
      if -half ≤ n then some (.integer n)
      else if -(half * wordBound) ≤ n then some (.largeInteger n "i128")
      else none
    else if n < wordBound then some (.integer n)
    else if n < wordBound * wordBound then some (.largeInteger n "u128")
    else none

/-- What a scalar is where its text is not wanted. -/
def foundScalar (text : String) (isPlain : Bool) : Found :=
  if !isPlain then .text text
  else if isNothing text then .nothing
  else match flag? text, foundInteger? text.toList with
    | some b, _ => .flag b
    | none, some found => found
    | none, none =>
        match float? text with
        | some x => .decimal (decimalStyle.text x)
        | none => .text text

/-! ### Events -/

/-- The next event and what follows. -/
def Events.next (es : Events) : Except Error (Event × Events) :=
  match es.list with
  | e :: list => .ok (e, { es with list })
  | [] => .error (es.error.getD .noDocument)

/-- The events behind a node. `depth` lists and records are open. -/
def skipNode (error : Option Error) (depth : Nat) : List Event → Except Error Events
  | [] => .error (error.getD .noDocument)
  | e :: es =>
      match e.happening with
      | .listStart | .recordStart => skipNode error (depth + 1) es
      | .listEnd | .recordEnd =>
          if depth ≤ 1 then .ok ⟨es, error⟩ else skipNode error (depth - 1) es
      | .scalar _ _ | .nothing => if depth = 0 then .ok ⟨es, error⟩ else skipNode error depth es

/-- Whether nothing is written at all. -/
def Event.isBlank (e : Event) : Bool :=
  e.happening == .scalar "" true || e.happening == .nothing

/-- Something else was expected than an event. -/
def unexpected {α : Type} (e : Event) (trail : Trail) (expected : String) : Except Error α :=
  let found : Found → Except Error α := fun found =>
    .error (.mismatch (.kind found expected) e.place trail)
  match e.happening with
  | .scalar text isPlain => found (foundScalar text isPlain)
  | .listStart => found .list
  | .recordStart => found .record
  | .listEnd | .recordEnd | .nothing => .error .noDocument

/-! ### Scalars -/

def text (trail : Trail) (es : Events) : Except Error (String × Events) := do
  let (e, es) ← es.next
  match e.happening with
  | .scalar text _ => return (text, es)
  | _ => unexpected e trail "a string"

def flag (trail : Trail) (es : Events) : Except Error (Bool × Events) := do
  let (e, es) ← es.next
  match e.happening with
  | .scalar text true =>
      match flag? text with
      | some b => return (b, es)
      | none => unexpected e trail "a boolean"
  | _ => unexpected e trail "a boolean"

def natural (trail : Trail) (es : Events) : Except Error (Nat × Events) := do
  let (e, es) ← es.next
  match e.happening with
  | .scalar text true =>
      match word? text.toList with
      | some n => return (n, es)
      | none => unexpected e trail "a number"
  | _ => unexpected e trail "a number"

/-- The value of one of several words. -/
def choice {α : Type} (words : List (String × α)) (trail : Trail) (es : Events) :
    Except Error (α × Events) := do
  let (e, es) ← es.next
  match e.happening with
  | .scalar word _ =>
      match words.lookup word with
      | some v => return (v, es)
      | none => throw (.mismatch (.unknownWord word (words.map (·.1))) e.place trail)
  | _ => unexpected e trail "a YAML tag starting with '!'"

/-! ### Lists and records -/

/-- The elements of a list from a position on, and the events behind it. The bound is the number
of events left. -/
def items {α : Type} (item : Nat → Events → Except Error (α × Events)) :
    (bound position : Nat) → Events → Except Error (List α × Events)
  | 0, _, es => .error (es.error.getD .noDocument)
  | bound + 1, position, es => do
      let (e, rest) ← es.next
      if e.happening == .listEnd then return ([], rest)
      else
        let (v, es) ← item position es
        let (vs, es) ← items item bound (position + 1) es
        return (v :: vs, es)

/-- What the members of a record make of a state, and the events behind it. The bound is the
number of events left. -/
def members {σ : Type} (trail : Trail)
    (member : String → σ → Events → Except Error (σ × Events)) :
    (bound : Nat) → σ → Events → Except Error (σ × Events)
  | 0, _, es => .error (es.error.getD .noDocument)
  | bound + 1, state, es => do
      let (e, es) ← es.next
      match e.happening with
      | .recordEnd => return (state, es)
      | .scalar name _ =>
          let (state, es) ← member name state es
          members trail member bound state es
      | _ => unexpected e trail "field identifier"

/-! ### Forms -/

/-- Where a record begins, with the names that lead to it. -/
structure Site where
  place : Place
  trail : Trail

/-- The record at a site does not have its form. -/
def Site.refuse {α : Type} (site : Site) (m : Mismatch) : Except Error α :=
  .error (.mismatch m site.place site.trail)

/-- The value of a field, whose name has been read. -/
def fieldValue {α : Type} (site : Site) (name : String) (slot : Option α)
    (value : Trail → Events → Except Error (α × Events)) (es : Events) :
    Except Error (Option α × Events) :=
  match slot with
  | some _ => site.refuse (.repeated name)
  | none => do
      let (v, es) ← value (.member site.trail name) es
      return (some v, es)

mutual

/-- The value of a form, to which the trail leads. -/
def value : {α : Type} → Form α → Trail → Events → Except Error (α × Events)
  | _, .text => text
  | _, .flag => flag
  | _, .number => natural
  | _, .choice words => choice words
  | _, .optional form => fun trail es => do
      let (e, rest) ← es.next
      let isAbsent := match e.happening with
        | .scalar text true => isNothing text
        | .nothing => true
        | _ => false
      if isAbsent then return (none, rest)
      else
        let (v, es) ← value form trail es
        return (some v, es)
  | _, .list item => fun trail es => do
      let (e, es) ← es.next
      if e.happening == .listStart then
        items (fun position => value item (.item trail position)) es.list.length 0 es
      else if e.isBlank then return ([], es)
      else unexpected e trail "a sequence"
  | _, .record title fields make => fun trail es => do
      let (e, es) ← es.next
      let site : Site := ⟨e.place, trail⟩
      let (slots, es) ←
        if e.happening == .recordStart then
          members trail (fieldNamed fields site) es.list.length fields.blank es
        else if e.isBlank then .ok (fields.blank, es)
        else unexpected e trail title
      match fields.finish slots with
      | .ok v => return (make v, es)
      | .error name => site.refuse (.missing name)

/-- What is known of the fields after the member of that name. -/
def fieldNamed : {β : Type} → (fields : Fields β) → Site → String → fields.Slots → Events →
    Except Error (fields.Slots × Events)
  | _, .none => fun _ _ _ es => do return ((), ← skipNode es.error 0 es.list)
  | _, .required name form rest => fun site member (slot, slots) es => do
      if member = name then
        let (slot, es) ← fieldValue site name slot (value form) es
        return ((slot, slots), es)
      else
        let (slots, es) ← fieldNamed rest site member slots es
        return ((slot, slots), es)
  | _, .defaulting name _ form rest => fun site member (slot, slots) es => do
      if member = name then
        let (slot, es) ← fieldValue site name slot (value form) es
        return ((slot, slots), es)
      else
        let (slots, es) ← fieldNamed rest site member slots es
        return ((slot, slots), es)

end

/-- The value of a form in the one document that a text holds. -/
def read {α : Type} (form : Form α) (text : String) : Except Error α := do
  let (v, es) ← value form .root (.ofTokens (.ofText text))
  match es.error with
  | some e => throw e
  | none => return v

end QueryPath.Document.Yaml
