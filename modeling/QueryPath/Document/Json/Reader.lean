import QueryPath.Document.Form
import QueryPath.Document.Json.Lexeme

/-!
# Reading JSON

Values of a form at the start of a text. A record may also stand as a list of the values of its
fields, of which the last ones may be missing. Fields that the form does not name are skipped.
-/

namespace QueryPath.Document.Json

open Text

/-- The document is not of the form that is wanted; `rest` follows what was read of it. -/
def refuse {α : Type} (m : Mismatch) (rest : List Char) : Except Stop α :=
  .error ⟨.mismatch m, rest, 0⟩

/-- What stands at the start of the text is not what is expected. -/
def unexpected {α : Type} (expected : String) (s : List Char) : Except Stop α := do
  let (found, rest) ← found s
  refuse (.kind found expected) rest

/-! ### Scalars -/

def text (s : List Char) : Except Stop (String × List Char) :=
  match dropGap s with
  | [] => .error ⟨.endInValue, [], 0⟩
  | '"' :: r => quotedText r
  | r => unexpected "a string" r

def flag (s : List Char) : Except Stop (Bool × List Char) :=
  match dropGap s with
  | [] => .error ⟨.endInValue, [], 0⟩
  | 't' :: r => (dropWord ['r', 'u', 'e'] r).map (true, ·)
  | 'f' :: r => (dropWord ['a', 'l', 's', 'e'] r).map (false, ·)
  | r => unexpected "a boolean" r

def natural (s : List Char) : Except Stop (Nat × List Char) :=
  match dropGap s with
  | [] => .error ⟨.endInValue, [], 0⟩
  | r => do
      let (found, rest) ← found r
      match found with
      | .integer (.ofNat n) => return (n, rest)
      | _ => refuse (.kind found "a number") rest

/-- The value of one of several words. -/
def wordValue {α : Type} (words : List (String × α)) (word : String) (rest : List Char) :
    Except Stop α :=
  match words.lookup word with
  | some v => .ok v
  | none => refuse (.unknownWord word (words.map (·.1))) rest

/-- The text after a null and the closing brace behind it. -/
def dropNull (s : List Char) : Except Stop (List Char) := do
  let s ← match dropGap s with
    | [] => throw ⟨.endInValue, [], 0⟩
    | 'n' :: r => dropWord ['u', 'l', 'l'] r
    | r => unexpected "unit" r
  match dropGap s with
  | '}' :: r => return r
  | [] => throw ⟨.endInRecord, [], 0⟩
  | r => throw ⟨.noValue, r, 0⟩

/-- A word, or a record whose only field it names, with the value null. -/
def choice {α : Type} (words : List (String × α)) (s : List Char) : Except Stop (α × List Char) :=
  match dropGap s with
  | [] => .error ⟨.endInValue, [], 0⟩
  | '"' :: r => do
      let (word, r) ← quotedText r
      return (← wordValue words word r, r)
  | '{' :: r => do
      let (word, r) ← match dropGap r with
        | [] => throw ⟨.endInRecord, [], 0⟩
        | '"' :: r => quotedText r
        | '}' :: r => throw ⟨.noValue, '}' :: r, 1⟩
        | r => throw ⟨.nameNotText, r, 1⟩
      let v ← wordValue words word r
      return (v, ← dropNull (← dropColon r))
  | r => .error ⟨.noValue, r, 1⟩

/-! ### Lists and records -/

/-- The text at the next element of a list, if there is one. -/
def nextItem (isFirst : Bool) (s : List Char) : Except Stop (Option (List Char)) :=
  match dropGap s with
  | [] => .error ⟨.endInList, [], 0⟩
  | ']' :: _ => .ok none
  | c :: r =>
      if isFirst then .ok (some (c :: r))
      else if c == ',' then
        match dropGap r with
        | [] => .error ⟨.endInValue, [], 0⟩
        | ']' :: r => .error ⟨.trailingComma, ']' :: r, 1⟩
        | r => .ok (some r)
      else .error ⟨.noListEnd, c :: r, 1⟩

/-- The elements of a list and the text at its closing bracket. The bound is the number of
characters left. -/
def items {α : Type} (item : List Char → Except Stop (α × List Char)) (isFirst : Bool) :
    (bound : Nat) → List Char → Except Stop (List α × List Char)
  | 0, s => .error ⟨.endInList, s, 0⟩
  | bound + 1, s => do
      match ← nextItem isFirst s with
      | none => return ([], s)
      | some s =>
          let (v, s) ← item s
          let (vs, s) ← items item false bound s
          return (v :: vs, s)

/-- The text after the closing bracket of a list of which no more is wanted. -/
def dropListEnd (s : List Char) : Except Stop (List Char) :=
  match dropGap s with
  | ']' :: r => .ok r
  | [] => .error ⟨.endInList, [], 0⟩
  | ',' :: r =>
      match dropGap r with
      | ']' :: r => .error ⟨.trailingComma, ']' :: r, 1⟩
      | r => .error ⟨.trailingText, r, 1⟩
  | r => .error ⟨.trailingText, r, 1⟩

/-- The text after a closing bracket, if it stands here. -/
def behind (bracket : Char) (s : List Char) : List Char :=
  match dropGap s with
  | c :: r => if c == bracket then r else c :: r
  | [] => []

/-- The name of the next member of a record and the text after it, if there is one. -/
def nextName (isFirst : Bool) (s : List Char) : Except Stop (Option (String × List Char)) :=
  let name (s : List Char) : Except Stop (Option (String × List Char)) :=
    match s with
    | [] => .error ⟨.endInValue, [], 0⟩
    | '"' :: r => (quotedText r).map some
    | '}' :: r => .error ⟨.trailingComma, '}' :: r, 1⟩
    | r => .error ⟨.nameNotText, r, 1⟩
  match dropGap s with
  | [] => .error ⟨.endInRecord, [], 0⟩
  | '}' :: _ => .ok none
  | c :: r =>
      if isFirst then name (c :: r)
      else if c == ',' then name (dropGap r)
      else .error ⟨.noRecordEnd, c :: r, 1⟩

/-- What the members of a record make of a state, and the text after its closing brace. The bound
is the number of characters left. -/
def members {σ : Type} (member : String → σ → List Char → Except Stop (σ × List Char))
    (isFirst : Bool) : (bound : Nat) → σ → List Char → Except Stop (σ × List Char)
  | 0, _, s => .error ⟨.endInRecord, s, 0⟩
  | bound + 1, state, s => do
      match ← nextName isFirst s with
      | none => return (state, behind '}' s)
      | some (name, s) =>
          let (state, s) ← member name state s
          members member false bound state s

/-- The title of a record with the number of its fields. -/
def sizedTitle (title : String) (count : Nat) : String :=
  if count = 1 then s!"{title} with 1 element" else s!"{title} with {count} elements"

/-! ### Forms -/

/-- The value of a field, whose name has been read. -/
def fieldValue {α : Type} (name : String) (slot : Option α)
    (value : List Char → Except Stop (α × List Char)) (s : List Char) :
    Except Stop (Option α × List Char) :=
  match slot with
  | some _ => refuse (.repeated name) (behind '}' s)
  | none => do
      let (v, s) ← value (← dropColon s)
      return (some v, s)

mutual

/-- The value of a form at the start of a text. -/
def value : {α : Type} → Form α → List Char → Except Stop (α × List Char)
  | _, .text => text
  | _, .flag => flag
  | _, .number => natural
  | _, .choice words => choice words
  | _, .optional form => fun s =>
      match dropGap s with
      | 'n' :: r => (dropWord ['u', 'l', 'l'] r).map (none, ·)
      | r => (value form r).map fun (v, r) => (some v, r)
  | _, .list item => fun s =>
      match dropGap s with
      | [] => .error ⟨.endInValue, [], 0⟩
      | '[' :: r => do
          let (vs, r) ← items (value item) true r.length r
          return (vs, ← dropListEnd r)
      | r => unexpected "a sequence" r
  | _, .record title fields make => fun s =>
      match dropGap s with
      | [] => .error ⟨.endInValue, [], 0⟩
      | '[' :: r => do
          let (v, r) ← fieldsInOrder fields (sizedTitle title fields.count) 0 r
          return (make v, ← dropListEnd r)
      | '{' :: r => do
          let (slots, r) ← members (fieldNamed fields) true r.length fields.blank r
          match fields.finish slots with
          | .ok v => return (make v, r)
          | .error name => refuse (.missing name) r
      | r => unexpected title r

/-- What is known of the fields after the member of that name. -/
def fieldNamed : {β : Type} → (fields : Fields β) → String → fields.Slots → List Char →
    Except Stop (fields.Slots × List Char)
  | _, .none => fun _ _ s => do return ((), ← skip (← dropColon s))
  | _, .required name form rest => fun member (slot, slots) s => do
      if member = name then
        let (slot, s) ← fieldValue name slot (value form) s
        return ((slot, slots), s)
      else
        let (slots, s) ← fieldNamed rest member slots s
        return ((slot, slots), s)
  | _, .defaulting name _ form rest => fun member (slot, slots) s => do
      if member = name then
        let (slot, s) ← fieldValue name slot (value form) s
        return ((slot, slots), s)
      else
        let (slots, s) ← fieldNamed rest member slots s
        return ((slot, slots), s)

/-- The values of the fields in a list, from the one at a position. -/
def fieldsInOrder : {β : Type} → (fields : Fields β) → (expected : String) → (position : Nat) →
    List Char → Except Stop (β × List Char)
  | _, .none => fun _ _ s => .ok ((), s)
  | _, .required _ form rest => fun expected position s => do
      match ← nextItem (position = 0) s with
      | none => refuse (.tooShort position expected) (behind ']' s)
      | some s =>
          let (v, s) ← value form s
          let (vs, s) ← fieldsInOrder rest expected (position + 1) s
          return ((v, vs), s)
  | _, .defaulting _ default form rest => fun expected position s => do
      match ← nextItem (position = 0) s with
      | none =>
          let (vs, s) ← fieldsInOrder rest expected (position + 1) s
          return ((default, vs), s)
      | some s =>
          let (v, s) ← value form s
          let (vs, s) ← fieldsInOrder rest expected (position + 1) s
          return ((v, vs), s)

end

/-- The value of a form that the whole text is. -/
def read {α : Type} (form : Form α) (text : String) : Except Error α :=
  let s := text.toList
  let whole : Except Stop α := do
    let (v, rest) ← value form s
    match dropGap rest with
    | [] => return v
    | rest => throw ⟨.trailingText, rest, 1⟩
  whole.mapError (·.error s)

end QueryPath.Document.Json
