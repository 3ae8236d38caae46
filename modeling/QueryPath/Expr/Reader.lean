import QueryPath.Expr.Error
import QueryPath.Text.Blank
import QueryPath.Text.Offset

/-!
# Reading path expressions

```text
path     := primary ( '.' identifier )*
primary  := treat | part | identifier
treat    := 'treat' '(' path 'as' identifier ')'
part     := ( 'element' | 'value' | 'index' | 'key' ) '(' path ')'
```

The words are read in any case of letters. A word that no parenthesis follows is an ordinary
identifier, so `key.value` is the attribute `value` of the variable `key`. Once a word and its
parenthesis have been read there is no way back, and a failure is reported where it occurred.
-/

namespace QueryPath.Expr

open Text

namespace Reader

/-- Reading stopped before `rest`, in the outermost construct that had begun. -/
structure Failure where
  rest : List Char
  construct : Construct
deriving DecidableEq, Repr

/-- What was read, and the text after it. -/
abbrev Result (α : Type) := Except Failure (α × List Char)

/-- A failure inside a construct is reported for that construct. -/
def within {α : Type} (construct : Construct) : Result α → Result α
  | .ok r => .ok r
  | .error f => .error { f with construct }

def isIdentifierStart (c : Char) : Bool := c.isAlpha || c == '_'

def isIdentifierRest (c : Char) : Bool := c.isAlphanum || c == '_'

/-- The longest identifier at the start of the text. -/
def identifier? : List Char → Option (String × List Char)
  | c :: s =>
      if isIdentifierStart c then
        some (String.ofList (c :: s.takeWhile isIdentifierRest), s.dropWhile isIdentifierRest)
      else none
  | [] => none

theorem identifier?_length {s r : List Char} {n : String} (h : identifier? s = some (n, r)) :
    r.length < s.length := by
  cases s with
  | nil => simp [identifier?] at h
  | cons c s =>
    simp only [identifier?] at h
    split at h
    · simp only [Option.some.injEq, Prod.mk.injEq] at h
      rw [← h.2]
      exact Nat.lt_succ_of_le (List.dropWhile_sublist _).length_le
    · simp at h

/-- The text after the word, which may be written in any case of letters. -/
def dropWord? : (word s : List Char) → Option (List Char)
  | [], s => some s
  | w :: word, c :: s => if c.toLower = w then dropWord? word s else none
  | _ :: _, [] => none

theorem dropWord?_length : {word s r : List Char} → dropWord? word s = some r →
    r.length ≤ s.length
  | [], _, _, h => by simp only [dropWord?, Option.some.injEq] at h; simp [h]
  | _ :: _, [], _, h => by simp [dropWord?] at h
  | _ :: word, c :: s, r, h => by
      simp only [dropWord?] at h
      split at h
      · exact Nat.le_succ_of_le (dropWord?_length h)
      · simp at h

/-- The text after an opening parenthesis. -/
def dropOpen? (s : List Char) : Option (List Char) :=
  match dropGap s with
  | '(' :: r => some r
  | _ => none

theorem dropOpen?_length {s r : List Char} (h : dropOpen? s = some r) :
    r.length < s.length := by
  simp only [dropOpen?] at h
  split at h
  · rename_i t ht
    simp only [Option.some.injEq] at h
    have := length_dropGap_le s
    rw [ht] at this
    subst h
    exact this
  · simp at h

/-- A function of the grammar. -/
inductive Head where
  | treat
  | part (function : PartFunction)
deriving DecidableEq, Repr

def Head.all : List Head := .treat :: PartFunction.all.map .part

def Head.name : Head → String
  | treat => "treat"
  | part f => f.name

def Head.construct : Head → Construct
  | treat => .treat
  | part f => .function f

/-- The function with which the text begins, and the text after its parenthesis. -/
def head? (s : List Char) : Option (Head × List Char) :=
  Head.all.findSome? fun h =>
    ((dropWord? h.name.toList s).bind dropOpen?).map (h, ·)

theorem head?_length {s r : List Char} {h : Head} (e : head? s = some (h, r)) :
    r.length < s.length := by
  obtain ⟨f, -, hf⟩ := List.exists_of_findSome?_eq_some e
  simp only [Option.map_eq_some_iff, Option.bind_eq_some_iff, Prod.mk.injEq] at hf
  obtain ⟨t, ⟨u, hu, ht⟩, -, rfl⟩ := hf
  exact Nat.lt_of_lt_of_le (dropOpen?_length ht) (dropWord?_length hu)

/-- The attribute names that follow `base`. -/
def members (base : Expr) (s : List Char) : Result Expr :=
  match _hs : dropGap s with
  | '.' :: r =>
      match _hn : identifier? (dropGap r) with
      | some (n, rest) => members (base.member n) rest
      | none => .error ⟨dropGap r, .memberName⟩
  | _ => .ok (base, s)
termination_by s.length
decreasing_by
  have h₁ := identifier?_length _hn
  have h₂ := length_dropGap_le r
  have h₃ := length_dropGap_le s
  rw [_hs] at h₃
  simp only [List.length_cons] at h₃
  omega

/-- A closing parenthesis. -/
def close (e : Expr) (s : List Char) : Result Expr :=
  match dropGap s with
  | ')' :: r => .ok (e, r)
  | r => .error ⟨r, .closing⟩

/-- What follows the path in `treat(path as Target)`. -/
def treatTarget (base : Expr) (s : List Char) : Result Expr :=
  match dropWord? ['a', 's'] (dropGap s) with
  | none => .error ⟨dropGap s, .treat⟩
  | some r =>
      if (r.head?.map isGap).getD false then
        match identifier? (dropGap r) with
        | none => .error ⟨dropGap r, .treatTarget⟩
        | some (target, rest) => close (base.treat target) rest
      else .error ⟨r, .treat⟩

/-- What follows the path inside the parentheses of a function. -/
def tail : Head → Expr → List Char → Result Expr
  | .treat, base, s => treatTarget base s
  | .part f, base, s => close (.part f base) s

/-- A path at the start of the text. -/
def path (s : List Char) : Result Expr :=
  match _hs : head? (dropGap s) with
  | some (head, inner) =>
      match within head.construct (path inner) with
      | .error f => .error f
      | .ok (base, rest) =>
          match tail head base rest with
          | .error f => .error f
          | .ok (e, rest) => members e rest
  | none =>
      match identifier? (dropGap s) with
      | some (n, rest) => members (.root n) rest
      | none => .error ⟨dropGap s, .start⟩
termination_by s.length
decreasing_by exact Nat.lt_of_lt_of_le (head?_length _hs) (length_dropGap_le s)

end Reader

/-- Whether the character begins a step wherever it stands in an expression. -/
def isStep (c : Char) : Bool := c == '.' || c == '('

/-- Longest excerpt of the text in an error, in characters. -/
def nearLength : Nat := 24

/-- The path expression that the whole text is, but for white space around it. -/
def read (text : String) : Except Error Expr :=
  let s := text.toList
  if s.all isBlank then .error .empty
  else if maxSteps < s.countP isStep then .error .tooManySteps
  else
    match Reader.path s with
    | .error f =>
        .error (.invalid (offsetOf s f.rest) f.construct
          (String.ofList (f.rest.take nearLength)))
    | .ok (e, rest) =>
        match dropBlank rest with
        | [] => .ok e
        | r => .error (.trailing (offsetOf s r) (String.ofList r))

end QueryPath.Expr
