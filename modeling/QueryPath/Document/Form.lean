/-!
# Forms of documents

How values are written in a document, whatever its format: as text, as a truth value, as a list,
or as a record with named fields. A form is read in the order of the document, so that the first
fault there is the one that is reported; each format has its own reader of forms.
-/

namespace QueryPath.Document

mutual

/-- How a value of the type is written. -/
inductive Form : Type → Type 1 where
  | text : Form String
  | flag : Form Bool
  /-- A natural number below the word bound. -/
  | number : Form Nat
  /-- One of several words, each for a value of its own. -/
  | choice {α : Type} (words : List (String × α)) : Form α
  /-- The value, or nothing. -/
  | optional {α : Type} (form : Form α) : Form (Option α)
  | list {α : Type} (item : Form α) : Form (List α)
  /-- A record, called by its title in messages, and what the values of its fields make. -/
  | record {α β : Type} (title : String) (fields : Fields β) (make : β → α) : Form α

/-- The fields of a record and the type of their values together. -/
inductive Fields : Type → Type 1 where
  | none : Fields Unit
  | required {α β : Type} (name : String) (form : Form α) (rest : Fields β) : Fields (α × β)
  /-- A field that may be missing. -/
  | defaulting {α β : Type} (name : String) (default : α) (form : Form α) (rest : Fields β) :
      Fields (α × β)

end

namespace Fields

/-- What is known of the fields of a record while it is read. -/
def Slots : {β : Type} → Fields β → Type
  | _, .none => Unit
  | _, @required α _ _ _ rest => Option α × rest.Slots
  | _, @defaulting α _ _ _ _ rest => Option α × rest.Slots

/-- Nothing is known. -/
def blank : {β : Type} → (fields : Fields β) → fields.Slots
  | _, .none => ()
  | _, .required _ _ rest => (Option.none, rest.blank)
  | _, .defaulting _ _ _ rest => (Option.none, rest.blank)

/-- The values of all fields, or the name of the first required one that is missing. -/
def finish : {β : Type} → (fields : Fields β) → fields.Slots → Except String β
  | _, .none => fun _ => .ok ()
  | _, .required name _ rest => fun (slot, slots) =>
      match slot with
      | some v => (rest.finish slots).map (v, ·)
      | Option.none => .error name
  | _, .defaulting _ default _ rest => fun (slot, slots) =>
      (rest.finish slots).map (slot.getD default, ·)

/-- How many fields there are. -/
def count : {β : Type} → Fields β → Nat
  | _, .none => 0
  | _, .required _ _ rest => rest.count + 1
  | _, .defaulting _ _ _ rest => rest.count + 1

end Fields

end QueryPath.Document
