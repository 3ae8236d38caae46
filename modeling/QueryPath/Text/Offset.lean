/-!
# Positions in a text

A position is counted in bytes of the UTF-8 form of the text.
-/

namespace QueryPath.Text

/-- Bytes that the characters take in UTF-8. -/
def byteLength : List Char → Nat
  | [] => 0
  | c :: s => c.utf8Size + byteLength s

@[simp] theorem byteLength_nil : byteLength [] = 0 := rfl

@[simp] theorem byteLength_append (s t : List Char) :
    byteLength (s ++ t) = byteLength s + byteLength t := by
  induction s with
  | nil => simp
  | cons c s ih => simp [byteLength, ih, Nat.add_assoc]

/-- Position at which the final part `rest` of `s` begins. -/
def offsetOf (s rest : List Char) : Nat := byteLength s - byteLength rest

@[simp] theorem offsetOf_append (s t : List Char) : offsetOf (s ++ t) t = byteLength s := by
  simp [offsetOf]

end QueryPath.Text
