/-!
# White space

Two classes of white space. `isBlank` is the Unicode property White_Space, `isGap` the four
characters that may stand between the tokens of a path expression. Every gap is blank.
-/

namespace QueryPath.Text

/-- The 25 characters with the Unicode property White_Space. -/
def isBlank (c : Char) : Bool :=
  let n := c.toNat
  (0x09 ≤ n && n ≤ 0x0D) || n == 0x20 || n == 0x85 || n == 0xA0 || n == 0x1680
    || (0x2000 ≤ n && n ≤ 0x200A) || n == 0x2028 || n == 0x2029 || n == 0x202F
    || n == 0x205F || n == 0x3000

/-- Space, tab, carriage return and line feed. -/
def isGap (c : Char) : Bool :=
  c == ' ' || c == '\t' || c == '\r' || c == '\n'

theorem isBlank_of_isGap {c : Char} (h : isGap c = true) : isBlank c = true := by
  simp only [isGap, Bool.or_eq_true, beq_iff_eq] at h
  rcases h with ((h | h) | h) | h <;> subst h <;> decide

/-- The text without its leading white space. -/
def dropBlank (s : List Char) : List Char := s.dropWhile isBlank

/-- The text without its leading gap. -/
def dropGap (s : List Char) : List Char := s.dropWhile isGap

/-- The text without the white space at both ends. -/
def trim (text : String) : String :=
  String.ofList (dropBlank (dropBlank text.toList).reverse).reverse

theorem length_dropGap_le (s : List Char) : (dropGap s).length ≤ s.length :=
  (List.dropWhile_sublist isGap).length_le

end QueryPath.Text
