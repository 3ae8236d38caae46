import QueryPath.Proofs.Expr.Token

/-!
# The grammar of path expressions

```text
path     := primary ( '.' identifier )*
primary  := 'treat' '(' path 'as' identifier ')'
          | ( 'element' | 'value' | 'index' | 'key' ) '(' path ')'
          | identifier
```

The grammar derives expressions from tokens (`Derives`). It has no rule for keywords as such: a
word is a keyword where a rule wants one, and an identifier wherever else it stands. A text is a
path expression if the grammar derives one from its tokens (`Written`).
-/

namespace QueryPath.Expr

open Text

/-- The word is the keyword, in any case of letters. -/
def Spells (n keyword : String) : Prop := n.toList.map Char.toLower = keyword.toList

instance (n keyword : String) : Decidable (Spells n keyword) :=
  inferInstanceAs (Decidable (_ = _))

/-- A symbol of the grammar that stands for tokens. -/
inductive Nonterminal where
  | path
  | primary
deriving DecidableEq, Repr

/-- What the grammar derives from tokens. -/
inductive Derives : Nonterminal → List Token → Expr → Prop
  /-- `path := primary ( '.' identifier )*` -/
  | path {ts e} (names : List String) : Derives .primary ts e →
      Derives .path (ts ++ names.flatMap fun n => [.mark .dot, .word n]) (names.foldl .member e)
  /-- `primary := 'treat' '(' path 'as' identifier ')'` -/
  | treat {k ts e a target} : Spells k "treat" → Derives .path ts e → Spells a "as" →
      Derives .primary (.word k :: .mark .opening ::
        (ts ++ [.word a, .word target, .mark .closing])) (.treat e target)
  /-- `primary := ( 'element' | 'value' | 'index' | 'key' ) '(' path ')'` -/
  | part {k f ts e} : Spells k f.name → Derives .path ts e →
      Derives .primary (.word k :: .mark .opening :: (ts ++ [.mark .closing])) (.part f e)
  /-- `primary := identifier` -/
  | name {n} : Derives .primary [.word n] (.root n)

theorem Derives.begins {x : Nonterminal} {ts : List Token} {e : Expr} (h : Derives x ts e) :
    ∃ n us, ts = .word n :: us := by
  induction h with
  | path names _ ih =>
    obtain ⟨n, us, rfl⟩ := ih
    exact ⟨n, _, rfl⟩
  | treat | part | name => exact ⟨_, _, rfl⟩

/-- The text is a path expression, with white space behind it. -/
def Written (text : String) (e : Expr) : Prop :=
  ∃ t b ts, text.toList = t ++ b ∧ (∀ c ∈ b, isBlank c = true) ∧ Splits t ts ∧ Derives .path ts e

end QueryPath.Expr
