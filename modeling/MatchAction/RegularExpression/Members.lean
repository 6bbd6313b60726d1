/-!
# Members

How deep an expression is.  An atom has depth 0, a repetition, a group or a set is one deeper than
what it holds, and two members or more that stand side by side are one deeper than the deepest.
-/

namespace MatchAction.RegularExpression

/-- Parts that stand side by side. -/
structure Members where
  count : Nat
  /-- The depth of the deepest part, 0 if there is none. -/
  deepest : Nat
  deriving DecidableEq

namespace Members

def empty : Members := ⟨0, 0⟩

def add (members : Members) (depth : Nat) : Members := ⟨members.count + 1, max members.deepest depth⟩

/-- The depth of all parts together. -/
def depth (members : Members) : Nat :=
  if members.count < 2 then members.deepest else members.deepest + 1

end Members

end MatchAction.RegularExpression
