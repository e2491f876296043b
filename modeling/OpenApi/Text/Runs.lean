/-
A set of code points is written down as the increasing list of the places where membership
changes: the first number is the first member, the second the first non-member after it, and so
on.  A table of a Unicode property is then one list of numbers, and looking a character up is
counting how many changes lie at or before it.
-/
namespace OpenApi.Text

/-- Membership in the set whose changes are `changes`: an odd number of them lies at or before
`code`. -/
def inRuns (changes : List Nat) (code : Nat) : Bool :=
  (changes.takeWhile (· ≤ code)).length % 2 == 1

theorem inRuns_nil (code : Nat) : inRuns [] code = false := rfl

theorem inRuns_of_lt {first code : Nat} (rest : List Nat) (h : code < first) :
    inRuns (first :: rest) code = false := by
  simp [inRuns, Nat.not_le.mpr h]

end OpenApi.Text
