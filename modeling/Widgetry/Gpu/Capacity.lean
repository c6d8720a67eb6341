/-!
# Growing capacities

A capacity that is too small is doubled until it is large enough. Capacities are machine words,
and the doubling is checked: one that leaves the words stops the program. This is so in a build
with overflow checks; without them the capacity would wrap around.
-/

namespace Widgetry.Gpu

/-- Capacities are below this. -/
def wordLimit : Nat := Nat.pow 2 64

/-- Doubles a capacity up to a number of times; there is none where doubling overflows. -/
def doubled : Nat → Nat → Nat → Option Nat
  | 0, capacity, needed => if needed ≤ capacity then some capacity else none
  | times + 1, capacity, needed =>
    if needed ≤ capacity then some capacity
    else if 2 * capacity < wordLimit then doubled times (2 * capacity) needed
    else none

/-- The capacity for `needed` elements, doubled from `current`; it never shrinks. Nothing is left
of a word after 64 doublings. -/
def grownCapacity (current needed : Nat) : Option Nat := doubled 64 (max current 1) needed

end Widgetry.Gpu
