namespace BoundedCache.Word

/-!
# Arithmetic of 64-bit quantities

Byte counts, clock readings, ticks and counters are natural numbers that stay below `2 ^ 64`.
Where a sum or a product could leave that range, one of two rules applies:

* `addSat`, `mulSat`: the result stops at `top`.  Budgets and expiry times follow this rule, so a
  far expiry means "never" and does not come round to the past.
* `addWrap`, `subWrap`, `mulWrap`, `succWrap`: the result is taken modulo `2 ^ 64`.  Ticks,
  counters, running totals and manual clocks follow this rule.

The two rules agree on every result that fits (`addSat_eq_add`, `addWrap_eq_add`).
-/

/-- The number of values that a word takes, `2 ^ 64`. -/
def modulus : Nat := 18446744073709551616

/-- Half of that number, `2 ^ 63`: signed words are the integers from `-half` up to below `half`. -/
def half : Nat := 9223372036854775808

/-- The largest word. -/
def top : Nat := modulus - 1

/-- The sum, or `top` where the sum does not fit. -/
def addSat (a b : Nat) : Nat := min (a + b) top

/-- The product, or `top` where the product does not fit. -/
def mulSat (a b : Nat) : Nat := min (a * b) top

/-- The sum modulo `2 ^ 64`. -/
def addWrap (a b : Nat) : Nat := (a + b) % modulus

/-- The product modulo `2 ^ 64`. -/
def mulWrap (a b : Nat) : Nat := a * b % modulus

/-- The difference modulo `2 ^ 64`, of a word and a subtrahend that is a word. -/
def subWrap (a b : Nat) : Nat := (a + (modulus - b)) % modulus

/-- The next word, after `top` comes 0. -/
def succWrap (n : Nat) : Nat := addWrap n 1

/-! ### Where the two rules agree with plain arithmetic -/

theorem addSat_le_top (a b : Nat) : addSat a b ≤ top := Nat.min_le_right _ _

theorem addSat_eq_add {a b : Nat} (h : a + b ≤ top) : addSat a b = a + b := Nat.min_eq_left h

theorem mulSat_eq_mul {a b : Nat} (h : a * b ≤ top) : mulSat a b = a * b := Nat.min_eq_left h

theorem le_top_iff_lt_modulus {n : Nat} : n ≤ top ↔ n < modulus := by
  simp only [top, modulus]
  omega

theorem addWrap_eq_add {a b : Nat} (h : a + b ≤ top) : addWrap a b = a + b :=
  Nat.mod_eq_of_lt (le_top_iff_lt_modulus.1 h)

theorem subWrap_eq_sub {a b : Nat} (ha : a ≤ top) (h : b ≤ a) : subWrap a b = a - b := by
  simp only [subWrap, top, modulus] at *
  omega

end BoundedCache.Word
