/-!
# Rounding a quotient

`roundDiv num den` is the natural number nearest to `num / den`, an exact tie going to the even
neighbour. It is the only rounding in the library: reading a decimal, writing shortest digits and
writing fixed places all go through it.

* `roundDiv_of_lt`, `roundDiv_of_gt`: off a tie the nearer neighbour wins.
* `roundDiv_mul_right`: a quotient that is exact is not changed.
-/

namespace ViewGraph

/-- The natural number nearest to `num / den`; a tie goes to the even neighbour. -/
def roundDiv (num den : Nat) : Nat :=
  let below := num / den
  let twice := 2 * (num % den)
  if twice < den then below
  else if den < twice then below + 1
  else if below % 2 = 0 then below else below + 1

theorem roundDiv_of_lt {num den : Nat} (h : 2 * (num % den) < den) :
    roundDiv num den = num / den := by
  simp [roundDiv, h]

theorem roundDiv_of_gt {num den : Nat} (h : den < 2 * (num % den)) :
    roundDiv num den = num / den + 1 := by
  simp [roundDiv, h, Nat.not_lt.2 (Nat.le_of_lt h)]

theorem roundDiv_mul_right (n : Nat) {den : Nat} (h : 0 < den) : roundDiv (n * den) den = n := by
  rw [roundDiv_of_lt] <;> simp [Nat.mul_div_cancel _ h, h]

end ViewGraph
