import Mathlib.Init

/-!
# Cyclic lists

A list that is written in turn at every index, the last one followed by the
first: `unrolled xs n` reads it from the index `n`, where the oldest element
stands and the next one goes. Writing there drops the oldest and appends
(`unrolled_set`), which is what `lastOf` does to the end of a history
(`lastOf_concat`).
-/

namespace NovaVpn.Framework

variable {α : Type}

/-- A cyclic list, read from an index on. -/
def unrolled (xs : List α) (n : Nat) : List α := xs.drop n ++ xs.take n

/-- At most the `count` last elements. -/
def lastOf (count : Nat) (xs : List α) : List α := xs.drop (xs.length - count)

theorem lastOf_of_le {count : Nat} {xs : List α} (h : xs.length ≤ count) : lastOf count xs = xs := by
  rw [lastOf, Nat.sub_eq_zero_of_le h, List.drop_zero]

theorem length_lastOf (count : Nat) (xs : List α) : (lastOf count xs).length = min xs.length count := by
  rw [lastOf, List.length_drop]
  omega

/-- One more element takes the place of the oldest. -/
theorem lastOf_concat {count : Nat} {xs : List α} (hcount : 0 < count) (h : count ≤ xs.length)
    (x : α) : lastOf count (xs ++ [x]) = (lastOf count xs).tail ++ [x] := by
  have hle : xs.length + 1 - count ≤ xs.length := by omega
  have hsucc : xs.length + 1 - count = xs.length - count + 1 := by omega
  rw [lastOf, List.length_append, List.length_singleton, List.drop_append_of_le_length hle, hsucc,
    lastOf, List.tail_drop]

theorem unrolled_zero (xs : List α) : unrolled xs 0 = xs := by
  rw [unrolled, List.drop_zero, List.take_zero, List.append_nil]

theorem take_set {xs : List α} {n : Nat} (h : n < xs.length) (x : α) :
    (xs.set n x).take (n + 1) = xs.take n ++ [x] := by
  rw [List.take_set, List.take_succ_eq_append_getElem h,
    List.set_append_right _ _ (by rw [List.length_take]; omega), List.length_take,
    Nat.min_eq_left (Nat.le_of_lt h), Nat.sub_self, List.set_cons_zero]

/-- Writing at the index drops the oldest element and appends. -/
theorem unrolled_set {xs : List α} {n : Nat} (h : n < xs.length) (x : α) :
    unrolled (xs.set n x) ((n + 1) % xs.length) = (unrolled xs n).tail ++ [x] := by
  have hdrop : xs.drop n = xs[n] :: xs.drop (n + 1) := List.drop_eq_getElem_cons h
  have htail : (unrolled xs n).tail = xs.drop (n + 1) ++ xs.take n := by
    rw [unrolled, hdrop, List.cons_append, List.tail_cons]
  have hset : unrolled (xs.set n x) (n + 1) = (unrolled xs n).tail ++ [x] := by
    rw [unrolled, take_set h, List.drop_set_of_lt (Nat.lt_succ_self n), htail, List.append_assoc]
  by_cases hlast : n + 1 = xs.length
  · have hlen : (xs.set n x).length = n + 1 := by rw [List.length_set, hlast]
    rw [← hset, ← hlast, Nat.mod_self, unrolled_zero, unrolled, ← hlen, List.drop_length,
      List.take_length, List.nil_append]
  · rw [Nat.mod_eq_of_lt (by omega), hset]

end NovaVpn.Framework
