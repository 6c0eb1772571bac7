import Mathlib.Data.List.Basic

/-!
# A stream that arrives in chunks

A reader that asks for a number of items of a stream gets what the next chunk
has, which may be less, and asks again for what is left. `takeExact` is this
loop, and `takeExact_eq` says that it only depends on the stream: the chunks
it leaves are again chunks of what is left of the stream.
-/

namespace NovaVpn.Framework

variable {α : Type}

/-- The chunks of a stream: none is empty, for an empty one is its end. -/
structure Chunked (stream : List α) (chunks : List (List α)) : Prop where
  flatten : chunks.flatten = stream
  nonempty : ∀ c ∈ chunks, c ≠ []

/-- Reads `n` items, chunk by chunk: the items and the chunks left, or none if
the stream ends before. -/
def takeExact : Nat → List (List α) → Option (List α × List (List α))
  | 0, chunks => some ([], chunks)
  | _ + 1, [] => none
  | n + 1, chunk :: chunks =>
    if chunk.length = 0 then none
    else if chunk.length ≤ n + 1 then
      (takeExact (n + 1 - chunk.length) chunks).map fun r => (chunk ++ r.1, r.2)
    else some (chunk.take (n + 1), chunk.drop (n + 1) :: chunks)

/-- A read gives as many items as were asked for. -/
theorem length_takeExact {n : Nat} {chunks : List (List α)} {items : List α}
    {rest : List (List α)} (h : takeExact n chunks = some (items, rest)) : items.length = n := by
  induction chunks generalizing n items rest with
  | nil =>
    cases n with
    | zero =>
      cases h
      rfl
    | succ n => cases h
  | cons chunk chunks ih =>
    cases n with
    | zero =>
      cases h
      rfl
    | succ n =>
      rw [takeExact] at h
      split at h
      · cases h
      split at h
      · next hle =>
        obtain ⟨read, hread, hr⟩ := Option.map_eq_some_iff.mp h
        cases hr
        rw [List.length_append, ih hread]
        omega
      · cases h
        rw [List.length_take]
        omega

namespace Chunked

variable {stream chunk : List α} {chunks : List (List α)}

theorem nil : Chunked ([] : List α) [] := ⟨rfl, fun _ h => absurd h List.not_mem_nil⟩

theorem eq_nil (h : Chunked stream []) : stream = [] := h.flatten.symm

theorem tail (h : Chunked stream (chunk :: chunks)) :
    stream = chunk ++ chunks.flatten ∧ chunk ≠ [] ∧ Chunked chunks.flatten chunks := by
  rw [← h.flatten, List.flatten_cons]
  have hne := List.forall_mem_cons.mp h.nonempty
  exact ⟨rfl, hne.1, rfl, hne.2⟩

theorem cons (hc : chunk ≠ []) (h : Chunked stream chunks) :
    Chunked (chunk ++ stream) (chunk :: chunks) :=
  ⟨by rw [List.flatten_cons, h.flatten], List.forall_mem_cons.mpr ⟨hc, h.nonempty⟩⟩

/-- A read fails if the stream is too short for it. -/
theorem takeExact_eq_none {n : Nat} (h : Chunked stream chunks) (hn : stream.length < n) :
    takeExact n chunks = none := by
  induction chunks generalizing stream n with
  | nil =>
    obtain ⟨m, rfl⟩ : ∃ m, n = m + 1 := ⟨n - 1, by omega⟩
    rfl
  | cons chunk chunks ih =>
    obtain ⟨rfl, hne, ht⟩ := h.tail
    obtain ⟨m, rfl⟩ : ∃ m, n = m + 1 := ⟨n - 1, by omega⟩
    have hlen : chunk.length ≠ 0 := fun h => hne (List.length_eq_zero_iff.mp h)
    rw [List.length_append] at hn
    rw [takeExact, if_neg hlen, if_pos (by omega), ih ht (by omega)]
    rfl

/-- A read gives the next items of the stream, however it is cut, and leaves
chunks of the rest. -/
theorem takeExact_eq {n : Nat} (h : Chunked stream chunks) (hn : n ≤ stream.length) :
    ∃ rest, takeExact n chunks = some (stream.take n, rest) ∧ Chunked (stream.drop n) rest := by
  induction chunks generalizing stream n with
  | nil =>
    obtain rfl := h.eq_nil
    obtain rfl : n = 0 := Nat.le_zero.mp hn
    exact ⟨[], rfl, h⟩
  | cons chunk chunks ih =>
    obtain ⟨rfl, hne, ht⟩ := h.tail
    cases n with
    | zero => exact ⟨chunk :: chunks, rfl, h⟩
    | succ n =>
      have hlen : chunk.length ≠ 0 := fun h => hne (List.length_eq_zero_iff.mp h)
      rw [List.length_append] at hn
      rw [takeExact, if_neg hlen]
      by_cases hle : chunk.length ≤ n + 1
      · obtain ⟨rest, hr, hrest⟩ := ih ht (n := n + 1 - chunk.length) (by omega)
        refine ⟨rest, ?_, ?_⟩
        · rw [if_pos hle, hr, Option.map_some, List.take_append, List.take_of_length_le hle]
        · rwa [List.drop_append, List.drop_of_length_le hle, List.nil_append]
      · refine ⟨chunk.drop (n + 1) :: chunks, ?_, ?_⟩
        · rw [if_neg hle, List.take_append_of_le_length (by omega)]
        · rw [List.drop_append_of_le_length (by omega)]
          exact cons (fun h => by rw [List.drop_eq_nil_iff] at h; omega) ht

end Chunked

end NovaVpn.Framework
