import Mathlib.Data.List.Forall2
import NovaVpn.Framework.Machine

/-!
# Systems that answer

A system takes one request after the other, and answers each. What it says can be
compared with two things. `exchanges_remembers` is about a memory that is kept of
the requests and their answers alone, as someone outside would keep it: what every
exchange keeps true of the state and the memory is true after all of them.
`exchanges_alike` is about two such systems, or one in two states: if requests that
are alike get the same answer, and leave states that go together, the answers are
the same all the way.
-/

namespace NovaVpn.Framework

variable {S R A M : Type}

/-- The state after the requests, and the answers. -/
def exchanges (handle : S → R → S × A) : S → List R → S × List A
  | s, [] => (s, [])
  | s, r :: rs =>
    let rest := exchanges handle (handle s r).1 rs
    (rest.1, (handle s r).2 :: rest.2)

/-- A memory of requests and answers. -/
def remember (learn : M → R → A → M) (m : M) (rs : List R) (as : List A) : M :=
  (rs.zip as).foldl (fun m e => learn m e.1 e.2) m

variable {handle : S → R → S × A}

theorem exchanges_remembers {learn : M → R → A → M} {ok : S → R → Prop} {I : S → M → Prop}
    (hstep : ∀ s m r, I s m → ok s r → I (handle s r).1 (learn m r (handle s r).2))
    {s : S} {m : M} {rs : List R} (h : I s m)
    (hok : RunMeets (fun s r => some (handle s r).1) ok s rs) :
    I (exchanges handle s rs).1 (remember learn m rs (exchanges handle s rs).2) := by
  induction rs generalizing s m with
  | nil => exact h
  | cons r rs ih => exact ih (hstep s m r h hok.1) (hok.2 _ rfl)

theorem exchanges_alike {Alike : R → R → Prop} {I : S → S → Prop}
    (hstep : ∀ s s' r r', I s s' → Alike r r' →
      I (handle s r).1 (handle s' r').1 ∧ (handle s r).2 = (handle s' r').2)
    {s s' : S} {rs rs' : List R} (h : I s s') (hrs : List.Forall₂ Alike rs rs') :
    I (exchanges handle s rs).1 (exchanges handle s' rs').1 ∧
      (exchanges handle s rs).2 = (exchanges handle s' rs').2 := by
  induction hrs generalizing s s' with
  | nil => exact ⟨h, rfl⟩
  | cons hr _ ih =>
    obtain ⟨hstate, hanswer⟩ := hstep _ _ _ _ h hr
    obtain ⟨hstates, hanswers⟩ := ih hstate
    exact ⟨hstates, by rw [exchanges, exchanges, hanswer, hanswers]⟩

end NovaVpn.Framework
