import NovaVpn.Framework.Machine

/-!
# Simulations

A machine refines another through a function from its states to the other's if
each of its steps is one of the other's. `run_refines` says it of the runs, under
an invariant of the machine that refines and a condition on its events.
-/

namespace NovaVpn.Framework

variable {S T E : Type} {step : S → E → Option S} {ok : S → E → Prop} {I : S → Prop}
  {astep : T → E → Option T} {abs : S → T}

theorem run_refines
    (hstep : ∀ s e s', I s → ok s e → step s e = some s' →
      I s' ∧ astep (abs s) e = some (abs s')) {s s' : S} {es : List E}
    (h : I s) (hok : RunMeets step ok s es) (hr : run step s es = some s') :
    run astep (abs s) es = some (abs s') := by
  induction es generalizing s with
  | nil =>
    cases hr
    rfl
  | cons e es ih =>
    obtain ⟨s₁, hs, hr⟩ := run_cons.mp hr
    obtain ⟨h₁, ha⟩ := hstep s e s₁ h hok.1 hs
    exact run_cons.mpr ⟨abs s₁, ha, ih h₁ (hok.2 s₁ hs) hr⟩

end NovaVpn.Framework
