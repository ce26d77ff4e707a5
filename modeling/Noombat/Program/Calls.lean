import Noombat.Program.Basic

/-!
# Calls one after the other

Calls to a program are made in a sequence.  Each is run to its end, with the choices that the
environment makes for it, before the next one starts.
-/

namespace Program

variable {I : Interface} {κ α σ : Type} (W : World I σ) (body : κ → Program I α)

/-- A call, and the choices that the environment makes while it runs. -/
structure Made (W : World I σ) (κ : Type) where
  call : κ
  script : Script W

/-- The state after a sequence of calls. -/
def afterCalls (calls : List (Made W κ)) (s : σ) : σ :=
  calls.foldl (fun s m => (run W m.script (body m.call) s).2) s

variable {W body}

/-- What every call preserves, a sequence of calls does. -/
theorem afterCalls_inv (Inv : σ → Prop)
    (step : ∀ k s, Inv s → wp W (Always W) (fun _ s' => Inv s') (body k) s)
    (calls : List (Made W κ)) {s : σ} (hs : Inv s) :
  Inv (afterCalls W body calls s)
  := by
  induction calls generalizing s with
  | nil => exact hs
  | cons m calls ih =>
      apply ih
      apply wp_run_always (step m.call s hs)

end Program
