-- SUMMARY: Runs of traced computations: the steps of a run, and results that do not depend on the log.
import Worksheet.Log.Traced

/-!
# Runs of Traced Computations

A run takes a trace to a result and a trace. The result of most computations does
not depend on the trace that they start from: `Traced.Yields` says which result it
is, and goes from the steps of a computation to the whole.
-/

namespace Worksheet

/-! ## Computations that may fail -/

section Except

variable {ε α β : Type} {r r' : Except ε α} {k : α → Except ε β}

theorem bind_eq_ok_iff {b : β} : (r >>= k) = .ok b ↔ ∃ a, r = .ok a ∧ k a = .ok b := by
  cases r with
  | error e => simp [bind, Except.bind]
  | ok a => simp [bind, Except.bind]

theorem bind_eq_error_iff {e : ε} :
    (r >>= k) = .error e ↔ r = .error e ∨ ∃ a, r = .ok a ∧ k a = .error e := by
  cases r with
  | error e => simp [bind, Except.bind]
  | ok a => simp [bind, Except.bind]

theorem exists_eq_ok_iff : (∃ a, r = .ok a) ↔ ∀ e, r ≠ .error e := by
  cases r with
  | error e => simp
  | ok a => simp

/-- Computations that fail alike also succeed alike. -/
theorem exists_eq_ok_congr {r : Except ε α} {r' : Except ε β}
    (h : ∀ e, r = .error e ↔ r' = .error e) : (∃ a, r = .ok a) ↔ ∃ b, r' = .ok b := by
  rw [exists_eq_ok_iff, exists_eq_ok_iff]
  exact forall_congr' fun e => not_congr (h e)

theorem bind_pure_eq_error_iff {f : α → β} {e : ε} :
    (r >>= fun a => pure (f a)) = .error e ↔ r = .error e := by
  cases r with
  | error e => simp [bind, Except.bind]
  | ok a => simp [bind, Except.bind, pure, Except.pure]

theorem bind_pure_injective {f : α → β} (hf : ∀ a b, f a = f b → a = b)
    (h : (r >>= fun a => pure (f a)) = r' >>= fun a => pure (f a)) : r = r' := by
  cases r with
  | error e => cases r' with
    | error e' => exact congrArg Except.error (Except.error.inj h)
    | ok a' => cases h
  | ok a => cases r' with
    | error e' => cases h
    | ok a' => exact congrArg Except.ok (hf a a' (Except.ok.inj h))

/-- Whether a computation gives a certain result can be found out by running it. -/
instance decidableEqOk [DecidableEq α] (r : Except ε α) (a : α) : Decidable (r = .ok a) :=
  match r with
  | .error _ => isFalse nofun
  | .ok b => decidable_of_iff (b = a) ⟨congrArg Except.ok, Except.ok.inj⟩

theorem mapError_eq_ok_iff {ε' : Type} {f : ε → ε'} {a : α} : r.mapError f = .ok a ↔ r = .ok a := by
  cases r with
  | error e => exact iff_of_false (fun h => nomatch h) (fun h => nomatch h)
  | ok b =>
    constructor
    · intro h
      exact congrArg Except.ok (Except.ok.inj h)
    · intro h
      exact congrArg Except.ok (Except.ok.inj h)

end Except

namespace Traced

variable {α β : Type} {work : Traced α} {next : α → Traced β} {t : Log.Trace}

/-! ## Steps of a run -/

@[simp] theorem runFrom_pure (a : α) (t : Log.Trace) :
    (pure a : Traced α).runFrom t = (.ok a, t) := rfl

@[simp] theorem runFrom_ofResult (r : Except Fault α) (t : Log.Trace) :
    (ofResult r).runFrom t = (r, t) := rfl

theorem runFrom_bind_of_ok {t' : Log.Trace} {a : α} (h : work.runFrom t = (.ok a, t')) :
    (work >>= next).runFrom t = (next a).runFrom t' := by
  have hw : work t = (.ok a, t') := h
  simp only [runFrom, bind, ExceptT.bind, ExceptT.mk, StateT.bind, hw]
  rfl

theorem runFrom_bind_of_error {t' : Log.Trace} {e : Fault} (h : work.runFrom t = (.error e, t')) :
    (work >>= next).runFrom t = (.error e, t') := by
  have hw : work t = (.error e, t') := h
  simp only [runFrom, bind, ExceptT.bind, ExceptT.mk, StateT.bind, hw]
  rfl

/-- What follows on a result that is there already may be replaced where it has that result. -/
theorem ofResult_bind_congr {r : Except Fault α} {next next' : α → Traced β}
    (h : ∀ a, r = .ok a → next a = next' a) : ofResult r >>= next = ofResult r >>= next' := by
  cases r with
  | error e => rfl
  | ok a => exact h a rfl

theorem exists_of_runFrom_bind_ok {b : β} (h : ((work >>= next).runFrom t).1 = .ok b) :
    ∃ a t', work.runFrom t = (.ok a, t') ∧ ((next a).runFrom t').1 = .ok b := by
  cases hw : work.runFrom t with
  | mk r t' =>
    cases r with
    | error e => rw [runFrom_bind_of_error hw] at h; cases h
    | ok a => rw [runFrom_bind_of_ok hw] at h; exact ⟨a, t', rfl, h⟩

/-! ## Results -/

/-- The computation has this result, whatever has been logged before. -/
def Yields (work : Traced α) (r : Except Fault α) : Prop := ∀ t, (work.runFrom t).1 = r

theorem yields_pure (a : α) : Yields (pure a) (.ok a) := fun _ => rfl

theorem yields_ofResult (r : Except Fault α) : Yields (ofResult r) r := fun _ => rfl

theorem yields_note (level : Log.Level) (message : String) : Yields (note level message) (.ok ()) :=
  fun _ => rfl

theorem yields_log (level : Log.Level) (message : String) : Yields (log level message) (.ok ()) :=
  fun _ => rfl

theorem Yields.bind {r : Except Fault α} {k : α → Except Fault β} (h : work.Yields r)
    (hk : ∀ a, r = .ok a → (next a).Yields (k a)) : (work >>= next).Yields (r >>= k) := by
  intro t
  have ht := h t
  cases hw : work.runFrom t with
  | mk s t' =>
    rw [hw] at ht
    subst ht
    cases s with
    | error e => rw [runFrom_bind_of_error hw]; rfl
    | ok a => rw [runFrom_bind_of_ok hw]; exact hk a rfl t'

theorem Yields.bind_ok {a : α} {r : Except Fault β} (h : work.Yields (.ok a))
    (hn : (next a).Yields r) : (work >>= next).Yields r :=
  h.bind (k := fun _ => r) fun _ ha => Except.ok.inj ha ▸ hn

theorem yields_logShown_bind (level : Log.Level) (message : Except Fault String)
    {next : Unit → Traced β} {r : Except Fault β} (hn : (next ()).Yields r) :
    (logShown level message >>= next).Yields (message >>= fun _ => r) := by
  have hlog : (logShown level message).Yields (message >>= fun _ => pure ()) :=
    (yields_ofResult message).bind fun m _ => yields_log level m
  have hbind := hlog.bind fun _ _ => hn
  rwa [bind_assoc] at hbind

end Traced

end Worksheet
