-- SUMMARY: What traced computations report, and that they leave the scope as they find it.
import Worksheet.Proofs.Traced

/-!
# Reports

Messages of level `info` are reports; the others are remarks for whoever looks for a
mistake. `Traced.Reports` says what work gives and which reports it makes, as a function of
the scope that it finds, and that it leaves this scope as it was. It goes from the steps of
the work to the whole. Quiet work makes no reports.
-/

namespace Worksheet.Traced

variable {α β : Type} {work : Traced α} {next : α → Traced β} {r : Except Fault α}
  {reports : Log.Scope → List Log.Entry}

/-- From each trace the work gives this result and leaves the scope as it found it. It adds
    entries to the trace, and the reports among them are these. -/
def Reports (work : Traced α) (r : Except Fault α) (reports : Log.Scope → List Log.Entry) :
    Prop :=
  ∀ t, ∃ entries, work.runFrom t = (r, { t with entries := t.entries ++ entries }) ∧
    entries.filter (·.level = .info) = reports t.scope

/-- What is reported after a step, which must have had a result. -/
def afterwards (r : Except Fault α) (reports : α → List Log.Entry) : List Log.Entry :=
  match r with
  | .ok a => reports a
  | .error _ => []

@[simp] theorem afterwards_ok (a : α) (reports : α → List Log.Entry) :
    afterwards (.ok a) reports = reports a := rfl

@[simp] theorem afterwards_error (e : Fault) (reports : α → List Log.Entry) :
    afterwards (.error e) reports = [] := rfl

@[simp] theorem afterwards_nil (r : Except Fault α) : afterwards r (fun _ => []) = [] := by
  cases r with
  | error e => rfl
  | ok a => rfl

theorem Reports.congr {r' : Except Fault α} {reports' : Log.Scope → List Log.Entry}
    (h : work.Reports r reports) (hr : r = r') (hs : ∀ s, reports s = reports' s) :
    work.Reports r' reports' := by
  intro t
  obtain ⟨entries, hrun, hentries⟩ := h t
  exact ⟨entries, hr ▸ hrun, hentries.trans (hs t.scope)⟩

theorem Reports.result_eq (h : work.Reports r reports) : work.result = r := by
  obtain ⟨entries, hrun, -⟩ := h Log.Trace.start
  rw [result, hrun]

/-! ## Steps -/

theorem reports_ofResult (r : Except Fault α) : (ofResult r).Reports r fun _ => [] :=
  fun _ => ⟨[], by simp, rfl⟩

theorem reports_pure (a : α) : (pure a : Traced α).Reports (.ok a) fun _ => [] :=
  reports_ofResult (.ok a)

theorem reports_note (level : Log.Level) (message : String) :
    (note level message).Reports (.ok ())
      fun _ => [⟨level, message⟩].filter (·.level = .info) :=
  fun _ => ⟨[⟨level, message⟩], rfl, rfl⟩

theorem reports_log (level : Log.Level) (message : String) :
    (log level message).Reports (.ok ())
      fun s => [⟨level, s.decorate message⟩].filter (·.level = .info) :=
  fun t => ⟨[⟨level, t.scope.decorate message⟩], rfl, rfl⟩

theorem Reports.bind {k : α → Except Fault β} {reports' : α → Log.Scope → List Log.Entry}
    (h : work.Reports r reports) (hn : ∀ a, (next a).Reports (k a) (reports' a)) :
    (work >>= next).Reports (r >>= k)
      fun s => reports s ++ afterwards r fun a => reports' a s := by
  intro t
  obtain ⟨entries, hrun, hentries⟩ := h t
  cases r with
  | error e =>
    refine ⟨entries, runFrom_bind_of_error hrun, ?_⟩
    simp only [hentries, afterwards_error, List.append_nil]
  | ok a =>
    obtain ⟨entries', hrun', hentries'⟩ := hn a { t with entries := t.entries ++ entries }
    refine ⟨entries ++ entries', ?_, ?_⟩
    · rw [runFrom_bind_of_ok hrun, hrun', List.append_assoc]
      rfl
    · simp only [List.filter_append, hentries, hentries', afterwards_ok]

/-- Work in a narrower scope reports there. Its result does not depend on the scope, which is
    wide again at the end even if the work has failed. -/
theorem Reports.within (h : work.Reports r reports) (f : Log.Field) (v : Value) :
    (Traced.within f v work).Reports r fun s => reports (s.set f (some v)) := by
  intro t
  obtain ⟨entries, hrun, hentries⟩ := h { t with scope := t.scope.set f (some v) }
  refine ⟨entries, ?_, hentries⟩
  have hwork : work { t with scope := t.scope.set f (some v) } = _ := hrun
  simp only [runFrom, Traced.within, hwork, Log.Scope.set_set, Log.Scope.set_get_self]

/-! ## Quiet work -/

/-- The work has a result that does not depend on the trace, and makes no reports. -/
def Quiet (work : Traced α) : Prop := work.Reports work.result fun _ => []

theorem Reports.quiet (h : work.Reports r fun _ => []) : work.Quiet :=
  h.congr h.result_eq.symm fun _ => rfl

theorem quiet_ofResult (r : Except Fault α) : (ofResult r).Quiet := (reports_ofResult r).quiet

theorem quiet_pure (a : α) : (pure a : Traced α).Quiet := (reports_pure a).quiet

theorem quiet_note (message : String) : (note .debug message).Quiet :=
  (reports_note .debug message).quiet

theorem quiet_log (message : String) : (log .debug message).Quiet :=
  (reports_log .debug message).quiet

theorem Quiet.bind (h : work.Quiet) (hn : ∀ a, (next a).Quiet) : (work >>= next).Quiet := by
  have hbind : (work >>= next).Reports _ _ := Reports.bind h hn
  exact (hbind.congr rfl fun s => afterwards_nil work.result).quiet

end Worksheet.Traced
