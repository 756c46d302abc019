-- SUMMARY: Messages have their scope in front of them, whatever the setting for it says.
import Worksheet.Proofs.Nesting
import Worksheet.Proofs.Session

/-!
# Prefixes of Messages

There is a setting that is to keep the scope out of messages. No extraction looks at it: results
and messages are those of a session with the setting on, and each message but the remarks on missing
sections has the scope in front. So a session without prefixes is one that has nothing else to say:
`Session.prefixes_remain`.
-/

namespace Worksheet

/-! ## Messages and their scopes -/

namespace Log

/-- The text is a message behind the labels of a scope. -/
def IsPrefixed (text : String) : Prop :=
  ∃ (s : Scope) (message : String), s.labels ≠ [] ∧ text = s.decorate message

/-- The text remarks that a section is missing. -/
def IsRemark (text : String) : Prop := ∃ rest, text = "No section " ++ rest

/-- The entry is a remark, or a message behind the labels of the scope. -/
def IsMarked (s : Scope) (e : Entry) : Prop :=
  IsRemark e.message ∨ ∃ message, e.message = s.decorate message

theorem head?_of_isPrefixed {text : String} (h : IsPrefixed text) :
    text.toList.head? = some '[' := by
  obtain ⟨s, message, hlabels, rfl⟩ := h
  rw [Scope.decorate_eq, if_neg hlabels]
  simp

theorem not_isPrefixed_of_isRemark {text : String} (h : IsRemark text) : ¬IsPrefixed text := by
  intro hprefixed
  obtain ⟨rest, rfl⟩ := h
  have hhead := head?_of_isPrefixed hprefixed
  simp at hhead

/-- A message that does not look like labels itself has a prefix if there are labels. -/
theorem not_isPrefixed_decorate_iff {s : Scope} {message : String}
    (hmessage : message.toList.head? ≠ some '[') :
    ¬IsPrefixed (s.decorate message) ↔ s.labels = [] := by
  constructor
  · intro hnot
    by_contra hlabels
    exact hnot ⟨s, message, hlabels, rfl⟩
  · intro hlabels hprefixed
    have hhead := head?_of_isPrefixed hprefixed
    rw [Scope.decorate_eq, if_pos hlabels] at hhead
    exact hmessage hhead

/-- In a scope that is shown, only remarks are without its labels. -/
theorem IsMarked.not_isPrefixed_iff {s : Scope} {e : Entry} (h : IsMarked s e)
    (hs : s.labels ≠ []) : ¬IsPrefixed e.message ↔ IsRemark e.message := by
  constructor
  · intro hnot
    rcases h with h | ⟨message, h⟩
    · exact h
    · exact absurd ⟨s, message, hs, h⟩ hnot
  · exact not_isPrefixed_of_isRemark

end Log

namespace Traced

open Log

variable {α β : Type} {work : Traced α} {next : α → Traced β} {P : Scope → Entry → Prop}

/-- The work leaves the scope as it found it, and each entry that it adds has this property in
    the scope. -/
def Adds (work : Traced α) (P : Scope → Entry → Prop) : Prop :=
  ∀ t, ∃ entries, (work.runFrom t).2 = { t with entries := t.entries ++ entries } ∧
    ∀ e ∈ entries, P t.scope e

theorem Adds.imp {Q : Scope → Entry → Prop} (h : work.Adds P) (hPQ : ∀ s e, P s e → Q s e) :
    work.Adds Q := by
  intro t
  obtain ⟨entries, hrun, hentries⟩ := h t
  exact ⟨entries, hrun, fun e he => hPQ _ e (hentries e he)⟩

theorem adds_ofResult (r : Except Fault α) : (ofResult r).Adds P :=
  fun _ => ⟨[], by simp, nofun⟩

theorem adds_note {level : Level} {message : String} (h : ∀ s, P s ⟨level, message⟩) :
    (note level message).Adds P :=
  fun t => ⟨[⟨level, message⟩], rfl, fun _ he => List.mem_singleton.1 he ▸ h t.scope⟩

theorem adds_log {level : Level} {message : String}
    (h : ∀ s : Scope, P s ⟨level, s.decorate message⟩) : (log level message).Adds P :=
  fun t => ⟨[⟨level, t.scope.decorate message⟩], rfl,
    fun _ he => List.mem_singleton.1 he ▸ h t.scope⟩

theorem Adds.bind (h : work.Adds P) (hn : ∀ a, (next a).Adds P) : (work >>= next).Adds P := by
  intro t
  obtain ⟨entries, hrun, hentries⟩ := h t
  cases hw : work.runFrom t with
  | mk r t' =>
    rw [hw] at hrun
    subst hrun
    cases r with
    | error e =>
      rw [runFrom_bind_of_error hw]
      exact ⟨entries, rfl, hentries⟩
    | ok a =>
      rw [runFrom_bind_of_ok hw]
      obtain ⟨entries', hrun', hentries'⟩ := hn a { t with entries := t.entries ++ entries }
      refine ⟨entries ++ entries', ?_, List.forall_mem_append.2 ⟨hentries, hentries'⟩⟩
      rw [hrun', List.append_assoc]

theorem Adds.within (h : work.Adds P) (f : Field) (v : Value) :
    (Traced.within f v work).Adds fun s => P (s.set f (some v)) := by
  intro t
  obtain ⟨entries, hrun, hentries⟩ := h { t with scope := t.scope.set f (some v) }
  refine ⟨entries, ?_, hentries⟩
  have hwork : (work { t with scope := t.scope.set f (some v) }).2 = _ := hrun
  simp only [runFrom, Traced.within, hwork, Scope.set_set, Scope.set_get_self]

/-- As a relation, saying nothing about the other side. -/
theorem stepwise_adds : Stepwise fun _ work _ => work.Adds IsMarked where
  ofResult _ := adds_ofResult _
  log message := adds_log fun _ => .inr ⟨message, rfl⟩
  bind := Adds.bind

/-- The entries that are added are those that the reports are among. -/
theorem Reports.and_adds {r : Except Fault α} {reports : Scope → List Entry}
    (h : work.Reports r reports) (ha : work.Adds P) (t : Trace) :
    ∃ entries, work.runFrom t = (r, { t with entries := t.entries ++ entries }) ∧
      entries.filter (·.level = .info) = reports t.scope ∧ ∀ e ∈ entries, P t.scope e := by
  obtain ⟨entries, hrun, hfilter⟩ := h t
  obtain ⟨entries', hrun', hentries⟩ := ha t
  rw [hrun] at hrun'
  obtain rfl := List.append_cancel_left (congrArg Trace.entries hrun')
  exact ⟨entries, hrun, hfilter, hentries⟩

end Traced

/-! ## Extractions -/

namespace Extractor

open Log

variable (x : Extractor)

theorem isRemark_of_remark? {cell : Cell} {m : String} (h : x.remark? cell = some m) :
    IsRemark m := by
  unfold remark? at h
  split at h
  · unfold Format.Display.remark? at h
    split at h
    · cases h
    · split at h
      · rw [← Option.some.inj h]
        simp only [String.append_assoc]
        exact ⟨_, rfl⟩
      · cases h
  · cases h

theorem adds_displayLogged (cell : Cell) : (x.displayLogged cell).Adds IsMarked := by
  unfold displayLogged
  cases hm : x.remark? cell with
  | none => exact Traced.adds_ofResult _
  | some m =>
    have hremark := x.isRemark_of_remark? hm
    exact (Traced.adds_note fun _ => .inl hremark).bind fun _ => Traced.adds_ofResult _

theorem adds_extract (name : Value) (headers : List Value) (b : Bounds) (rows : List Row) :
    (x.extract name headers b rows).Adds IsMarked :=
  extract_related Traced.stepwise_adds (adds_displayLogged x) rfl name headers b rows

end Extractor

namespace Session

open Log

variable (s : Session) {α : Type} {work : Traced α} {P : Scope → Entry → Prop}

theorem adds_inWorkbook (h : work.Adds P) :
    (s.inWorkbook work).Adds fun outer => P (s.workbookScope outer) := by
  unfold inWorkbook workbookScope
  cases s.workbook with
  | none => exact h
  | some name => exact h.within .workbook name

theorem adds_inTable (h : work.Adds P) (name : String) :
    (s.inTable name work).Adds fun outer => P (s.tableScope name outer) :=
  s.adds_inWorkbook ((h.within .operation (.text "extract")).within .table (.text name))

theorem adds_extractTable (d : Declaration) (rows : List Row) :
    (s.extractTable d rows).Adds fun outer => IsMarked (s.tableScope d.name outer) := by
  refine s.adds_inTable ?_ d.name
  refine (Traced.adds_ofResult _).bind fun b => ?_
  refine (s.extractor.adds_extract _ _ b rows).bind fun table => ?_
  have hreport : (Traced.logShown .info (report b table)).Adds IsMarked :=
    (Traced.adds_ofResult _).bind fun message => Traced.adds_log fun _ => .inr ⟨message, rfl⟩
  exact hreport.bind fun _ => Traced.adds_ofResult _

theorem adds_extractTables (rows : List Row) (ds : List Declaration) :
    (s.extractTables rows ds).Adds fun outer e =>
      ∃ d ∈ ds, IsMarked (s.tableScope d.name outer) e := by
  induction ds with
  | nil => exact Traced.adds_ofResult _
  | cons d ds ih =>
    refine Traced.Adds.bind ?_ fun table => Traced.Adds.bind ?_ fun tables =>
      Traced.adds_ofResult _
    · exact (s.adds_extractTable d rows).imp fun _ _ he => ⟨d, List.mem_cons_self, he⟩
    · exact ih.imp fun _ _ ⟨d', hd', he⟩ => ⟨d', List.mem_cons_of_mem d hd', he⟩

/-- The operation is shown, whatever the names of the workbook, the sheet and the table are. -/
theorem labels_tableScope_ne (name : String) (outer : Scope) :
    (s.tableScope name outer).labels ≠ [] := by
  have hshown : (Field.operation, Value.text "extract") ∈ (s.tableScope name outer).shown :=
    (Scope.mem_shown_iff _).2 ((Scope.shownValue?_eq_some_iff _).2 ⟨rfl, rfl⟩)
  exact List.ne_nil_of_mem (List.mem_map_of_mem hshown)

/-! ## Runs of a session -/

/-- A table that is extracted is reported, and the report has its scope in front. -/
theorem runFrom_extractTable (d : Declaration) (rows : List Row) (t : Trace) :
    ∃ entries, ((s.extractTable d rows).runFrom t).2.entries = t.entries ++ entries ∧
      (∀ e ∈ entries, IsMarked (s.tableScope d.name t.scope) e) ∧
      ∀ table, ((s.extractTable d rows).runFrom t).1 = .ok table →
        ∃ e ∈ entries, IsPrefixed e.message := by
  obtain ⟨entries, hrun, hreports, hentries⟩ :=
    (s.reports_extractTable d rows).and_adds (s.adds_extractTable d rows) t
  rw [hrun]
  refine ⟨entries, rfl, hentries, fun table htable => ?_⟩
  rw [Extractor.result_extractDeclared] at htable
  obtain ⟨p, hp, -⟩ := bind_eq_ok_iff.1 htable
  rw [hp, Traced.afterwards_ok] at hreports
  have hmem := hreports ▸ List.mem_singleton_self _
  exact ⟨_, List.mem_of_mem_filter hmem, _, _, s.labels_tableScope_ne d.name t.scope, rfl⟩

theorem runFrom_extractTables (rows : List Row) (ds : List Declaration) (t : Trace) :
    ∃ entries, ((s.extractTables rows ds).runFrom t).2.entries = t.entries ++ entries ∧
      (∀ e ∈ entries, ∃ d ∈ ds, IsMarked (s.tableScope d.name t.scope) e) ∧
      ∀ tables, ((s.extractTables rows ds).runFrom t).1 = .ok tables → ds ≠ [] →
        ∃ e ∈ entries, IsPrefixed e.message := by
  obtain ⟨entries, hrun, hreports, hentries⟩ :=
    (s.reports_extractTables rows ds).and_adds (s.adds_extractTables rows ds) t
  rw [hrun]
  refine ⟨entries, rfl, hentries, fun tables htables hne => ?_⟩
  obtain ⟨d, ds, rfl⟩ := List.exists_cons_of_ne_nil hne
  cases mapM_eq_ok_iff.1 htables with
  | cons hd _ =>
    rw [Extractor.result_extractDeclared] at hd
    obtain ⟨p, hp, -⟩ := bind_eq_ok_iff.1 hd
    rw [successes, hp, List.map_cons] at hreports
    have hmem := hreports ▸ List.mem_cons_self
    exact ⟨_, List.mem_of_mem_filter hmem, _, _, s.labels_tableScope_ne d.name t.scope, rfl⟩

theorem runFrom_inWorkbook (work : Traced α) (t : Trace) :
    ((s.inWorkbook work).runFrom t).1 =
        (work.runFrom { t with scope := s.workbookScope t.scope }).1 ∧
      ((s.inWorkbook work).runFrom t).2.entries =
        (work.runFrom { t with scope := s.workbookScope t.scope }).2.entries := by
  unfold inWorkbook workbookScope
  cases s.workbook with
  | none => exact ⟨rfl, rfl⟩
  | some name => exact ⟨rfl, rfl⟩

theorem runFrom_extractSheet (sheet : Value) (ds : List Declaration) (rows : List Row) (t : Trace) :
    let inSheet := (s.workbookScope t.scope).set .sheet (some sheet)
    ∃ entries, ((s.extractSheet sheet ds rows).runFrom t).2.entries =
        t.entries ++ ⟨.info, inSheet.decorate (sheetReport ds rows)⟩ :: entries ∧
      (∀ e ∈ entries, ∃ d ∈ ds, IsMarked (s.tableScope d.name inSheet) e) ∧
      ∀ tables, ((s.extractSheet sheet ds rows).runFrom t).1 = .ok tables → ds ≠ [] →
        ∃ e ∈ entries, IsPrefixed e.message := by
  intro inSheet
  let report : Entry := ⟨.info, inSheet.decorate (sheetReport ds rows)⟩
  obtain ⟨entries, hadded, hmarked, hprefixed⟩ :=
    s.runFrom_extractTables rows ds ⟨inSheet, t.entries ++ [report]⟩
  have hsheet : ((s.extractSheet sheet ds rows).runFrom t).1 =
        ((s.extractTables rows ds).runFrom ⟨inSheet, t.entries ++ [report]⟩).1 ∧
      ((s.extractSheet sheet ds rows).runFrom t).2.entries =
        ((s.extractTables rows ds).runFrom ⟨inSheet, t.entries ++ [report]⟩).2.entries :=
    s.runFrom_inWorkbook _ t
  rw [hsheet.1, hsheet.2]
  refine ⟨entries, ?_, hmarked, hprefixed⟩
  rw [hadded, List.append_assoc]
  rfl

/-- The session with another value for its setting of contextual messages. -/
def withContext (flag : Value) : Session :=
  { s with preferences := { s.preferences with contextualLogging := flag } }

/-- No table looks at the setting. -/
theorem extractTable_withContext (flag : Value) (d : Declaration) (rows : List Row) :
    (s.withContext flag).extractTable d rows = s.extractTable d rows := rfl

theorem extractSheet_withContext (flag : Value) (sheet : Value) (ds : List Declaration)
    (rows : List Row) :
    (s.withContext flag).extractSheet sheet ds rows = s.extractSheet sheet ds rows := by
  have htables : (s.withContext flag).extractTables rows ds = s.extractTables rows ds := by
    induction ds with
    | nil => rfl
    | cons d ds ih =>
      unfold extractTables
      rw [extractTable_withContext, ih]
  unfold extractSheet
  rw [htables]
  rfl

/-- Whether messages are to have their scope in front or not, the results and the messages are the
    same. Every message of a table has it in front, unless it remarks that a section is missing,
    and so has the message of a sheet, if the workbook or the sheet has a name. So a run that is to
    be without prefixes is so exactly if there are no other messages than these remarks. A run
    that gives a table has a message with a prefix. -/
theorem prefixes_remain (s : Session) (rows : List Row) (t : Trace) :
    let off := s.withContext (.bool false)
    let on := s.withContext (.bool true)
    (∀ d, let done := (off.extractTable d rows).runFrom t
      done = (on.extractTable d rows).runFrom t ∧
      ∃ entries, done.2.entries = t.entries ++ entries ∧
        (∀ e ∈ entries, IsMarked (s.tableScope d.name t.scope) e) ∧
        ((∀ e ∈ entries, ¬IsPrefixed e.message) ↔ ∀ e ∈ entries, IsRemark e.message) ∧
        (∀ table, done.1 = .ok table → ∃ e ∈ entries, IsPrefixed e.message)) ∧
    (∀ sheet ds, let done := (off.extractSheet sheet ds rows).runFrom t
      let inSheet := (s.workbookScope t.scope).set .sheet (some sheet)
      let report : Entry := ⟨.info, inSheet.decorate (sheetReport ds rows)⟩
      done = (on.extractSheet sheet ds rows).runFrom t ∧
      ∃ entries, done.2.entries = t.entries ++ report :: entries ∧
        (∀ e ∈ entries, ∃ d ∈ ds, IsMarked (s.tableScope d.name inSheet) e) ∧
        ((∀ e ∈ report :: entries, ¬IsPrefixed e.message) ↔
          inSheet.labels = [] ∧ ∀ e ∈ entries, IsRemark e.message) ∧
        (∀ tables, done.1 = .ok tables → ds ≠ [] → ∃ e ∈ entries, IsPrefixed e.message)) := by
  intro off on
  refine ⟨fun d => ⟨rfl, ?_⟩, fun sheet ds => ?_⟩
  · obtain ⟨entries, hadded, hmarked, hprefixed⟩ := s.runFrom_extractTable d rows t
    refine ⟨entries, hadded, hmarked, ?_, hprefixed⟩
    exact forall₂_congr fun e he => (hmarked e he).not_isPrefixed_iff (s.labels_tableScope_ne _ _)
  · intro done inSheet report
    have hoff : done = (s.extractSheet sheet ds rows).runFrom t :=
      congrArg (·.runFrom t) (s.extractSheet_withContext _ sheet ds rows)
    obtain ⟨entries, hadded, hmarked, hprefixed⟩ := s.runFrom_extractSheet sheet ds rows t
    rw [← hoff] at hadded hprefixed
    refine ⟨?_, entries, hadded, hmarked, ?_, hprefixed⟩
    · rw [hoff, s.extractSheet_withContext]
    · rw [List.forall_mem_cons]
      refine and_congr (not_isPrefixed_decorate_iff ?_) (forall₂_congr fun e he => ?_)
      · simp [sheetReport]
      · obtain ⟨d, -, he⟩ := hmarked e he
        exact he.not_isPrefixed_iff (s.labels_tableScope_ne _ _)

/-- The prefix is there although the setting is off. -/
theorem extractTable_prefixed_off :
    let settings : Settings := { Settings.default with contextualLogging := false }
    let s : Session := ⟨Preferences.ofSettings settings [], Lookups.empty, none⟩
    let messages := (s.extractTable ⟨"T", ["A"], "A1:A1"⟩ []).entries.map Entry.message
    start settings [] Lookups.empty none = .ok s ∧
    messages = ["[table=T, op=extract] Extracted 0 rows for table 'T' (A1:A1)",
      "[table=T, op=extract] Extracted 0 rows from A1:A1"] ∧
    ¬∀ message ∈ messages, ¬IsPrefixed message := by
  intro settings s messages
  have hmessages : messages = ["[table=T, op=extract] Extracted 0 rows for table 'T' (A1:A1)",
      "[table=T, op=extract] Extracted 0 rows from A1:A1"] := by decide +kernel
  have hprefixed : IsPrefixed "[table=T, op=extract] Extracted 0 rows from A1:A1" :=
    ⟨s.tableScope "T" Scope.empty, "Extracted 0 rows from A1:A1", by decide +kernel,
      by decide +kernel⟩
  have hstart : Preferences.canStart s.preferences.logLevel = true := by decide +kernel
  have hwritable : s.preferences.isWritable = true := rfl
  refine ⟨(if_pos hstart).trans (if_pos hwritable), hmessages, fun hnone => ?_⟩
  rw [hmessages] at hnone
  exact hnone _ (by simp) hprefixed

end Session

end Worksheet
