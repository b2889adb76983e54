/-
# The log and everything else

The settings of the log decide which events are written and how their lines are set, and nothing
besides: neither how a run ends nor what is on standard output, nor what is on standard error when
the log lines are taken out (`run_log_independent`).

Standard error is a mixture of log lines and complaints, and text that was put on it does not tell
where a line of the log ends.  So the statement is about the pieces that it is made of: under any
settings it is the log lines of the events that these settings show, merged with the same complaints
in the same order (`Merged`).
-/
import ScriptLexer.CommandLine.Program
import ScriptLexer.Proofs.CommandLine.Report

namespace ScriptLexer.CommandLine

/-! ## Standard error -/

/-- `Merged ls cs text`: the texts `ls` and the texts `cs`, each in their order, make up `text`. -/
inductive Merged : List String → List String → String → Prop
  /-- There is nothing. -/
  | nil : Merged [] [] ""
  /-- The next piece is one of the first kind. -/
  | left {l : String} {ls cs : List String} {text : String} :
      Merged ls cs text → Merged (l :: ls) cs (l ++ text)
  /-- The next piece is one of the second kind. -/
  | right {c : String} {ls cs : List String} {text : String} :
      Merged ls cs text → Merged ls (c :: cs) (c ++ text)

/-- Whether an event is to be seen. -/
def LogSettings.shows (log : LogSettings) (e : Event) : Bool := log.verbosity.shows e.level

/-- The log lines of the events that are shown. -/
def logLines (log : LogSettings) (time : String) (events : List Event) : List String :=
  (events.filter log.shows).map fun e => e.line log.style time

variable {log : LogSettings} {time : String}

/-- Chunks put on standard error the log lines of their events, and their complaints. -/
lemma merged_onError (chunks : List Chunk) :
    Merged (logLines log time (eventsOf chunks)) (complaintsOf chunks)
      (String.join (chunks.map (Chunk.onError log time))) := by
  induction chunks with
  | nil => exact .nil
  | cons c chunks ih =>
    rw [List.map_cons, String.join_cons]
    cases c with
    | output text => rwa [Chunk.onError, String.empty_append]
    | complaint text => exact .right ih
    | record e =>
      have hevents : eventsOf (.record e :: chunks) = e :: eventsOf chunks := rfl
      have hcomplaints : complaintsOf (.record e :: chunks) = complaintsOf chunks := rfl
      have honError : Chunk.onError log time (.record e)
          = if log.shows e then e.line log.style time else "" := rfl
      rw [hevents, hcomplaints, logLines, honError]
      by_cases hshown : log.shows e = true
      · rw [List.filter_cons_of_pos hshown, if_pos hshown]
        exact .left ih
      · rw [List.filter_cons_of_neg hshown, if_neg hshown, String.empty_append]
        exact ih

lemma Merged.eq_join {cs : List String} {text : String} (h : Merged [] cs text) :
    text = String.join cs := by
  generalize hls : ([] : List String) = ls at h
  induction h with
  | nil => rfl
  | left => exact absurd hls (by simp)
  | right _ ih => rw [String.join_cons, ← ih hls]

/-- The log is quiet if it does not show the weightiest events that are ever recorded. -/
def LogSettings.Quiet (log : LogSettings) : Prop := log.verbosity.shows .info = false

lemma LogSettings.Quiet.logLines_eq_nil (h : log.Quiet) (events : List Event) :
    logLines log time events = [] := by
  have hdepth : ∀ e : Event, Level.info.depth ≤ e.level.depth := by
    intro e
    cases e <;> simp [Event.level, Level.depth]
  have hhidden : ∀ e ∈ events, ¬ log.shows e = true := by
    intro e _ hshown
    unfold LogSettings.Quiet at h
    unfold LogSettings.shows at hshown
    cases hlimit : log.verbosity with
    | silent => simp [hlimit, Verbosity.shows] at hshown
    | upTo limit =>
      simp only [hlimit, Verbosity.shows, decide_eq_true_eq, decide_eq_false_iff_not] at h hshown
      exact h (Nat.le_trans (hdepth e) hshown)
  rw [logLines, List.filter_eq_nil_iff.2 hhidden, List.map_nil]

lemma Transcript.errorOutput_of_quiet (h : log.Quiet) (t : Transcript) :
    t.errorOutput log time = String.join (complaintsOf t.chunks) := by
  have hmerged := @merged_onError log time t.chunks
  rw [h.logLines_eq_nil] at hmerged
  exact hmerged.eq_join

/-! ## Settings -/

/-- Arguments that choose a script, a verbose log and a log without colour. -/
def argumentsFor (script : Option String) (verbose noColour : Bool) : List String :=
  (if verbose then ["--verbose"] else []) ++ (if noColour then ["--no-color"] else [])
    ++ script.elim [] fun path => ["--", path]

/-- Every choice is accepted, with every limit of the log that the environment names. -/
lemma settings_argumentsFor {script : Option String} (h : script ≠ some "")
    (verbose noColour : Bool) (limit : Option String) :
    settings (argumentsFor script verbose noColour) ⟨none, none, limit⟩
      = .ok ⟨script, .of verbose noColour limit⟩ := by
  cases script with
  | none => cases verbose <;> cases noColour <;> rfl
  | some path =>
    have hpath : path.isEmpty = false := by simpa using h
    have hread : Arguments.empty.read (argumentsFor (some path) verbose noColour)
        = (⟨none, verbose, noColour⟩ : Arguments).readScripts [path] := by
      cases verbose <;> cases noColour <;> rfl
    have hname : (⟨none, verbose, noColour⟩ : Arguments).readScripts [path]
        = .ok ⟨some path, verbose, noColour⟩ := by
      simp [Arguments.readScripts, Arguments.name, hpath]
    rw [settings, hread, hname]
    cases verbose <;> cases noColour <;> rfl

/-! ## Runs -/

variable {call : Call} {s : Settings}

/-- A call whose arguments are accepted runs, and its log is set as they say. -/
lemma Call.run_eq (h : settings call.arguments call.environment = .ok s) (time : String) :
    call.run time = ⟨(call.transcript s).status.code, outputOf (call.transcript s).chunks,
      (call.transcript s).errorOutput s.log time⟩ := by
  rw [Call.run, h]
  rfl

/-- What a run for the script at `path` comes to, with its result and its complaints, where
`contents` is what the system answers when the script is to be read. -/
structure ScriptRun (path : String) (contents : Except ReadFailure ByteArray) (r : Result)
    (complaints : List String) : Prop where
  /-- The tokens of a script without errors are shown, and nothing is complained of. -/
  clean : ∀ source, contents = .ok source.toUTF8 → (scan source).errors = [] →
    r.exitCode = 0 ∧ r.output = String.join (tokenLines (scan source)) ∧ complaints = []
  /-- All errors of a script are reported, and no token is shown. -/
  faulty : ∀ source, contents = .ok source.toUTF8 → (scan source).errors ≠ [] →
    r.exitCode = 65 ∧ r.output = "" ∧ complaints = errorLines (scan source)
  /-- A file that cannot be read, for whatever reason, is complained of once. -/
  unreadable : ∀ failure, contents = .error failure →
    r.exitCode = 70 ∧ r.output = "" ∧
      complaints = ["could not read " ++ path ++ ": " ++ failure.reason ++ "\n"]
  /-- And so is a file that holds no text. -/
  notText : ∀ bytes, contents = .ok bytes → (∀ source : String, source.toUTF8 ≠ bytes) →
    r.exitCode = 70 ∧ r.output = "" ∧
      complaints =
        ["could not read " ++ path ++ ": " ++ "stream did not contain valid UTF-8" ++ "\n"]

lemma runScript_toUTF8 (path source : String) :
    runScript path (.ok source.toUTF8) =
      ⟨.record (.scanningFile path source.toUTF8.size) :: report source,
        if (scan source).hasErrors then .invalidData else .success⟩ := by
  rw [runScript, fromUTF8?_toUTF8]

lemma scriptRun_runScript (path : String) (contents : Except ReadFailure ByteArray)
    (errorOutput : String) :
    let t := runScript path contents
    ScriptRun path contents ⟨t.status.code, outputOf t.chunks, errorOutput⟩
      (complaintsOf t.chunks) := by
  constructor
  · intro source hread hclean
    have hno : (scan source).hasErrors = false := by simp [ScanResult.hasErrors, hclean]
    rw [hread, runScript_toUTF8, hno]
    refine ⟨rfl, ?_, ?_⟩
    · rw [outputOf_record_cons, outputOf_report, if_pos hclean]
    · exact complaintsOf_report.trans (by rw [errorLines, hclean, List.map_nil])
  · intro source hread hfaulty
    have hyes : (scan source).hasErrors = true := hasErrors_iff.2 hfaulty
    rw [hread, runScript_toUTF8, hyes]
    refine ⟨rfl, ?_, complaintsOf_report⟩
    rw [outputOf_record_cons, outputOf_report, if_neg hfaulty]
  · intro failure hread
    rw [hread]
    exact ⟨rfl, rfl, rfl⟩
  · intro bytes hread hbytes
    have hnone : runScript path (.ok bytes) = unreadableScript path .notText := by
      rw [runScript, fromUTF8?_eq_none_iff.2 hbytes]
    rw [hread, hnone]
    exact ⟨rfl, rfl, rfl⟩

/-- **The log is independent of everything else.**  Every choice of a verbose log, of a log without
colour and of a limit from the environment is accepted.  Two calls whose settings differ in the log
alone have the same exit code and the same output, and there are events and complaints such that
standard error is, under either settings, the log lines of the events that these settings show,
merged with the complaints.  For a script the exit code, the output and the complaints are those of
`ScriptRun`. -/
theorem run_log_independent :
    (∀ (script : Option String) (verbose noColour : Bool) (limit : Option String),
      script ≠ some "" →
      settings (argumentsFor script verbose noColour) ⟨none, none, limit⟩
        = .ok ⟨script, .of verbose noColour limit⟩) ∧
    (∀ (call₁ call₂ : Call) (s₁ s₂ : Settings) (time₁ time₂ : String),
      settings call₁.arguments call₁.environment = .ok s₁ →
      settings call₂.arguments call₂.environment = .ok s₂ →
      s₁.script = s₂.script → call₁.input = call₂.input →
      (∀ path, s₁.script = some path → call₁.fileAt path = call₂.fileAt path) →
      (call₁.run time₁).exitCode = (call₂.run time₂).exitCode ∧
      (call₁.run time₁).output = (call₂.run time₂).output ∧
      ∃ events complaints,
        Merged (logLines s₁.log time₁ events) complaints (call₁.run time₁).errorOutput ∧
        Merged (logLines s₂.log time₂ events) complaints (call₂.run time₂).errorOutput ∧
        ∀ path, s₁.script = some path →
          ScriptRun path (call₁.fileAt path) (call₁.run time₁) complaints) := by
  refine ⟨fun script verbose noColour limit h => settings_argumentsFor h verbose noColour limit, ?_⟩
  intro call₁ call₂ s₁ s₂ time₁ time₂ h₁ h₂ hscript hinput hread
  -- the transcript depends on the script, on what reading it yields and on the input alone
  have htranscript : call₁.transcript s₁ = call₂.transcript s₂ := by
    rw [Call.transcript, Call.transcript, ← hscript, hinput]
    cases hpath : s₁.script with
    | none => rfl
    | some path => exact congrArg (runScript path) (hread path hpath)
  rw [Call.run_eq h₁, Call.run_eq h₂, ← htranscript]
  refine ⟨rfl, rfl, _, _, merged_onError _, merged_onError _, fun path hpath => ?_⟩
  rw [Call.transcript, hpath]
  exact scriptRun_runScript path _ _

/-- A call of the program where the script `/tmp/s`, a wrong numeral, is the only file that may be
read. -/
def callForNumeral (arguments : List String) (limit : Option String) : Call where
  arguments := arguments
  environment := ⟨none, none, limit⟩
  input := ByteArray.empty
  fileAt path :=
    if path = "/tmp/s" then .ok "1.".toUTF8 else .error (.other "Permission denied (os error 13)")

/-- Under a verbose and coloured log, and under a plain one that shows every token, the same is
complained of a wrong numeral, and of a script that may not be read. -/
theorem run_log_independent_of_numeral :
    some "/tmp/s" ≠ some "" ∧
      settings (argumentsFor (some "/tmp/s") true false) ⟨none, none, some "off"⟩
        = .ok ⟨some "/tmp/s", ⟨.silent, .coloured⟩⟩ ∧
      settings ["--verbose", "/tmp/s"] ⟨none, none, none⟩
        = .ok ⟨some "/tmp/s", ⟨.upTo .debug, .coloured⟩⟩ ∧
      settings ["/tmp/s", "--no-color"] ⟨none, none, some "trace"⟩
        = .ok ⟨some "/tmp/s", ⟨.upTo .trace, .plain⟩⟩ ∧
      (scan "1.").errors ≠ [] ∧
      ((callForNumeral ["--verbose", "/tmp/s"] none).run "12:00").exitCode = 65 ∧
      ((callForNumeral ["/tmp/s", "--no-color"] (some "trace")).run "12:01").exitCode = 65 ∧
      (∃ events,
        Merged (logLines ⟨.upTo .debug, .coloured⟩ "12:00" events) (errorLines (scan "1."))
          ((callForNumeral ["--verbose", "/tmp/s"] none).run "12:00").errorOutput ∧
        Merged (logLines ⟨.upTo .trace, .plain⟩ "12:01" events) (errorLines (scan "1."))
          ((callForNumeral ["/tmp/s", "--no-color"] (some "trace")).run "12:01").errorOutput) ∧
      ((callForNumeral ["-v", "t"] none).run "12:00").exitCode = 70 ∧
      ∃ events,
        Merged (logLines ⟨.upTo .debug, .coloured⟩ "12:00" events)
          ["could not read t: Permission denied (os error 13)\n"]
          ((callForNumeral ["-v", "t"] none).run "12:00").errorOutput := by
  have hscript : some "/tmp/s" ≠ some "" := by decide
  have h₁ : settings ["--verbose", "/tmp/s"] ⟨none, none, none⟩
      = .ok ⟨some "/tmp/s", ⟨.upTo .debug, .coloured⟩⟩ := by rfl
  have h₂ : settings ["/tmp/s", "--no-color"] ⟨none, none, some "trace"⟩
      = .ok ⟨some "/tmp/s", ⟨.upTo .trace, .plain⟩⟩ := by rfl
  have h₃ : settings ["-v", "t"] ⟨none, none, none⟩
      = .ok ⟨some "t", ⟨.upTo .debug, .coloured⟩⟩ := by rfl
  have hfaulty : (scan "1.").errors ≠ [] := by decide +kernel
  obtain ⟨hexit, -, events, complaints, hmerged₁, hmerged₂, hrun⟩ := run_log_independent.2
    (callForNumeral ["--verbose", "/tmp/s"] none)
    (callForNumeral ["/tmp/s", "--no-color"] (some "trace"))
    _ _ "12:00" "12:01" h₁ h₂ rfl rfl fun _ _ => rfl
  obtain ⟨hcode, -, rfl⟩ := (hrun "/tmp/s" rfl).faulty "1." rfl hfaulty
  obtain ⟨-, -, events₃, _, hmerged₃, -, hrun₃⟩ := run_log_independent.2
    (callForNumeral ["-v", "t"] none) (callForNumeral ["-v", "t"] none)
    _ _ "12:00" "12:00" h₃ h₃ rfl rfl fun _ _ => rfl
  obtain ⟨hcode₃, -, rfl⟩ := (hrun₃ "t" rfl).unreadable _ rfl
  exact ⟨hscript, run_log_independent.1 (some "/tmp/s") true false (some "off") hscript, h₁, h₂,
    hfaulty, hcode, hexit.symm.trans hcode, ⟨events, hmerged₁, hmerged₂⟩, hcode₃, events₃,
    hmerged₃⟩

end ScriptLexer.CommandLine
