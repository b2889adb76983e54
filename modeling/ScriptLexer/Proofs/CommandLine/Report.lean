/-
# What a report says

A report is written in chunks: the events of the scan for the log, and then one line on standard
output for each token, or one complaint on standard error for each error.  This file sorts the
chunks of a report by where they go.
-/
import ScriptLexer.CommandLine.Report
import ScriptLexer.Proofs.Segmentation

namespace ScriptLexer.CommandLine

/-- The lines that show the tokens of a result. -/
def tokenLines (r : ScanResult) : List String := r.tokens.map fun t => t.text ++ "\n"

/-- The lines that show the errors of a result. -/
def errorLines (r : ScanResult) : List String := r.errors.map fun e => e.text ++ "\n"

/-- What chunks put on standard output. -/
def outputOf (chunks : List Chunk) : String := String.join (chunks.map Chunk.onOutput)

/-- The complaint, if the chunk is one. -/
def Chunk.complaint? : Chunk → Option String
  | complaint text => some text
  | _ => none

/-- The event, if the chunk is one for the log. -/
def Chunk.event? : Chunk → Option Event
  | record e => some e
  | _ => none

/-- The complaints among chunks, in their order. -/
def complaintsOf (chunks : List Chunk) : List String := chunks.filterMap Chunk.complaint?

/-- The events among chunks, in their order. -/
def eventsOf (chunks : List Chunk) : List Event := chunks.filterMap Chunk.event?

section Chunks

variable {chunks : List Chunk}

@[simp] lemma outputOf_append (xs ys : List Chunk) :
    outputOf (xs ++ ys) = outputOf xs ++ outputOf ys := by
  rw [outputOf, List.map_append, String.join_append]
  rfl

@[simp] lemma outputOf_output_cons (text : String) (chunks : List Chunk) :
    outputOf (.output text :: chunks) = text ++ outputOf chunks := String.join_cons

@[simp] lemma outputOf_record_cons (e : Event) (chunks : List Chunk) :
    outputOf (.record e :: chunks) = outputOf chunks := by
  rw [outputOf, List.map_cons, String.join_cons]
  exact String.empty_append

@[simp] lemma complaintsOf_append (xs ys : List Chunk) :
    complaintsOf (xs ++ ys) = complaintsOf xs ++ complaintsOf ys := List.filterMap_append

lemma outputOf_flatMap {α : Type} (xs : List α) (f : α → List Chunk) :
    outputOf (xs.flatMap f) = String.join (xs.map fun x => outputOf (f x)) := by
  induction xs with
  | nil => rfl
  | cons x xs ih => rw [List.flatMap_cons, outputOf_append, ih, List.map_cons, String.join_cons]

lemma complaintsOf_flatMap {α : Type} (xs : List α) (f : α → List Chunk) :
    complaintsOf (xs.flatMap f) = xs.flatMap fun x => complaintsOf (f x) := List.filterMap_flatMap

lemma outputOf_eq_empty (h : ∀ c ∈ chunks, c.onOutput = "") : outputOf chunks = "" := by
  induction chunks with
  | nil => rfl
  | cons c chunks ih =>
    have hrest := ih fun d hd => h d (List.mem_cons_of_mem c hd)
    rw [outputOf, List.map_cons, String.join_cons, h c List.mem_cons_self]
    exact hrest

lemma complaintsOf_eq_nil (h : ∀ c ∈ chunks, c.complaint? = none) : complaintsOf chunks = [] :=
  List.filterMap_eq_nil_iff.2 h

end Chunks

/-! ## Bytes that are text -/

lemma fromUTF8?_eq_some_iff {bytes : ByteArray} {text : String} :
    String.fromUTF8? bytes = some text ↔ text.toUTF8 = bytes := by
  unfold String.fromUTF8?
  constructor
  · intro h
    split at h
    · rw [← Option.some.inj h]
      rfl
    · exact absurd h (by simp)
  · rintro rfl
    exact dif_pos text.isValidUTF8

lemma fromUTF8?_toUTF8 (text : String) : String.fromUTF8? text.toUTF8 = some text :=
  fromUTF8?_eq_some_iff.2 rfl

lemma fromUTF8?_eq_none_iff {bytes : ByteArray} :
    String.fromUTF8? bytes = none ↔ ∀ text : String, text.toUTF8 ≠ bytes := by
  rw [Option.eq_none_iff_forall_ne_some]
  exact forall_congr' fun text => not_congr fromUTF8?_eq_some_iff

/-! ## The chunks of a report -/

variable {source : String}

lemma hasErrors_iff {r : ScanResult} : r.hasErrors = true ↔ r.errors ≠ [] := by
  simp [ScanResult.hasErrors]

/-- The tokens are shown on standard output, unless there is an error. -/
lemma outputOf_report :
    outputOf (report source)
      = if (scan source).errors = [] then String.join (tokenLines (scan source)) else "" := by
  have hrecords : outputOf ((scanEvents source).map Chunk.record) = "" := by
    refine outputOf_eq_empty fun c hc => ?_
    obtain ⟨e, -, rfl⟩ := List.mem_map.1 hc
    rfl
  rw [report, outputOf_append, hrecords, String.empty_append]
  by_cases hclean : (scan source).errors = []
  · rw [if_neg (by simp [hasErrors_iff, hclean]), if_pos hclean, outputOf, List.map_map,
      tokenLines]
    rfl
  · rw [if_pos (hasErrors_iff.2 hclean), if_neg hclean]
    refine outputOf_eq_empty fun c hc => ?_
    obtain ⟨e, -, rfl⟩ := List.mem_map.1 hc
    rfl

/-- The errors are all that a report complains of. -/
lemma complaintsOf_report : complaintsOf (report source) = errorLines (scan source) := by
  have hrecords : complaintsOf ((scanEvents source).map Chunk.record) = [] := by
    refine complaintsOf_eq_nil fun c hc => ?_
    obtain ⟨e, -, rfl⟩ := List.mem_map.1 hc
    rfl
  rw [report, complaintsOf_append, hrecords, List.nil_append]
  split
  · rw [complaintsOf, List.filterMap_map]
    exact congrFun List.filterMap_eq_map _
  · next h =>
    have hnone : (scan source).errors = [] := by simpa [hasErrors_iff] using h
    rw [errorLines, hnone]
    refine complaintsOf_eq_nil fun c hc => ?_
    obtain ⟨t, -, rfl⟩ := List.mem_map.1 hc
    rfl

end ScriptLexer.CommandLine
