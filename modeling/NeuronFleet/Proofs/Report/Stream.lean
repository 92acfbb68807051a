import NeuronFleet.Proofs.Report.ReadBack
import NeuronFleet.Report.Run
import NeuronFleet.Supervision.Slot
import NeuronFleet.Config.Fleet
import Mathlib.Data.List.TakeWhile

/-
  The report stream from a worker to its supervisor.

  A worker writes its reports as lines, each of which reads back as its
  report and holds no line break before the line feed that ends it, so
  a trace spread over many lines stays on one.  The supervisor splits the bytes
  of its output into lines and sends the report each line holds on to
  the worker's fault slot.  Reading stops at the end of the output, when
  the receiving side is gone, or at the first line that is not UTF-8
  text: the lines before it that hold reports are sent, in order, and
  none after it.  On output that is text throughout, every line that
  holds a report is sent; one line of other bytes hides every report
  after it, a fault among them.

  What a worker writes for a run reads back as exactly its reports, so
  its slot shows the start, then the completion or the fault with its
  error and trace as they were.

  Main declarations:
    * `Report.line_reads_back`
    * `Report.lineReport`, `Report.IsText`, `Report.textReports`
    * `Report.readOutput_spec`, `Report.readOutput_text`
    * `Report.readOutput_written`, `Report.readOutput_stops_at_binary_line`
    * `runReported_reaches_slot`
-/

namespace NeuronFleet

namespace Report

open Json Reader

------------------------------------------------------------
-- The Lines a Worker Writes
------------------------------------------------------------

/- The bytes of a report's line before its line feed. -/
def lineBytes (r : Report) : List UInt8 := r.toJson.write.toUTF8.toList

theorem toLine_bytes (r : Report) : r.toLine.toUTF8.toList = r.lineBytes ++ [10] := by
  rw [toLine, toUTF8_toList, lineBytes, toUTF8_toList]
  simp
  rfl

/- Every byte of a report's line before its line feed is printable: a
written object whose members are strings and numbers escapes every
control character. -/
theorem le_of_mem_lineBytes
    {r : Report}
    (hr : r.Fits)
    {x : UInt8}
    (hx : x ∈ r.lineBytes) :
    32 ≤ x := by
  have hScalar : ∀ m ∈ ("type", Json.str r.kind) :: r.fields, Scalar m.2 := by
    intro m hm
    simp only [List.mem_cons] at hm
    rcases hm with rfl | hm
    · exact .str _
    · exact (fields_scalar hr m hm).2
  rw [lineBytes, toJson_eq] at hx
  exact le_of_mem_write_obj hScalar hx

/- A report's line has no line feed of its own. -/
theorem lineBytes_no_lf
    {r : Report}
    (hr : r.Fits) :
    10 ∉ r.lineBytes :=
  fun h => absurd (le_of_mem_lineBytes hr h) (by decide)

/- Nor has its text a control character: an ASCII character is its one
byte. -/
theorem le_of_mem_write_toList
    {r : Report}
    (hr : r.Fits)
    {c : Char}
    (hc : c ∈ r.toJson.write.toList) :
    32 ≤ c.toNat := by
  by_contra hLow
  have hAscii : c.toNat ≤ 0x7f := by omega
  have hByte : UInt8.ofNat c.toNat ∈ r.lineBytes := by
    rw [lineBytes, toUTF8_toList]
    exact List.mem_flatMap.mpr ⟨c, hc, by simp [utf8EncodeChar_ascii hAscii]⟩
  have hValue : (UInt8.ofNat c.toNat).toNat = c.toNat := by
    simp only [UInt8.toNat_ofNat']
    omega
  have hPrintable := UInt8.le_iff_toNat_le.mp (le_of_mem_lineBytes hr hByte)
  rw [hValue] at hPrintable
  exact hLow hPrintable

/- A report's line reads back as the report, strings character for
character, and it is one line: a line feed ends it, and no other line
feed or carriage return stands in it. -/
theorem line_reads_back
    {r : Report}
    (hr : r.Fits) :
    ofLine r.toLine = .ok r ∧
      ∃ body : List Char, r.toLine.toList = body ++ ['\n'] ∧ '\n' ∉ body ∧ '\r' ∉ body := by
  have hNewline : "\n" = String.singleton '\n' := rfl
  refine ⟨?_, r.toJson.write.toList, by simp [toLine], fun h => ?_, fun h => ?_⟩
  · rw [toLine, hNewline, ofLine_append_blank _ (by decide)]
    exact ofLine_write hr
  · exact absurd (le_of_mem_write_toList hr h) (by decide)
  · exact absurd (le_of_mem_write_toList hr h) (by decide)

/- The widest start a worker can report, under a hotkey that holds a
carriage return and a line feed. -/
theorem line_reads_back_widest_start :
    (Report.started 4294967295 "hot\r\n" 65535).Fits ∧
      (ofLine (Report.started 4294967295 "hot\r\n" 65535).toLine =
          .ok (.started 4294967295 "hot\r\n" 65535) ∧
        ∃ body : List Char, (Report.started 4294967295 "hot\r\n" 65535).toLine.toList =
          body ++ ['\n'] ∧ '\n' ∉ body ∧ '\r' ∉ body) :=
  (fun h => ⟨h, line_reads_back h⟩) (show 4294967295 < 4294967296 ∧ 65535 < 65536 by decide)

theorem lineBytes_getLast (r : Report) : r.lineBytes.getLast? = some 125 := by
  rw [lineBytes, toJson_eq, toUTF8_toList_obj]
  simp [List.getLast?_cons, List.getLast?_append]

theorem splitOn_written
    (rs : List Report)
    (hrs : ∀ r ∈ rs, r.Fits) :
    (written rs).splitOn 10 = rs.map lineBytes ++ [[]] := by
  induction rs with
  | nil => rfl
  | cons r rs ih =>
    rw [written, List.flatMap_cons, ← written, toLine_bytes, List.append_assoc,
      List.singleton_append,
      List.splitOn_append_cons_self_of_not_mem (lineBytes_no_lf (hrs r (by simp))),
      ih (fun r' hr' => hrs r' (by simp [hr']))]
    rfl

/- The lines of a worker's output are its reports' lines: each ends in
`}`, so no carriage return is taken off. -/
theorem outputLines_written
    (rs : List Report)
    (hrs : ∀ r ∈ rs, r.Fits) :
    outputLines (written rs) = rs.map lineBytes := by
  have hReturn : ∀ r : Report, dropReturn r.lineBytes = r.lineBytes := fun r => by
    rw [dropReturn, lineBytes_getLast]
    rfl
  simp [outputLines, splitOn_written rs hrs, hReturn]

------------------------------------------------------------
-- Lines of Text
------------------------------------------------------------

/- The text of a line of output, when its bytes are UTF-8. -/
def lineText (line : List UInt8) : Option String := String.fromUTF8? ⟨line.toArray⟩

/- The report a line of output holds: its text, read as a report. -/
def lineReport (line : List UInt8) : Option Report :=
  (lineText line).bind fun s => (ofLine s).toOption

/- Whether a line of output is UTF-8 text. -/
def IsText (line : List UInt8) : Bool := (lineText line).isSome

/- The reports the lines of some output hold before its first line that
is not text. -/
def textReports (bytes : List UInt8) : List Report :=
  ((outputLines bytes).takeWhile IsText).filterMap lineReport

/- Where reading some output to its end stops: at the end when it is
text throughout, else at its first line that is not. -/
def textStop (bytes : List UInt8) : Stop :=
  if (outputLines bytes).all IsText then .endOfOutput else .notText

theorem lineText_lineBytes (r : Report) : lineText r.lineBytes = some r.toJson.write := by
  rw [lineText, lineBytes, toUTF8_toList, fromUTF8?_flatMap, String.ofList_toList]

theorem lineReport_lineBytes
    {r : Report}
    (hr : r.Fits) :
    lineReport r.lineBytes = some r := by
  simp [lineReport, lineText_lineBytes, ofLine_write hr, Except.toOption]

theorem isText_flatMap (cs : List Char) : IsText (cs.flatMap String.utf8EncodeChar) = true := by
  simp [IsText, lineText, fromUTF8?_flatMap]

/- A byte below 128 in a character's encoding is the whole encoding:
the bytes of longer encodings are all 128 or more. -/
theorem utf8EncodeChar_of_mem_ascii
    {c : Char}
    {x : UInt8}
    (hx : x ∈ String.utf8EncodeChar c)
    (hx128 : x.toNat < 128) :
    String.utf8EncodeChar c = [x] ∧ c.toNat = x.toNat := by
  by_cases hc : c.toNat ≤ 0x7f
  · rw [utf8EncodeChar_ascii hc, List.mem_singleton] at hx
    subst hx
    refine ⟨utf8EncodeChar_ascii hc, ?_⟩
    simp only [UInt8.toNat_ofNat']
    omega
  · exact absurd (le_of_mem_utf8EncodeChar (by omega) hx) (by omega)

theorem splitOn_append_of_not_mem
    {α : Type}
    [BEq α]
    [LawfulBEq α]
    {a : α}
    {xs : List α}
    (h : a ∉ xs)
    (ys : List α) :
    (xs ++ ys).splitOn a = (ys.splitOn a).modifyHead (xs ++ ·) := by
  induction xs with
  | nil =>
    rw [List.nil_append]
    cases ys.splitOn a <;> simp
  | cons x xs ih =>
    have hx : (x == a) = false := by
      simp only [beq_eq_false_iff_ne]
      rintro rfl
      exact h List.mem_cons_self
    rw [List.cons_append, List.splitOn_cons_eq_if_modifyHead, hx, if_neg Bool.false_ne_true,
      ih (fun hm => h (List.mem_cons_of_mem _ hm)), List.modifyHead_modifyHead]
    rfl

/- Splitting the bytes of a text at line feeds splits its characters at
`'\n'`: the line feed is the only character whose bytes hold 10. -/
theorem splitOn_flatMap_utf8EncodeChar (cs : List Char) :
    (cs.flatMap String.utf8EncodeChar).splitOn 10 =
      (cs.splitOn '\n').map (·.flatMap String.utf8EncodeChar) := by
  induction cs with
  | nil => rfl
  | cons c cs ih =>
    rw [List.flatMap_cons, List.splitOn_cons_eq_if_modifyHead]
    by_cases hc : c = '\n'
    · subst hc
      rw [show String.utf8EncodeChar '\n' = [10] by rfl, List.singleton_append,
        List.splitOn_cons_eq_if_modifyHead, ih]
      simp
    · have hLf : (10 : UInt8) ∉ String.utf8EncodeChar c := fun hm =>
        hc (Char.ext (by
          have := (utf8EncodeChar_of_mem_ascii hm (by decide)).2
          simp only [Char.toNat] at this
          exact UInt32.toNat_inj.mp (by simpa using this)))
      rw [splitOn_append_of_not_mem hLf, ih, if_neg (by simpa using hc)]
      cases cs.splitOn '\n' <;> simp

/- A carriage return ending a line of text is a character of its own, so
taking it off leaves text. -/
theorem dropReturn_flatMap (cs : List Char) :
    ∃ ds : List Char, dropReturn (cs.flatMap String.utf8EncodeChar) =
      ds.flatMap String.utf8EncodeChar := by
  rcases List.eq_nil_or_concat cs with rfl | ⟨ds, c, rfl⟩
  · exact ⟨[], rfl⟩
  · rw [dropReturn, List.concat_eq_append, List.flatMap_append, List.flatMap_singleton]
    split_ifs with hCr
    · obtain ⟨z, hz⟩ := Option.ne_none_iff_exists'.mp
        (mt List.getLast?_eq_none_iff.mp (@String.utf8EncodeChar_ne_nil c))
      have hLast : (String.utf8EncodeChar c).getLast? = some 13 := by
        rw [List.getLast?_append, hz] at hCr
        rw [hz, ← hCr]
        rfl
      have hEnc := (utf8EncodeChar_of_mem_ascii (List.mem_of_getLast? hLast) (by decide)).1
      rw [hEnc, List.dropLast_concat]
      exact ⟨ds, rfl⟩
    · exact ⟨ds ++ [c], by simp⟩

theorem outputLines_text (s : String) :
    ∀ line ∈ outputLines s.toUTF8.toList, IsText line = true := by
  have hPieces : ∀ p ∈ s.toUTF8.toList.splitOn 10,
      ∃ cs : List Char, p = cs.flatMap String.utf8EncodeChar := by
    rw [toUTF8_toList, splitOn_flatMap_utf8EncodeChar]
    intro p hp
    obtain ⟨cs, -, rfl⟩ := List.mem_map.mp hp
    exact ⟨cs, rfl⟩
  intro line hLine
  rcases List.mem_append.mp hLine with hFirst | hLast
  · -- a line a line feed ends, its carriage return taken off
    obtain ⟨p, hp, rfl⟩ := List.mem_map.mp hFirst
    obtain ⟨cs, rfl⟩ := hPieces p (List.dropLast_subset _ hp)
    obtain ⟨ds, hds⟩ := dropReturn_flatMap cs
    rw [hds]
    exact isText_flatMap ds
  · -- the unterminated last line, if any
    split at hLast
    · simp at hLast
    · simp at hLast
    · next last _ hGet =>
      rw [List.mem_singleton.mp hLast]
      obtain ⟨cs, rfl⟩ := hPieces last (List.mem_of_getLast? hGet)
      exact isText_flatMap cs

------------------------------------------------------------
-- The Reader
------------------------------------------------------------

/- Without a bound on the receiver, the reader sends the reports of the
lines before the first one that is not text, and stops there or at the
end of the output. -/
theorem readLines_none (lines : List (List UInt8)) :
    readLines none lines =
      ((lines.takeWhile IsText).filterMap lineReport,
        if lines.all IsText then .endOfOutput else .notText) := by
  induction lines with
  | nil => rfl
  | cons line lines ih =>
    rw [readLines]
    cases hText : lineText line with
    | none =>
      simp [lineText] at hText
      simp [hText, IsText, lineText]
    | some text =>
      have hIs : IsText line = true := by simp [IsText, hText]
      have hFrom : String.fromUTF8? ⟨line.toArray⟩ = some text := hText
      rw [hFrom]
      cases hLine : ofLine text with
      | error e =>
        have hNone : lineReport line = none := by
          simp [lineReport, hText, hLine, Except.toOption]
        simp only [hLine, ih, List.takeWhile_cons, hIs, List.filterMap_cons, hNone,
          List.all_cons, Bool.true_and, if_true]
      | ok r =>
        have hSome : lineReport line = some r := by
          simp [lineReport, hText, hLine, Except.toOption]
        simp only [hLine, ih, List.takeWhile_cons, hIs, List.filterMap_cons, hSome,
          List.all_cons, Bool.true_and, if_true]

/- A receiver that takes `n` reports gets the first `n` of them; the
reader stops when the report after them finds it gone. -/
theorem readLines_some
    (n : Nat)
    (lines : List (List UInt8)) :
    readLines (some n) lines =
      if n < (readLines none lines).1.length then
        ((readLines none lines).1.take n, .receiverGone)
      else readLines none lines := by
  induction lines generalizing n with
  | nil => rfl
  | cons line lines ih =>
    rw [readLines, readLines]
    cases hText : String.fromUTF8? ⟨line.toArray⟩ with
    | none => simp
    | some text =>
      cases hLine : ofLine text with
      | error e =>
        simp only [hLine]
        exact ih n
      | ok r =>
        cases n with
        | zero => simp [hLine]
        | succ k =>
          simp only [hLine, ih k]
          by_cases hk : k < (readLines none lines).1.length <;> simp [hk]

/- The reports the reader sends, and how it stops, for any output and
any receiver: the reports of the lines before the first line that is not
text, cut short when the receiver takes fewer. -/
theorem readOutput_spec
    (takes : Option Nat)
    (bytes : List UInt8) :
    readOutput takes bytes =
      match takes with
      | some n =>
        if n < (textReports bytes).length then ((textReports bytes).take n, .receiverGone)
        else (textReports bytes, textStop bytes)
      | none => (textReports bytes, textStop bytes) := by
  cases takes with
  | none => exact readLines_none _
  | some n =>
    show readLines (some n) _ = _
    rw [readLines_some, readLines_none]
    rfl

/- Every line of a text's bytes is text, so none is cut off. -/
theorem textReports_of_text (s : String) :
    textReports s.toUTF8.toList = (outputLines s.toUTF8.toList).filterMap lineReport := by
  rw [textReports, List.takeWhile_eq_self_iff.mpr (outputLines_text s)]

theorem textStop_of_text (s : String) : textStop s.toUTF8.toList = .endOfOutput :=
  if_pos (List.all_eq_true.mpr (outputLines_text s))

/- On output that is text throughout, the reader sends the report of
every line that holds one, in order, skips the other lines, and stops
only at the end of the output or when the receiver is gone. -/
theorem readOutput_text
    (takes : Option Nat)
    (s : String) :
    let sent := (outputLines s.toUTF8.toList).filterMap lineReport
    readOutput takes s.toUTF8.toList =
      match takes with
      | some n => if n < sent.length then (sent.take n, .receiverGone) else (sent, .endOfOutput)
      | none => (sent, .endOfOutput) := by
  intro sent
  have hNone : readLines none (outputLines s.toUTF8.toList) = (sent, .endOfOutput) := by
    rw [readLines_none]
    exact Prod.ext (textReports_of_text s) (textStop_of_text s)
  cases takes with
  | none => exact hNone
  | some n =>
    show readLines (some n) _ = _
    rw [readLines_some, hNone]

theorem readLines_written
    (rs : List Report)
    (hrs : ∀ r ∈ rs, r.Fits) :
    readLines none (rs.map lineBytes) = (rs, .endOfOutput) := by
  induction rs with
  | nil => rfl
  | cons r rs ih =>
    have hText : String.fromUTF8? ⟨r.lineBytes.toArray⟩ = some r.toJson.write :=
      lineText_lineBytes r
    rw [List.map_cons, readLines, hText]
    simp only [ofLine_write (hrs r (by simp)), ih (fun r' hr' => hrs r' (by simp [hr']))]

/- The reader sends every report a worker writes, in order, and stops
at the end of the output. -/
theorem readOutput_written
    (rs : List Report)
    (hrs : ∀ r ∈ rs, r.Fits) :
    readOutput none (written rs) = (rs, .endOfOutput) := by
  rw [readOutput, outputLines_written rs hrs, readLines_written rs hrs]

/- One byte that is not UTF-8 text, on a line of its own, hides a fault
reported after it. -/
theorem readOutput_stops_at_binary_line :
    let fault := Report.fault "boom" "t"
    let bytes := [0xFF, 10] ++ written [fault]
    fault.lineBytes ∈ outputLines bytes ∧ lineReport fault.lineBytes = some fault ∧
      readOutput none bytes = ([], .notText) := by
  intro fault bytes
  have hFits : ∀ r ∈ [fault], r.Fits := by simp [fault, Fits]
  have hLines : outputLines bytes = [[0xFF], fault.lineBytes] := by
    have hSplit : bytes.splitOn 10 = [0xFF] :: (written [fault]).splitOn 10 :=
      List.splitOn_append_cons_self_of_not_mem (show (10 : UInt8) ∉ [0xFF] by decide) _
    simp [outputLines, hSplit, splitOn_written [fault] hFits, dropReturn, lineBytes_getLast]
  have hBinary : String.fromUTF8? ⟨#[0xFF]⟩ = none := by decide
  refine ⟨by simp [hLines], lineReport_lineBytes (by simp [fault, Fits]), ?_⟩
  rw [readOutput, hLines, readLines, hBinary]

end Report

------------------------------------------------------------
-- A Run Through the Slot
------------------------------------------------------------

/- A fresh slot sent a start and then a closing report, its main sender
let go, shows the start and the closing report. -/
theorem Slot.query_start_then
    (pid : Nat)
    (hotkey : String)
    (port : Nat)
    (closing : Report) :
    let slot := ([.started pid hotkey port, closing].foldl Slot.send Slot.new).close.query
    slot.started = true ∧ (closing = .completed → slot.completed = true ∧ slot.fault = none) ∧
      ∀ e t, closing = .fault e t → slot.fault = some (e, t) := by
  intro slot
  cases closing <;> simp [slot, Slot.send, Slot.new, Slot.close, Slot.query, Slot.query.read,
    Slot.record, Slot.sendersLeft]

/- What a worker writes for a run, read back by its supervisor into the
worker's slot: exactly the start with the worker's pid, hotkey and port,
then the closing report; a completed run exits with 0 and leaves no
fault, a failed or panicked one exits with 1 and leaves its error and
trace as they were, a panic the hook recorded nothing of with its
message alone on the trace's first line. -/
theorem runReported_reaches_slot
    (pid : Nat)
    (config : FleetConfig)
    (ending : Ending)
    (hPid : pid < 4294967296)
    (hPort : config.axon.port < 65536) :
    let (reports, code) := runReported pid config.wallet.hotkey config.axon.port ending
    let (sent, stop) := Report.readOutput none (Report.written reports)
    let slot := (sent.foldl Slot.send Slot.new).close.query
    sent = [.started pid config.wallet.hotkey config.axon.port, ending.report] ∧
      stop = .endOfOutput ∧ slot.started = true ∧
      (ending = .completed → code = 0 ∧ slot.completed = true ∧ slot.fault = none) ∧
      (∀ f, ending = .failed f → code = 1 ∧ slot.fault = some (f.message, f.trace)) ∧
      (∀ p loc bt, ending = .panicked p (some (loc, bt)) → code = 1 ∧
        slot.fault = some (p.message,
          p.message ++ "\npanicked at " ++ loc ++ "\n\nBacktrace:\n" ++ bt)) ∧
      (∀ p, ending = .panicked p none → code = 1 ∧ slot.fault = some (p.message, p.message ++ "\n")) := by
  have hFits : ∀ r ∈ [Report.started pid config.wallet.hotkey config.axon.port, ending.report],
      r.Fits := by
    intro r hr
    simp only [List.mem_cons, List.not_mem_nil, or_false] at hr
    rcases hr with rfl | rfl
    · exact ⟨hPid, hPort⟩
    · cases ending <;> trivial
  simp only [runReported, Report.readOutput_written _ hFits]
  obtain ⟨hStarted, hCompleted, hFault⟩ :=
    Slot.query_start_then pid config.wallet.hotkey config.axon.port ending.report
  refine ⟨trivial, trivial, hStarted, ?_, ?_, ?_, ?_⟩
  · rintro rfl
    exact ⟨rfl, hCompleted rfl⟩
  · rintro f rfl
    exact ⟨rfl, hFault _ _ rfl⟩
  · rintro p loc bt rfl
    refine ⟨rfl, (hFault _ _ rfl).trans ?_⟩
    simp only [panicDetails, String.append_assoc]
    rfl
  · rintro p rfl
    refine ⟨rfl, (hFault _ _ rfl).trans ?_⟩
    simp [panicDetails]

theorem runReported_default_completes :
    (runReported 4242 "default" 8091 .completed).2 = 0 ∧
      ((Report.readOutput none (Report.written (runReported 4242 "default" 8091 .completed).1)).1.foldl
        Slot.send Slot.new).close.query.completed = true := by
  obtain ⟨-, -, -, hCompleted, -, -, -⟩ :=
    runReported_reaches_slot 4242 ({} : FleetConfig) .completed (by decide) (by decide)
  exact ⟨(hCompleted rfl).1, (hCompleted rfl).2.1⟩

end NeuronFleet
