import NeuronFleet.Proofs.Json.ReadBack
import NeuronFleet.Report

/-
  A report line reads back as the report it was written from.

  A report is written as an object whose `type` member comes first and
  whose other members are strings and numbers.  Reading the line finds
  the kind in the first member, reads the others member by member, each
  after its comma, and checks them against the fields of the kind.  The
  strings come back character for character, whatever they hold; the
  numbers come back when they fit their fields, a process id of 32 bits
  and a port of 16.

  Main declarations:
    * `Report.kind`, `Report.fields`, `Report.Fits`
    * `Report.runs_taggedMembers`, `Report.runs_readTagged`
    * `Report.ofLine_write`
-/

namespace NeuronFleet

namespace Report

open Json Reader

------------------------------------------------------------
-- Reports as Objects
------------------------------------------------------------

/- The name of a report's kind, as its `type` member holds it. -/
def kind : Report → String
  | .started .. => "started"
  | .completed => "completed"
  | .fault .. => "fault"

/- The members of a report's object after its `type`. -/
def fields : Report → List (String × Json)
  | .started pid hotkey port => [("pid", .int pid), ("hotkey", .str hotkey), ("port", .int port)]
  | .completed => []
  | .fault error trace => [("error", .str error), ("trace", .str trace)]

/- A report whose numbers fit the fields they are read into: a process
id of 32 bits and a port of 16. -/
def Fits : Report → Prop
  | .started pid _ port => pid < 4294967296 ∧ port < 65536
  | _ => True

theorem toJson_eq (r : Report) : r.toJson = .obj (("type", .str r.kind) :: r.fields) := by
  cases r <;> rfl

theorem kind_mem_kinds (r : Report) : r.kind ∈ kinds := by
  cases r <;> simp [kind, kinds]

/- The members after the kind are scalars under other names. -/
theorem fields_scalar
    {r : Report}
    (hr : r.Fits) :
    ∀ m ∈ r.fields, m.1 ≠ "type" ∧ Scalar m.2 := by
  cases r with
  | started pid hotkey port =>
    obtain ⟨hPid, hPort⟩ := hr
    simp only [fields, List.mem_cons, List.not_mem_nil, or_false]
    rintro m (rfl | rfl | rfl)
    · exact ⟨by simp, .nat pid (by unfold u64Max; omega)⟩
    · exact ⟨by simp, .str hotkey⟩
    · exact ⟨by simp, .nat port (by unfold u64Max; omega)⟩
  | completed => simp [fields]
  | fault error trace =>
    simp only [fields, List.mem_cons, List.not_mem_nil, or_false]
    rintro m (rfl | rfl)
    · exact ⟨by simp, .str error⟩
    · exact ⟨by simp, .str trace⟩

/- The fields of a report pass the checks of its kind and give the
report back. -/
theorem ofBody_fields
    {r : Report}
    (hr : r.Fits) :
    ofBody r.kind (.members r.fields) = .ok r := by
  cases r with
  | started pid hotkey port =>
    obtain ⟨hPid, hPort⟩ := hr
    have hPid' : ¬(pid : Int) < 0 ∧ (pid : Int) ≤ 4294967295 := by omega
    have hPort' : ¬(port : Int) < 0 ∧ (port : Int) ≤ 65535 := by omega
    simp [ofBody, kind, fields, fieldsOf, takeFields, checkMember, Schema.u32, Schema.u16,
      ofFields, List.lookup_cons, List.lookup_nil, hPid', hPort']
    rfl
  | completed => rfl
  | fault error trace =>
    simp [ofBody, kind, fields, fieldsOf, takeFields, checkMember, ofFields, List.lookup_cons,
      List.lookup_nil]
    rfl

------------------------------------------------------------
-- Reading the Members
------------------------------------------------------------

section Members

variable {b : ByteArray} {i : Nat}

/- A member after a comma reads as its key, colon and value, and the
members after it stand where it ends. -/
theorem runs_member
    {k : String}
    {v : Json}
    {ms : List (String × Json)}
    (hScalar : Scalar v)
    (hAt : At b i (memberBytes ((k, v) :: ms) ++ [125])) :
    Runs (nextKey false) b i (some k) (i + 1 + (quote k).toUTF8.toList.length) ∧
      Runs colon b (i + 1 + (quote k).toUTF8.toList.length) ()
        (i + 1 + (quote k).toUTF8.toList.length + 1) ∧
      Runs (value (maxDepth - 1)) b (i + 1 + (quote k).toUTF8.toList.length + 1) v
        (i + 1 + (quote k).toUTF8.toList.length + 1 + (write v).toUTF8.toList.length) ∧
      At b (i + 1 + (quote k).toUTF8.toList.length + 1 + (write v).toUTF8.toList.length)
        (memberBytes ms ++ [125]) := by
  obtain ⟨t, rest, hRest, ht⟩ := memberBytes_terminator ms
  have hSplit : memberBytes ((k, v) :: ms) ++ [125] =
      (44 :: (quote k).toUTF8.toList) ++ [58] ++ (write v).toUTF8.toList ++
        (memberBytes ms ++ [125]) := by
    rw [memberBytes_cons]
    simp
  rw [hSplit, at_append, at_append, at_append] at hAt
  obtain ⟨⟨⟨hKeyAt, hColonAt⟩, hValueAt⟩, hTailAt⟩ := hAt
  simp only [List.length_append, List.length_cons, List.length_nil] at hColonAt hValueAt hTailAt
  have hColon : b[i + 1 + (quote k).toUTF8.toList.length]? = some 58 := by
    simpa [Nat.add_assoc, Nat.add_comm 1] using hColonAt 0 (by simp)
  -- the value ends where the comma or brace after it stands
  have hValue : At b (i + 1 + (quote k).toUTF8.toList.length + 1)
      ((write v).toUTF8.toList ++ [t]) := by
    rw [hRest] at hTailAt
    refine at_append.mpr ⟨by simpa [Nat.add_assoc, Nat.add_comm 1] using hValueAt, ?_⟩
    refine at_cons.mpr ⟨?_, at_nil⟩
    simpa [Nat.add_assoc, Nat.add_comm 1] using (at_cons.mp hTailAt).1
  refine ⟨runs_nextKey_next k hKeyAt, runs_colon hColon, runs_value_scalar 126 hScalar hValue ht,
    ?_⟩
  simpa [Nat.add_assoc, Nat.add_comm 1] using hTailAt

/- The members after the first, read one a round up to the closing
brace: they are gathered in order, and the kind stays as it was. -/
theorem runs_taggedMembers
    {kind : Option String}
    {acc : Array (String × Json)}
    {fuel : Nat}
    (ms : List (String × Json))
    (hms : ∀ m ∈ ms, m.1 ≠ "type" ∧ Scalar m.2)
    (hAt : At b i (memberBytes ms ++ [125]))
    (hFuel : ms.length < fuel) :
    Runs (taggedMembers kind acc false fuel) b i (kind, acc ++ ms.toArray)
      (i + (memberBytes ms).length) := by
  induction ms generalizing acc i fuel with
  | nil =>
    obtain ⟨f, rfl⟩ : ∃ f, fuel = f + 1 := ⟨fuel - 1, by simp at hFuel; omega⟩
    have hClose : b[i]? = some 125 := by simpa [memberBytes] using hAt 0 (by simp)
    rw [taggedMembers]
    simpa [memberBytes] using Runs.bind (runs_nextKey_close false hClose) (Runs.pure (kind, acc))
  | cons m ms ih =>
    obtain ⟨k, v⟩ := m
    obtain ⟨hKey, hScalar⟩ := hms (k, v) (by simp)
    obtain ⟨f, rfl⟩ : ∃ f, fuel = f + 1 := ⟨fuel - 1, by simp at hFuel; omega⟩
    obtain ⟨hKeyRun, hColonRun, hValueRun, hTail⟩ := runs_member hScalar hAt
    have hEnd : i + (memberBytes ((k, v) :: ms)).length =
        i + 1 + (quote k).toUTF8.toList.length + 1 + (write v).toUTF8.toList.length +
          (memberBytes ms).length := by
      simp only [memberBytes_cons, List.length_append, List.length_cons]
      omega
    rw [taggedMembers, hEnd]
    refine Runs.bind hKeyRun ?_
    simp only [beq_iff_eq, hKey, if_false]
    refine Runs.bind hColonRun (Runs.bind hValueRun ?_)
    simpa using @ih _ (acc.push (k, v)) _ (fun m hm => hms m (by simp [hm])) hTail
      (by simp at hFuel; omega)

theorem runs_readKind
    {k : String}
    (hk : k ∈ kinds)
    (hAt : At b i (quote k).toUTF8.toList) :
    Runs readKind b i k (i + (quote k).toUTF8.toList.length) := by
  obtain ⟨hQuote, hRest, hEnd⟩ := at_quote hAt
  rw [hEnd]
  unfold readKind
  refine Runs.positioned (Runs.bind (runs_peekPastBlanks_some hQuote rfl) ?_)
  refine Runs.bind runs_eat (Runs.bind (runs_string k hRest) ?_)
  simp only [List.contains_iff_mem.mpr hk, if_true]
  exact Runs.pure _

/- The first member names the kind; the others follow it. -/
theorem runs_taggedMembers_first
    {k : String}
    {fuel : Nat}
    (hk : k ∈ kinds)
    (ms : List (String × Json))
    (hms : ∀ m ∈ ms, m.1 ≠ "type" ∧ Scalar m.2)
    (hAt : At b i ((quote "type").toUTF8.toList ++ [58] ++ (quote k).toUTF8.toList ++
      (memberBytes ms ++ [125])))
    (hFuel : ms.length + 1 < fuel) :
    Runs (taggedMembers none #[] true fuel) b i (some k, ms.toArray)
      (i + (quote "type").toUTF8.toList.length + 1 + (quote k).toUTF8.toList.length +
        (memberBytes ms).length) := by
  obtain ⟨f, rfl⟩ : ∃ f, fuel = f + 1 := ⟨fuel - 1, by omega⟩
  rw [at_append, at_append, at_append] at hAt
  obtain ⟨⟨⟨hType, hColonAt⟩, hKindAt⟩, hTail⟩ := hAt
  simp only [List.length_append, List.length_singleton] at hKindAt hTail
  have hColon : b[i + (quote "type").toUTF8.toList.length]? = some 58 := by
    simpa using hColonAt 0 (by simp)
  rw [taggedMembers]
  refine Runs.bind (runs_nextKey_first "type" hType) ?_
  simp only [beq_self_eq_true, if_true, Option.isSome_none, Bool.false_eq_true, if_false]
  refine Runs.bind (runs_colon hColon) (Runs.bind (runs_readKind hk hKindAt) ?_)
  have hRest : Runs (taggedMembers (some k) #[] false f) b _ (some k, #[] ++ ms.toArray) _ :=
    runs_taggedMembers ms hms hTail (by omega)
  simpa [Nat.add_assoc] using hRest

end Members

/- A report's object, read whole: its kind and its other members. -/
theorem runs_readTagged
    {k : String}
    (hk : k ∈ kinds)
    (ms : List (String × Json))
    (hms : ∀ m ∈ ms, m.1 ≠ "type" ∧ Scalar m.2) :
    Runs readTagged (write (.obj (("type", .str k) :: ms))).toUTF8 0 (k, .members ms)
      (write (.obj (("type", .str k) :: ms))).toUTF8.size := by
  have hAt := at_toList (write (.obj (("type", .str k) :: ms))).toUTF8
  have hSize := size_eq_length_toList (write (.obj (("type", .str k) :: ms))).toUTF8
  have hWrite : write (.str k) = quote k := rfl
  rw [toUTF8_toList_obj] at hAt hSize
  generalize (write (.obj (("type", .str k) :: ms))).toUTF8 = b at hAt hSize ⊢
  simp only [hWrite, List.length_cons, List.length_append, List.length_nil] at hAt hSize
  obtain ⟨hBrace, hMembers⟩ := at_cons.mp hAt
  simp only [Nat.zero_add] at hMembers
  have hClose : b[1 + (quote "type").toUTF8.toList.length + 1 + (quote k).toUTF8.toList.length +
      (memberBytes ms).length]? = some 125 := by
    have hLast := (at_append.mp ((at_append.mp hMembers).2)).2 0 (by simp)
    simp only [List.length_append, List.length_cons, List.length_nil, List.getElem_cons_zero,
      Nat.add_zero] at hLast
    rw [← hLast, Nat.add_assoc 1, Nat.add_assoc 1, Nat.add_assoc 1]
  have hFuel := length_le_memberBytes ms
  unfold readTagged
  refine Runs.positioned (Runs.bind (runs_peekPastBlanks_some hBrace rfl) ?_)
  refine Runs.bind (runs_enter (by decide)) (Runs.bind runs_read ?_)
  refine Runs.bind (runs_taggedMembers_first hk ms hms hMembers (by omega)) ?_
  refine Runs.bind (runs_closeObject hClose) ?_
  have hEnd : 0 + 1 + (quote "type").toUTF8.toList.length + 1 + (quote k).toUTF8.toList.length +
      (memberBytes ms).length + 1 = b.size := by
    omega
  rw [hEnd]
  simpa using Runs.pure (b := b) (i := b.size) (k, Body.members ms)

------------------------------------------------------------
-- Reading a Line
------------------------------------------------------------

/- Trimming leaves a text between braces as it is. -/
theorem trim_braces (s : String) :
    Text.trim ("\x7b" ++ s ++ "\x7d") = "\x7b" ++ s ++ "\x7d" := by
  have hOpen : Text.isBlank '\x7b' = false := by decide
  have hClose : Text.isBlank '\x7d' = false := by decide
  unfold Text.trim
  simp [List.dropWhile_cons_of_neg, hOpen, hClose, String.append_assoc]

/- A blank at the end is trimmed away with the others. -/
theorem trim_append_blank
    (s : String)
    {c : Char}
    (hc : Text.isBlank c = true) :
    Text.trim (s ++ String.singleton c) = Text.trim s := by
  unfold Text.trim
  rw [String.toList_append, String.toList_singleton, List.dropWhile_append]
  by_cases hBlank : (s.toList.dropWhile Text.isBlank).isEmpty = true
  · -- all blank: nothing is left either way
    rw [if_pos hBlank, List.isEmpty_iff.mp hBlank]
    simp [hc]
  · rw [if_neg hBlank, List.reverse_append]
    simp [hc]

/- A line reads as its text without the blank that ends it. -/
theorem ofLine_append_blank
    (line : String)
    {c : Char}
    (hc : Text.isBlank c = true) :
    ofLine (line ++ String.singleton c) = ofLine line := by
  unfold ofLine
  rw [trim_append_blank line hc]

/- Every report reads back from its line, strings character for
character, when its numbers fit their fields. -/
theorem ofLine_write
    {r : Report}
    (hr : r.Fits) :
    ofLine r.toJson.write = .ok r := by
  have hRead := readWith_of_runs (runs_readTagged (kind_mem_kinds r) r.fields (fields_scalar hr))
  have hTrim : Text.trim r.toJson.write = r.toJson.write := by
    rw [toJson_eq, write]
    exact trim_braces _
  unfold ofLine
  rw [hTrim, toJson_eq, hRead]
  simp only [bind, Except.bind]
  rw [ofBody_fields hr]
  rfl

end Report

end NeuronFleet
