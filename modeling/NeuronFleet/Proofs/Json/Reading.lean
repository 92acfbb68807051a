import NeuronFleet.Json.Read

/-
  Running the JSON reader on known bytes.

  A reading step runs on the whole text from an index, and gives a
  result and the index where it stopped, or fails.  `Runs x b i a j`
  says that `x`, run on the bytes `b` from `i`, gives `a` and stops at
  `j`; it composes along `bind`, and each primitive of the reader has
  its rule.  `At b i bs` says that the bytes `bs` stand in `b` from
  index `i`.

  Main declarations:
    * `Json.Reader.outcome`, `Json.Reader.Runs`, `Json.Reader.At`
    * `Json.Reader.runs_peekPastBlanks`
-/

namespace NeuronFleet

namespace Json

namespace Reader

------------------------------------------------------------
-- Running Steps
------------------------------------------------------------

/- What a step does on the bytes `b` from index `i`: its result and the
index where it stops. -/
def outcome
    (x : Reader α)
    (b : ByteArray)
    (i : Nat) :
    Except ReadError α × Nat :=
  ((x.run b).run).run i

/- `x`, run on the bytes `b` from index `i`, gives `a` and stops at `j`. -/
def Runs
    (x : Reader α)
    (b : ByteArray)
    (i : Nat)
    (a : α)
    (j : Nat) :
    Prop :=
  outcome x b i = (.ok a, j)

theorem outcome_bind
    (x : Reader α)
    (f : α → Reader β)
    (b : ByteArray)
    (i : Nat) :
    outcome (x >>= f) b i =
      match outcome x b i with
      | (.ok a, j) => outcome (f a) b j
      | (.error e, j) => (.error e, j) := by
  simp only [outcome, ReaderT.run_bind, ExceptT.run_bind, StateT.run_bind]
  rcases ((x.run b).run.run i) with ⟨_ | a, j⟩ <;> rfl

theorem outcome_tryCatch
    (x : Reader α)
    (h : ReadError → Reader α)
    (b : ByteArray)
    (i : Nat) :
    outcome (tryCatch x h) b i =
      match outcome x b i with
      | (.ok a, j) => (.ok a, j)
      | (.error e, j) => outcome (h e) b j := by
  simp only [outcome]
  show (ExceptT.tryCatch (x b) (fun e => h e b)).run.run i = _
  simp only [ExceptT.tryCatch, ExceptT.run, ExceptT.mk, StateT.run, bind, StateT.bind, ReaderT.run]
  rcases x b i with ⟨_ | a, j⟩ <;> rfl

section Rules

variable {b : ByteArray} {i j k : Nat}

theorem Runs.bind
    {x : Reader α}
    {f : α → Reader β}
    {a : α}
    {c : β}
    (hx : Runs x b i a j)
    (hf : Runs (f a) b j c k) :
    Runs (x >>= f) b i c k := by
  unfold Runs at *
  rw [outcome_bind, hx]
  exact hf

theorem Runs.pure (a : α) : Runs (Pure.pure a : Reader α) b i a i := rfl

theorem runs_read : Runs (read : Reader ByteArray) b i b i := rfl

theorem runs_peek : Runs peek b i b[i]? i := rfl

theorem runs_eat : Runs eat b i () (i + 1) := rfl

theorem runs_next
    {c : UInt8}
    (h : b[i]? = some c) :
    Runs next b i (some c) (i + 1) := by
  unfold next
  refine Runs.bind runs_peek ?_
  rw [h]
  exact Runs.bind runs_eat (Runs.pure _)

theorem Runs.tryCatch
    {x : Reader α}
    {a : α}
    (h : Runs x b i a j)
    (handler : ReadError → Reader α) :
    Runs (tryCatch x handler) b i a j := by
  unfold Runs at *
  rw [outcome_tryCatch, h]

/- A step that succeeds needs no position for an error. -/
theorem Runs.positioned
    {x : Reader α}
    {a : α}
    (h : Runs x b i a j) :
    Runs (Reader.positioned x) b i a j :=
  h.tryCatch _

theorem runs_get : Runs (get : Reader Nat) b i i i := rfl

theorem runs_set (j : Nat) : Runs (set j : Reader PUnit) b i () j := rfl

end Rules

------------------------------------------------------------
-- Bytes at an Index
------------------------------------------------------------

/- The bytes `bs` stand in `b` from index `i`. -/
def At
    (b : ByteArray)
    (i : Nat)
    (bs : List UInt8) :
    Prop :=
  ∀ k (hk : k < bs.length), b[i + k]? = some bs[k]

section Bytes

variable {b : ByteArray} {i : Nat}

theorem at_nil : At b i [] := fun _ hk => absurd hk (Nat.not_lt_zero _)

theorem at_cons
    {c : UInt8}
    {cs : List UInt8} :
    At b i (c :: cs) ↔ b[i]? = some c ∧ At b (i + 1) cs := by
  constructor
  · intro h
    have hHead := h 0 (by simp)
    refine ⟨by simpa only [Nat.add_zero, List.getElem_cons_zero] using hHead, fun k hk => ?_⟩
    have hAt := h (k + 1) (by simp [hk])
    rwa [← Nat.add_assoc, Nat.add_right_comm] at hAt
  · rintro ⟨hHead, hRest⟩ k hk
    cases k with
    | zero => simpa using hHead
    | succ k =>
      have hAt := hRest k (by simpa using hk)
      rwa [← Nat.add_assoc, Nat.add_right_comm]

theorem at_append {xs ys : List UInt8} :
    At b i (xs ++ ys) ↔ At b i xs ∧ At b (i + xs.length) ys := by
  induction xs generalizing i with
  | nil => simp [at_nil]
  | cons x xs ih =>
    rw [List.cons_append, at_cons, at_cons, ih, List.length_cons, ← Nat.add_assoc,
      Nat.add_right_comm, and_assoc]

theorem lt_size_of_getElem?
    {c : UInt8}
    (h : b[i]? = some c) :
    i < b.size := by
  by_cases hLt : i < b.size
  · exact hLt
  · rw [getElem?_neg b i hLt] at h
    cases h

/- A byte standing in the text is before its end. -/
theorem lt_size_of_at
    {bs : List UInt8}
    {c : UInt8}
    (h : At b i (bs ++ [c])) :
    i + bs.length < b.size :=
  lt_size_of_getElem? (at_cons.mp (at_append.mp h).2).1

end Bytes

------------------------------------------------------------
-- Blanks
------------------------------------------------------------

section Blanks

variable {b : ByteArray} {i : Nat}

/- Nothing is skipped before a byte that is not blank, or at the end. -/
theorem skipBlanks_of_not_blank
    {c : Option UInt8}
    (h : b[i]? = c)
    (hc : ∀ d ∈ c, isBlank d = false) :
    skipBlanks b i = i := by
  rw [skipBlanks]
  split
  case isTrue hLt =>
    have hByte : b[i]? = some b[i] := by simp [hLt]
    rw [hByte] at h
    subst h
    simp [hc b[i] rfl]
  case isFalse => rfl

theorem runs_peekPastBlanks
    {c : Option UInt8}
    (h : b[i]? = c)
    (hc : ∀ d ∈ c, isBlank d = false) :
    Runs peekPastBlanks b i c i := by
  unfold peekPastBlanks
  refine Runs.bind runs_read (Runs.bind runs_get ?_)
  rw [skipBlanks_of_not_blank h hc]
  exact Runs.bind (runs_set i) (h ▸ runs_peek)

theorem runs_peekPastBlanks_some
    {x : UInt8}
    (h : b[i]? = some x)
    (hx : isBlank x = false) :
    Runs peekPastBlanks b i (some x) i :=
  runs_peekPastBlanks h (fun _ hd => Option.mem_some_iff.mp hd ▸ hx)

end Blanks


end Reader

end Json

end NeuronFleet
