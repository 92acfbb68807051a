import NeuronFleet.Proofs.Metagraph.Mirror
import NeuronFleet.Metagraph.Flock

/-
  Writers of one document, their update cycles interleaved.

  The lock file never moves once it is made, as long as it is a file
  of its own: no temporary file is renamed over it.  Every writer that
  opens it then opens the same inode, and the lock on that inode lets
  one writer at a time between taking it and renaming.  So the writer
  that reads the document reads what the last update wrote, and the
  document only changes when that writer renames its temporary file
  over it.  Over every schedule of the writers' steps, the updates that
  take effect therefore do so one at a time, each on the state the one
  before it left: the document is missing until the first of them, and
  afterwards it is always the empty state with their changes replayed
  in order, every read finding that whole.  No change is made twice,
  and each writer's changes take effect in its own order.

  Main declarations:
    * `Commit.Chained`, `Writers.Reach`, `Writers.Inv`
    * `Writers.Inv.step`, `Writers.Reach.inv`
    * `document_replays_updates`
-/

namespace NeuronFleet

open SharedState (Change)

------------------------------------------------------------
-- Files and Locks, Step by Step
------------------------------------------------------------

namespace Volume

variable {δ : Type} {v : Volume δ}

@[simp]
theorem entry_create
    (path x : String)
    (c : δ) :
    (v.create path c).entry x = if x = path then some v.next else v.entry x :=
  Function.update_apply _ _ _ _

@[simp]
theorem content_create
    (path : String)
    (c : δ)
    (i : Nat) :
    (v.create path c).content i = if i = v.next then c else v.content i :=
  Function.update_apply _ _ _ _

@[simp]
theorem next_create
    (path : String)
    (c : δ) :
    (v.create path c).next = v.next + 1 :=
  rfl

@[simp]
theorem holder_create
    (path : String)
    (c : δ) :
    (v.create path c).holder = v.holder :=
  rfl

theorem openFile_of_some
    [StateCodec δ]
    {path : String}
    {i : Nat}
    (h : v.entry path = some i) :
    v.openFile path = (v, i) := by
  simp [openFile, h]

theorem openFile_of_none
    [StateCodec δ]
    {path : String}
    (h : v.entry path = none) :
    v.openFile path = (v.create path StateCodec.blank, v.next) := by
  simp [openFile, h]

theorem writeFile_of_none
    {path : String}
    {c : δ}
    (h : v.entry path = none) :
    v.writeFile path c = v.create path c := by
  simp [writeFile, h]

/- Renaming a file that exists onto another path moves only the two entries. -/
theorem rename_of_some
    {src dst : String}
    {i : Nat}
    (hNe : src ≠ dst)
    (h : v.entry src = some i) :
    v.rename src dst =
      { v with entry := Function.update (Function.update v.entry dst (some i)) src none } := by
  simp [rename, hNe, h]

/-
  Opening a file to write: the path names the inode opened, an existing
  file being opened as it is; no other entry moves, no document below
  the next inode changes, and no lock.
-/
theorem openFile_spec
    [StateCodec δ]
    (path : String)
    (hFresh : ∀ x i, v.entry x = some i → i < v.next) :
    (v.openFile path).1.entry path = some (v.openFile path).2 ∧
      (∀ x, x ≠ path → (v.openFile path).1.entry x = v.entry x) ∧
      (∀ j, j < v.next → (v.openFile path).1.content j = v.content j) ∧
      (v.openFile path).1.holder = v.holder ∧
      (∀ x i, (v.openFile path).1.entry x = some i → i < (v.openFile path).1.next) ∧
      (∀ i, v.entry path = some i → (v.openFile path).2 = i) := by
  cases hEntry : v.entry path with
  | some i =>
      rw [openFile_of_some hEntry]
      exact ⟨hEntry, fun _ _ => rfl, fun _ _ => rfl, rfl, hFresh, fun _ hi => Option.some.inj hi⟩
  | none =>
      rw [openFile_of_none hEntry]
      refine ⟨by simp, fun x hx => by simp [hx], fun j hj => by simp [Nat.ne_of_lt hj], rfl, ?_,
        fun _ hi => by cases hi⟩
      -- the new file takes the next inode, and every other file is below it
      intro x i hx
      simp only [entry_create, next_create] at hx ⊢
      split at hx
      · cases hx
        omega
      · have := hFresh x i hx
        omega

theorem readState_of_none
    [StateCodec δ]
    {path : String}
    (h : v.entry path = none) :
    v.readState path = .ok SharedState.empty := by
  simp [readState, h]

theorem readState_of_some
    [StateCodec δ]
    {path : String}
    {i : Nat}
    (h : v.entry path = some i) :
    v.readState path = StateCodec.decode (v.content i) := by
  simp [readState, h]

@[simp]
theorem holder_lockBy
    (i pid j : Nat) :
    (v.lockBy i pid).holder j = if j = i then some pid else v.holder j :=
  Function.update_apply _ _ _ _

@[simp]
theorem holder_unlock
    (i j : Nat) :
    (v.unlock i).holder j = if j = i then none else v.holder j :=
  Function.update_apply _ _ _ _

@[simp]
theorem entry_lockBy
    (i pid : Nat) :
    (v.lockBy i pid).entry = v.entry :=
  rfl

@[simp]
theorem content_lockBy
    (i pid : Nat) :
    (v.lockBy i pid).content = v.content :=
  rfl

@[simp]
theorem next_lockBy
    (i pid : Nat) :
    (v.lockBy i pid).next = v.next :=
  rfl

@[simp]
theorem entry_unlock
    (i : Nat) :
    (v.unlock i).entry = v.entry :=
  rfl

@[simp]
theorem content_unlock
    (i : Nat) :
    (v.unlock i).content = v.content :=
  rfl

@[simp]
theorem next_unlock
    (i : Nat) :
    (v.unlock i).next = v.next :=
  rfl

end Volume

------------------------------------------------------------
-- Where Writers Are
------------------------------------------------------------

namespace Stage

/- The inode of the lock file a writer opened for its current change. -/
def lockInode : Stage → Option Nat
  | .idle => none
  | .opened _ i => some i
  | .locked _ i => some i
  | .changed _ i _ _ => some i
  | .staged _ i _ _ => some i

/- The inode whose lock a writer holds. -/
def held : Stage → Option Nat
  | .locked _ i => some i
  | .changed _ i _ _ => some i
  | .staged _ i _ _ => some i
  | _ => none

/- The change a writer is making. -/
def change? : Stage → Option Change
  | .idle => none
  | .opened c _ => some c
  | .locked c _ => some c
  | .changed c _ _ _ => some c
  | .staged c _ _ _ => some c

theorem lockInode_of_held
    {st : Stage}
    {i : Nat}
    (h : st.held = some i) :
    st.lockInode = some i := by
  cases st <;> simp_all [held, lockInode]

end Stage

/- The changes a writer has not finished: the one it is making, then those still to make. -/
def Writer.pending
    (w : Writer) : List Change :=
  w.stage.change?.toList ++ w.todo

namespace Writers

variable {δ : Type}

@[simp]
theorem volume_put
    (sys : Writers δ)
    (v : Volume δ)
    (pid : Nat)
    (w : Writer) :
    (sys.put v pid w).volume = v :=
  rfl

@[simp]
theorem writer_put
    (sys : Writers δ)
    (v : Volume δ)
    (pid q : Nat)
    (w : Writer) :
    (sys.put v pid w).writer q = if q = pid then w else sys.writer q :=
  Function.update_apply _ _ _ _

theorem writer_put_self
    (sys : Writers δ)
    (v : Volume δ)
    (pid : Nat)
    (w : Writer) :
    (sys.put v pid w).writer pid = w :=
  Function.update_self _ _ _

theorem writer_put_of_ne
    (sys : Writers δ)
    (v : Volume δ)
    {pid q : Nat}
    (w : Writer)
    (hq : q ≠ pid) :
    (sys.put v pid w).writer q = sys.writer q :=
  Function.update_of_ne hq _ _

/- A writer at a stage the new writer is not at is another writer, at that stage before. -/
theorem stage_of_put
    {sys : Writers δ}
    {v : Volume δ}
    {pid q : Nat}
    {w : Writer}
    {st : Stage}
    (hq : ((sys.put v pid w).writer q).stage = st)
    (hNew : w.stage ≠ st) :
    q ≠ pid ∧ (sys.writer q).stage = st := by
  by_cases hqp : q = pid
  · subst hqp
    rw [writer_put_self] at hq
    exact absurd hq hNew
  · rw [writer_put_of_ne _ _ _ hqp] at hq
    exact ⟨hqp, hq⟩

variable [StateCodec δ] {P : UpdatePaths} {sys : Writers δ} {pid : Nat}

------------------------------------------------------------
-- One Step of a Writer
------------------------------------------------------------

theorem advance_idle_nil
    (hStage : (sys.writer pid).stage = .idle)
    (hTodo : (sys.writer pid).todo = []) :
    sys.advance P pid = (sys, none) := by
  simp [advance, hStage, hTodo]

theorem advance_idle_cons
    {c : Change}
    {rest : List Change}
    (hStage : (sys.writer pid).stage = .idle)
    (hTodo : (sys.writer pid).todo = c :: rest) :
    sys.advance P pid =
      (sys.put (sys.volume.openFile P.lock).1 pid ⟨.opened c (sys.volume.openFile P.lock).2, rest⟩,
        none) := by
  simp [advance, hStage, hTodo]

theorem advance_opened_free
    {c : Change}
    {i : Nat}
    (hStage : (sys.writer pid).stage = .opened c i)
    (hFree : sys.volume.holder i = none) :
    sys.advance P pid =
      (sys.put (sys.volume.lockBy i pid) pid { sys.writer pid with stage := .locked c i }, none) := by
  simp [advance, hStage, hFree]

theorem advance_opened_held
    {c : Change}
    {i q : Nat}
    (hStage : (sys.writer pid).stage = .opened c i)
    (hHeld : sys.volume.holder i = some q) :
    sys.advance P pid = (sys, none) := by
  simp [advance, hStage, hHeld]

theorem advance_locked_ok
    {c : Change}
    {i : Nat}
    {s s' : SharedState}
    (hStage : (sys.writer pid).stage = .locked c i)
    (hRead : sys.volume.readState P.doc = .ok s)
    (hRun : c.run s = .ok s') :
    sys.advance P pid =
      (sys.put sys.volume pid { sys.writer pid with stage := .changed c i s s' }, none) := by
  simp [advance, hStage, hRead, hRun, bind, Except.bind, Except.map]

/- A document that does not read, or a change refused, ends the update and releases the lock. -/
theorem advance_locked_error
    {c : Change}
    {i : Nat}
    {e : Error}
    (hStage : (sys.writer pid).stage = .locked c i)
    (hFail : (sys.volume.readState P.doc >>= fun s => (c.run s).map fun s' => (s, s')) = .error e) :
    sys.advance P pid =
      (sys.put (sys.volume.unlock i) pid { sys.writer pid with stage := .idle }, none) := by
  simp only [advance, hStage, hFail]

theorem advance_changed
    {c : Change}
    {i : Nat}
    {s s' : SharedState}
    (hStage : (sys.writer pid).stage = .changed c i s s') :
    sys.advance P pid =
      (sys.put (sys.volume.writeFile (P.temp pid) (StateCodec.encode s')) pid
        { sys.writer pid with stage := .staged c i s s' }, none) := by
  simp [advance, hStage]

theorem advance_staged
    {c : Change}
    {i : Nat}
    {s s' : SharedState}
    (hStage : (sys.writer pid).stage = .staged c i s s') :
    sys.advance P pid =
      (sys.put ((sys.volume.rename (P.temp pid) P.doc).unlock i) pid
        { sys.writer pid with stage := .idle }, some ⟨pid, c, s, s'⟩) := by
  simp [advance, hStage]

end Writers

------------------------------------------------------------
-- Updates Taking Effect One at a Time
------------------------------------------------------------

namespace Commit

/- The state the updates of a log leave, made one at a time from the empty state. -/
def stateAfter
    (log : List Commit) : SharedState :=
  SharedState.empty.replay (log.map (·.change))

/- The changes of writer `pid` that took effect, in order. -/
def committedBy
    (log : List Commit)
    (pid : Nat) :
    List Change :=
  (log.filter (·.pid == pid)).map (·.change)

/- Each update read the state the ones before it left, from `s` on, and wrote its change of it. -/
def Chained : SharedState → List Commit → Prop
  | _, [] => True
  | s, c :: rest => c.read = s ∧ c.change.run s = .ok c.written ∧ Chained c.written rest

theorem stateAfter_append_single
    (log : List Commit)
    (c : Commit) :
    stateAfter (log ++ [c]) = c.change.apply (stateAfter log) := by
  simp [stateAfter, SharedState.replay_append]

theorem committedBy_append_self
    (log : List Commit)
    (c : Commit) :
    committedBy (log ++ [c]) c.pid = committedBy log c.pid ++ [c.change] := by
  simp [committedBy]

theorem committedBy_append_of_ne
    (log : List Commit)
    {c : Commit}
    {q : Nat}
    (hq : c.pid ≠ q) :
    committedBy (log ++ [c]) q = committedBy log q := by
  simp [committedBy, hq]

end Commit

/- A change the store writes is the change made in memory. -/
theorem SharedState.Change.apply_of_run
    {c : Change}
    {s s' : SharedState}
    (hRun : c.run s = .ok s') :
    c.apply s = s' := by
  cases c with
  | register hotkey =>
      cases hRun
      rfl
  | applyRow hotkey row =>
      cases hApply : s.applyRow hotkey row with
      | error e => simp [Change.run, hApply, Except.map] at hRun
      | ok p =>
          simp only [Change.run, hApply, Except.map, Except.ok.injEq] at hRun
          simp [SharedState.Change.apply, hApply, hRun]

namespace Commit

/- A log stays chained when the next update read the state it left and wrote its change of it. -/
theorem Chained.append_single
    {s : SharedState}
    {log : List Commit}
    {c : Commit}
    (hLog : Chained s log)
    (hRead : c.read = s.replay (log.map (·.change)))
    (hRun : c.change.run c.read = .ok c.written) :
    Chained s (log ++ [c]) := by
  induction log generalizing s with
  | nil =>
      rw [hRead] at hRun
      exact ⟨hRead, hRun, trivial⟩
  | cons d rest ih =>
      obtain ⟨hReadD, hRunD, hRest⟩ := hLog
      refine ⟨hReadD, hRunD, ih hRest ?_⟩
      rw [hRead, List.map_cons, SharedState.replay_cons, SharedState.Change.apply_of_run hRunD]

end Commit

------------------------------------------------------------
-- Finite Changes
------------------------------------------------------------

/- A change whose row, if it has one, is finite. -/
def SharedState.Change.RowFinite : Change → Prop
  | .register _ => True
  | .applyRow _ row => ∀ x ∈ row, x.isFinite = true

theorem SharedState.Change.apply_finite
    {s : SharedState}
    {c : Change}
    (hs : s.Finite)
    (hc : c.RowFinite) :
    (c.apply s).Finite := by
  cases c with
  | register hotkey => exact SharedState.register_finite hs hotkey
  | applyRow hotkey row =>
      cases hApply : s.applyRow hotkey row with
      | error e => simpa [SharedState.Change.apply, hApply] using hs
      | ok p =>
          simp only [SharedState.Change.apply, hApply]
          exact SharedState.applyRow_finite hs hc hApply

theorem SharedState.replay_finite
    {s : SharedState}
    {changes : List Change}
    (hs : s.Finite)
    (hChanges : ∀ c ∈ changes, c.RowFinite) :
    (s.replay changes).Finite := by
  induction changes generalizing s with
  | nil => exact hs
  | cons c rest ih =>
      rw [SharedState.replay_cons]
      exact ih (SharedState.Change.apply_finite hs (hChanges c List.mem_cons_self))
        (fun d hd => hChanges d (List.mem_cons_of_mem c hd))

------------------------------------------------------------
-- Reachable Writers and Their Invariant
------------------------------------------------------------

namespace Writers

variable {δ : Type} [StateCodec δ]

/- The writers and the log of the updates that took effect, over every schedule from the start. -/
inductive Reach
    (P : UpdatePaths)
    (jobs : Nat → List Change) : Writers δ → List Commit → Prop
  | start : Reach P jobs (Writers.start jobs) []
  | step
      {sys : Writers δ}
      {log : List Commit}
      (a : Action)
      (hReach : Reach P jobs sys log) :
      Reach P jobs (sys.step P a).1 (log ++ (sys.step P a).2.toList)

/-
  What holds of the writers after the updates `log`: the log is
  chained; the document is missing while the log is empty and holds the
  state the log leaves after that; the lock file is the inode every
  writer opened; a lock is held exactly by the writer past taking it;
  a writer that has made its change made it on that state and, once
  staged, has it in its temporary file; no other path names a file but
  a staged writer's temporary file; inodes in use are below the next
  one; and every writer's finished changes, of which those that took
  effect are a part, come before its pending ones in its jobs.
-/
structure Inv
    (P : UpdatePaths)
    (jobs : Nat → List Change)
    (sys : Writers δ)
    (log : List Commit) : Prop where
  chained : Commit.Chained SharedState.empty log
  document : (sys.volume.entry P.doc = none ∧ log = []) ∨
    log ≠ [] ∧ ∃ j, sys.volume.entry P.doc = some j ∧
      sys.volume.content j = StateCodec.encode (Commit.stateAfter log)
  lockFile : ∀ q i, (sys.writer q).stage.lockInode = some i → sys.volume.entry P.lock = some i
  holder : ∀ i q, sys.volume.holder i = some q ↔ (sys.writer q).stage.held = some i
  changed : ∀ q c i s s', (sys.writer q).stage = .changed c i s s' →
    s = Commit.stateAfter log ∧ c.run s = .ok s'
  staged : ∀ q c i s s', (sys.writer q).stage = .staged c i s s' →
    s = Commit.stateAfter log ∧ c.run s = .ok s' ∧
      ∃ k, sys.volume.entry (P.temp q) = some k ∧ sys.volume.content k = StateCodec.encode s'
  strays : ∀ x, x ≠ P.doc → x ≠ P.lock → sys.volume.entry x = none ∨
    ∃ q c i s s', (sys.writer q).stage = .staged c i s s' ∧ x = P.temp q
  fresh : ∀ x i, sys.volume.entry x = some i → i < sys.volume.next
  jobs : ∀ q, ∃ done, jobs q = done ++ (sys.writer q).pending ∧ (Commit.committedBy log q).Sublist done

theorem inv_start
    (P : UpdatePaths)
    (jobs : Nat → List Change) :
    Inv P jobs (Writers.start jobs : Writers δ) [] where
  chained := trivial
  document := .inl ⟨rfl, rfl⟩
  lockFile q i h := by cases h
  holder i q := by simp [start, Volume.empty, Stage.held]
  changed q c i s s' h := by cases h
  staged q c i s s' h := by cases h
  strays x _ _ := .inl rfl
  fresh x i h := by cases h
  jobs q := ⟨[], by simp [start, Writer.pending, Stage.change?], List.Sublist.slnil⟩

namespace Inv

variable {P : UpdatePaths} {jobs : Nat → List Change} {sys : Writers δ} {log : List Commit}

/- Two writers each holding a lock are one writer: every lock they take is on the one lock file. -/
theorem held_unique
    (h : Inv P jobs sys log)
    {p q i j : Nat}
    (hp : (sys.writer p).stage.held = some i)
    (hq : (sys.writer q).stage.held = some j) :
    p = q := by
  have hi := h.lockFile p i (Stage.lockInode_of_held hp)
  have hj := h.lockFile q j (Stage.lockInode_of_held hq)
  obtain rfl : i = j := Option.some.inj (hi.symm.trans hj)
  exact Option.some.inj (((h.holder i p).mpr hp).symm.trans ((h.holder i q).mpr hq))

/- A change that took effect is one of its writer's jobs. -/
theorem mem_jobs
    (h : Inv P jobs sys log)
    {c : Commit}
    (hc : c ∈ log) :
    c.change ∈ jobs c.pid := by
  obtain ⟨done, hJobs, hSub⟩ := h.jobs c.pid
  have hMem : c.change ∈ Commit.committedBy log c.pid :=
    List.mem_map.mpr ⟨c, List.mem_filter.mpr ⟨hc, beq_self_eq_true _⟩, rfl⟩
  rw [hJobs]
  exact List.mem_append_left _ (hSub.subset hMem)

/- With finite jobs, the state the log leaves is finite. -/
theorem stateAfter_finite
    (h : Inv P jobs sys log)
    (hFinite : ∀ q, ∀ c ∈ jobs q, c.RowFinite) :
    (Commit.stateAfter log).Finite := by
  apply SharedState.replay_finite SharedState.empty_finite
  intro c hc
  obtain ⟨d, hd, rfl⟩ := List.mem_map.mp hc
  exact hFinite d.pid d.change (h.mem_jobs hd)

/- The document reads back the state the log leaves, when the codec reads back finite states. -/
theorem readState_doc
    (h : Inv P jobs sys log)
    (hCodec : StateCodec.ReadsBack δ)
    (hFinite : ∀ q, ∀ c ∈ jobs q, c.RowFinite) :
    sys.volume.readState P.doc = .ok (Commit.stateAfter log) := by
  rcases h.document with ⟨hNone, rfl⟩ | ⟨-, j, hj, hContent⟩
  · rw [Volume.readState_of_none hNone]
    rfl
  · rw [Volume.readState_of_some hj, hContent]
    exact hCodec _ (h.stateAfter_finite hFinite)

------------------------------------------------------------
-- Each Step Keeps the Invariant
------------------------------------------------------------

variable {pid : Nat}

/- A writer starting its next change opens the lock file, the one every writer has open. -/
theorem openLock
    (h : Inv P jobs sys log)
    (hApart : P.lock ≠ P.doc)
    (hTemp : ∀ q, P.temp q ≠ P.doc ∧ P.temp q ≠ P.lock)
    {c : Change}
    {rest : List Change}
    (hStage : (sys.writer pid).stage = .idle)
    (hTodo : (sys.writer pid).todo = c :: rest) :
    Inv P jobs
      (sys.put (sys.volume.openFile P.lock).1 pid ⟨.opened c (sys.volume.openFile P.lock).2, rest⟩)
      log := by
  obtain ⟨hLock, hOthers, hContent, hHolder, hFresh, hSame⟩ :=
    Volume.openFile_spec P.lock h.fresh
  -- the writer was idle, so every staged writer is another one
  have hOther : ∀ q c i s s', (sys.writer q).stage = .staged c i s s' → q ≠ pid := by
    rintro q c i s s' hq rfl
    rw [hStage] at hq
    cases hq
  constructor
  case chained => exact h.chained
  case document =>
    rcases h.document with ⟨hNone, hLog⟩ | ⟨hLog, j, hj, hj'⟩
    · exact .inl ⟨by rw [volume_put, hOthers _ hApart.symm, hNone], hLog⟩
    · exact .inr ⟨hLog, j, by rw [volume_put, hOthers _ hApart.symm, hj],
        by rw [volume_put, hContent j (h.fresh _ _ hj), hj']⟩
  case lockFile =>
    intro q i hq
    rw [volume_put]
    by_cases hqp : q = pid
    · subst hqp
      rw [writer_put_self] at hq
      cases hq
      exact hLock
    · rw [writer_put_of_ne _ _ _ hqp] at hq
      rw [← hSame i (h.lockFile q i hq)]
      exact hLock
  case holder =>
    intro i q
    rw [volume_put, hHolder, h.holder]
    by_cases hqp : q = pid
    · subst hqp
      rw [writer_put_self, hStage]
      rfl
    · rw [writer_put_of_ne _ _ _ hqp]
  case changed =>
    intro q c' i s s' hq
    obtain ⟨-, hq⟩ := stage_of_put hq (by simp)
    exact h.changed q c' i s s' hq
  case staged =>
    intro q c' i s s' hq
    obtain ⟨-, hq⟩ := stage_of_put hq (by simp)
    obtain ⟨hs, hRun, k, hk, hk'⟩ := h.staged q c' i s s' hq
    exact ⟨hs, hRun, k, by rw [volume_put, hOthers _ (hTemp q).2, hk],
      by rw [volume_put, hContent k (h.fresh _ _ hk), hk']⟩
  case strays =>
    intro x hxd hxl
    rcases h.strays x hxd hxl with hNone | ⟨q, c', i, s, s', hq, rfl⟩
    · exact .inl (by rw [volume_put, hOthers _ hxl, hNone])
    · exact .inr ⟨q, c', i, s, s', by rw [writer_put_of_ne _ _ _ (hOther q c' i s s' hq), hq], rfl⟩
  case fresh => exact hFresh
  case jobs =>
    intro q
    by_cases hqp : q = pid
    · subst hqp
      obtain ⟨done, hJobs, hSub⟩ := h.jobs q
      refine ⟨done, ?_, hSub⟩
      rw [hJobs, writer_put_self]
      simp [Writer.pending, hStage, hTodo, Stage.change?]
    · rw [writer_put_of_ne _ _ _ hqp]
      exact h.jobs q

/- A writer takes the lock on the lock file when no one holds it. -/
theorem takeLock
    (h : Inv P jobs sys log)
    {c : Change}
    {i : Nat}
    (hStage : (sys.writer pid).stage = .opened c i)
    (hFree : sys.volume.holder i = none) :
    Inv P jobs (sys.put (sys.volume.lockBy i pid) pid { sys.writer pid with stage := .locked c i })
      log := by
  have hOther : ∀ q c i s s', (sys.writer q).stage = .staged c i s s' → q ≠ pid := by
    rintro q c i s s' hq rfl
    rw [hStage] at hq
    cases hq
  constructor
  case chained => exact h.chained
  case document => simpa using h.document
  case lockFile =>
    intro q j hq
    rw [volume_put, Volume.entry_lockBy]
    by_cases hqp : q = pid
    · subst hqp
      rw [writer_put_self] at hq
      cases hq
      exact h.lockFile q i (by rw [hStage]; rfl)
    · rw [writer_put_of_ne _ _ _ hqp] at hq
      exact h.lockFile q j hq
  case holder =>
    intro j q
    rw [volume_put, Volume.holder_lockBy]
    by_cases hqp : q = pid
    · subst hqp
      rw [writer_put_self]
      by_cases hj : j = i
      · subst hj
        simp [Stage.held]
      · rw [if_neg hj, h.holder, hStage]
        simp [Stage.held, Ne.symm hj]
    · rw [writer_put_of_ne _ _ _ hqp]
      by_cases hj : j = i
      · subst hj
        rw [if_pos rfl, ← h.holder, hFree]
        simp [Ne.symm hqp]
      · rw [if_neg hj, h.holder]
  case changed =>
    intro q c' j s s' hq
    obtain ⟨-, hq⟩ := stage_of_put hq (by simp)
    exact h.changed q c' j s s' hq
  case staged =>
    intro q c' j s s' hq
    obtain ⟨-, hq⟩ := stage_of_put hq (by simp)
    simpa using h.staged q c' j s s' hq
  case strays =>
    intro x hxd hxl
    rcases h.strays x hxd hxl with hNone | ⟨q, c', j, s, s', hq, rfl⟩
    · exact .inl (by simpa using hNone)
    · exact .inr ⟨q, c', j, s, s', by rw [writer_put_of_ne _ _ _ (hOther q c' j s s' hq), hq], rfl⟩
  case fresh => simpa using h.fresh
  case jobs =>
    intro q
    by_cases hqp : q = pid
    · subst hqp
      obtain ⟨done, hJobs, hSub⟩ := h.jobs q
      refine ⟨done, ?_, hSub⟩
      rw [hJobs, writer_put_self]
      simp [Writer.pending, hStage, Stage.change?]
    · rw [writer_put_of_ne _ _ _ hqp]
      exact h.jobs q

/- A writer holding the lock reads the document, the state the log leaves, and makes its change. -/
theorem readChange
    (h : Inv P jobs sys log)
    (hCodec : StateCodec.ReadsBack δ)
    (hFinite : ∀ q, ∀ c ∈ jobs q, c.RowFinite)
    {c : Change}
    {i : Nat}
    {s s' : SharedState}
    (hStage : (sys.writer pid).stage = .locked c i)
    (hRead : sys.volume.readState P.doc = .ok s)
    (hRun : c.run s = .ok s') :
    Inv P jobs (sys.put sys.volume pid { sys.writer pid with stage := .changed c i s s' }) log := by
  have hState : s = Commit.stateAfter log :=
    Except.ok.inj (hRead.symm.trans (h.readState_doc hCodec hFinite))
  have hOther : ∀ q c i s s', (sys.writer q).stage = .staged c i s s' → q ≠ pid := by
    rintro q c i s s' hq rfl
    rw [hStage] at hq
    cases hq
  constructor
  case chained => exact h.chained
  case document => exact h.document
  case lockFile =>
    intro q j hq
    by_cases hqp : q = pid
    · subst hqp
      rw [writer_put_self] at hq
      cases hq
      exact h.lockFile q i (by rw [hStage]; rfl)
    · rw [writer_put_of_ne _ _ _ hqp] at hq
      exact h.lockFile q j hq
  case holder =>
    intro j q
    rw [volume_put, h.holder]
    by_cases hqp : q = pid
    · subst hqp
      rw [writer_put_self, hStage]
      rfl
    · rw [writer_put_of_ne _ _ _ hqp]
  case changed =>
    intro q c' j t t' hq
    by_cases hqp : q = pid
    · subst hqp
      rw [writer_put_self] at hq
      cases hq
      exact ⟨hState, hRun⟩
    · rw [writer_put_of_ne _ _ _ hqp] at hq
      exact h.changed q c' j t t' hq
  case staged =>
    intro q c' j t t' hq
    obtain ⟨-, hq⟩ := stage_of_put hq (by simp)
    exact h.staged q c' j t t' hq
  case strays =>
    intro x hxd hxl
    rcases h.strays x hxd hxl with hNone | ⟨q, c', j, t, t', hq, rfl⟩
    · exact .inl hNone
    · exact .inr ⟨q, c', j, t, t', by rw [writer_put_of_ne _ _ _ (hOther q c' j t t' hq), hq], rfl⟩
  case fresh => exact h.fresh
  case jobs =>
    intro q
    by_cases hqp : q = pid
    · subst hqp
      obtain ⟨done, hJobs, hSub⟩ := h.jobs q
      refine ⟨done, ?_, hSub⟩
      rw [hJobs, writer_put_self]
      simp [Writer.pending, hStage, Stage.change?]
    · rw [writer_put_of_ne _ _ _ hqp]
      exact h.jobs q

/- A writer that drops its current change has it among its finished ones. -/
theorem jobs_drop
    (h : Inv P jobs sys log)
    {c : Change}
    (hChange : (sys.writer pid).stage.change? = some c)
    (st : Stage)
    (hIdle : st.change? = none) :
    ∃ done, jobs pid = done ++ ({ sys.writer pid with stage := st } : Writer).pending ∧
      (Commit.committedBy log pid).Sublist done := by
  obtain ⟨done, hJobs, hSub⟩ := h.jobs pid
  refine ⟨done ++ [c], ?_, hSub.trans (List.sublist_append_left done [c])⟩
  rw [hJobs]
  simp [Writer.pending, hChange, hIdle]

/- A writer whose document does not read, or whose change is refused, releases the lock. -/
theorem abandon
    (h : Inv P jobs sys log)
    {c : Change}
    {i : Nat}
    (hStage : (sys.writer pid).stage = .locked c i) :
    Inv P jobs (sys.put (sys.volume.unlock i) pid { sys.writer pid with stage := .idle }) log := by
  have hHolds : sys.volume.holder i = some pid := (h.holder i pid).mpr (by rw [hStage]; rfl)
  have hOther : ∀ q c i s s', (sys.writer q).stage = .staged c i s s' → q ≠ pid := by
    rintro q c i s s' hq rfl
    rw [hStage] at hq
    cases hq
  constructor
  case chained => exact h.chained
  case document => simpa using h.document
  case lockFile =>
    intro q j hq
    by_cases hqp : q = pid
    · subst hqp
      rw [writer_put_self] at hq
      cases hq
    · rw [writer_put_of_ne _ _ _ hqp] at hq
      simpa using h.lockFile q j hq
  case holder =>
    intro j q
    rw [volume_put, Volume.holder_unlock]
    by_cases hj : j = i
    · -- the released lock: no one holds it, the writer having been its holder
      subst hj
      rw [if_pos rfl]
      by_cases hqp : q = pid
      · subst hqp
        simp [Stage.held]
      · rw [writer_put_of_ne _ _ _ hqp, ← h.holder, hHolds]
        simp [Ne.symm hqp]
    · rw [if_neg hj, h.holder]
      by_cases hqp : q = pid
      · subst hqp
        rw [writer_put_self, hStage]
        simp [Stage.held, Ne.symm hj]
      · rw [writer_put_of_ne _ _ _ hqp]
  case changed =>
    intro q c' j t t' hq
    obtain ⟨-, hq⟩ := stage_of_put hq (by simp)
    exact h.changed q c' j t t' hq
  case staged =>
    intro q c' j t t' hq
    obtain ⟨-, hq⟩ := stage_of_put hq (by simp)
    simpa using h.staged q c' j t t' hq
  case strays =>
    intro x hxd hxl
    rcases h.strays x hxd hxl with hNone | ⟨q, c', j, t, t', hq, rfl⟩
    · exact .inl (by simpa using hNone)
    · exact .inr ⟨q, c', j, t, t', by rw [writer_put_of_ne _ _ _ (hOther q c' j t t' hq), hq], rfl⟩
  case fresh => simpa using h.fresh
  case jobs =>
    intro q
    by_cases hqp : q = pid
    · subst hqp
      rw [writer_put_self]
      exact h.jobs_drop (by rw [hStage]; rfl) .idle rfl
    · rw [writer_put_of_ne _ _ _ hqp]
      exact h.jobs q

/- A writer waiting for the lock gives up its change, holding nothing. -/
theorem giveUp
    (h : Inv P jobs sys log)
    {c : Change}
    {i : Nat}
    (hStage : (sys.writer pid).stage = .opened c i) :
    Inv P jobs (sys.put sys.volume pid { sys.writer pid with stage := .idle }) log := by
  have hOther : ∀ q c i s s', (sys.writer q).stage = .staged c i s s' → q ≠ pid := by
    rintro q c i s s' hq rfl
    rw [hStage] at hq
    cases hq
  constructor
  case chained => exact h.chained
  case document => exact h.document
  case lockFile =>
    intro q j hq
    by_cases hqp : q = pid
    · subst hqp
      rw [writer_put_self] at hq
      cases hq
    · rw [writer_put_of_ne _ _ _ hqp] at hq
      exact h.lockFile q j hq
  case holder =>
    intro j q
    rw [volume_put, h.holder]
    by_cases hqp : q = pid
    · subst hqp
      rw [writer_put_self, hStage]
      rfl
    · rw [writer_put_of_ne _ _ _ hqp]
  case changed =>
    intro q c' j t t' hq
    obtain ⟨-, hq⟩ := stage_of_put hq (by simp)
    exact h.changed q c' j t t' hq
  case staged =>
    intro q c' j t t' hq
    obtain ⟨-, hq⟩ := stage_of_put hq (by simp)
    exact h.staged q c' j t t' hq
  case strays =>
    intro x hxd hxl
    rcases h.strays x hxd hxl with hNone | ⟨q, c', j, t, t', hq, rfl⟩
    · exact .inl hNone
    · exact .inr ⟨q, c', j, t, t', by rw [writer_put_of_ne _ _ _ (hOther q c' j t t' hq), hq], rfl⟩
  case fresh => exact h.fresh
  case jobs =>
    intro q
    by_cases hqp : q = pid
    · subst hqp
      rw [writer_put_self]
      exact h.jobs_drop (by rw [hStage]; rfl) .idle rfl
    · rw [writer_put_of_ne _ _ _ hqp]
      exact h.jobs q

/- While a writer holds the lock, no other writer is past taking it. -/
theorem not_staged_of_held
    (h : Inv P jobs sys log)
    {i : Nat}
    (hHeld : (sys.writer pid).stage.held = some i)
    {q : Nat}
    (hqp : q ≠ pid)
    {c : Change}
    {j : Nat}
    {t t' : SharedState} :
    (sys.writer q).stage ≠ .staged c j t t' := by
  intro hq
  exact hqp (h.held_unique (by rw [hq]; rfl) hHeld)

/- A writer that made its change writes it whole to its temporary file, a new one. -/
theorem writeTemp
    (h : Inv P jobs sys log)
    (hTemp : ∀ q, P.temp q ≠ P.doc ∧ P.temp q ≠ P.lock)
    {c : Change}
    {i : Nat}
    {s s' : SharedState}
    (hStage : (sys.writer pid).stage = .changed c i s s') :
    Inv P jobs
      (sys.put (sys.volume.writeFile (P.temp pid) (StateCodec.encode s')) pid
        { sys.writer pid with stage := .staged c i s s' }) log := by
  have hHeld : (sys.writer pid).stage.held = some i := by rw [hStage]; rfl
  -- no writer is staged, the writer holding the lock being only changed
  have hNoStaged : ∀ q c j t t', (sys.writer q).stage ≠ .staged c j t t' := by
    intro q c' j t t' hq
    by_cases hqp : q = pid
    · subst hqp
      rw [hStage] at hq
      cases hq
    · exact h.not_staged_of_held hHeld hqp hq
  have hTempNone : sys.volume.entry (P.temp pid) = none := by
    rcases h.strays (P.temp pid) (hTemp pid).1 (hTemp pid).2 with hNone | ⟨q, c', j, t, t', hq, -⟩
    · exact hNone
    · exact absurd hq (hNoStaged q c' j t t')
  rw [Volume.writeFile_of_none hTempNone]
  constructor
  case chained => exact h.chained
  case document =>
    rcases h.document with ⟨hNone, hLog⟩ | ⟨hLog, j, hj, hj'⟩
    · exact .inl ⟨by simp [Ne.symm (hTemp pid).1, hNone], hLog⟩
    · refine .inr ⟨hLog, j, by simp [Ne.symm (hTemp pid).1, hj], ?_⟩
      simp [Nat.ne_of_lt (h.fresh _ _ hj), hj']
  case lockFile =>
    intro q j hq
    rw [volume_put, Volume.entry_create, if_neg (Ne.symm (hTemp pid).2)]
    by_cases hqp : q = pid
    · subst hqp
      rw [writer_put_self] at hq
      cases hq
      exact h.lockFile q i (by rw [hStage]; rfl)
    · rw [writer_put_of_ne _ _ _ hqp] at hq
      exact h.lockFile q j hq
  case holder =>
    intro j q
    rw [volume_put, Volume.holder_create, h.holder]
    by_cases hqp : q = pid
    · subst hqp
      rw [writer_put_self, hStage]
      rfl
    · rw [writer_put_of_ne _ _ _ hqp]
  case changed =>
    intro q c' j t t' hq
    obtain ⟨-, hq⟩ := stage_of_put hq (by simp)
    exact h.changed q c' j t t' hq
  case staged =>
    intro q c' j t t' hq
    by_cases hqp : q = pid
    · -- the writer itself: its change, made on the log's state, is in the new file
      subst hqp
      rw [writer_put_self] at hq
      cases hq
      obtain ⟨hState, hRun⟩ := h.changed q c i s s' hStage
      exact ⟨hState, hRun, sys.volume.next, by simp, by simp⟩
    · rw [writer_put_of_ne _ _ _ hqp] at hq
      exact absurd hq (hNoStaged q c' j t t')
  case strays =>
    intro x hxd hxl
    by_cases hx : x = P.temp pid
    · exact .inr ⟨pid, c, i, s, s', by rw [writer_put_self], hx⟩
    · rcases h.strays x hxd hxl with hNone | ⟨q, c', j, t, t', hq, -⟩
      · exact .inl (by simp [hx, hNone])
      · exact absurd hq (hNoStaged q c' j t t')
  case fresh =>
    intro x j hx
    simp only [volume_put, Volume.entry_create, Volume.next_create] at hx ⊢
    split at hx
    · cases hx
      omega
    · have := h.fresh x j hx
      omega
  case jobs =>
    intro q
    by_cases hqp : q = pid
    · subst hqp
      obtain ⟨done, hJobs, hSub⟩ := h.jobs q
      refine ⟨done, ?_, hSub⟩
      rw [hJobs, writer_put_self]
      simp [Writer.pending, hStage, Stage.change?]
    · rw [writer_put_of_ne _ _ _ hqp]
      exact h.jobs q

/-
  A staged writer renames its temporary file over the document and
  releases the lock: its update takes effect, on the state the log
  left.
-/
theorem commit
    (h : Inv P jobs sys log)
    (hApart : P.lock ≠ P.doc)
    (hTemp : ∀ q, P.temp q ≠ P.doc ∧ P.temp q ≠ P.lock)
    {c : Change}
    {i : Nat}
    {s s' : SharedState}
    (hStage : (sys.writer pid).stage = .staged c i s s') :
    Inv P jobs
      (sys.put ((sys.volume.rename (P.temp pid) P.doc).unlock i) pid
        { sys.writer pid with stage := .idle })
      (log ++ [⟨pid, c, s, s'⟩]) := by
  have hHeld : (sys.writer pid).stage.held = some i := by rw [hStage]; rfl
  have hHolds : sys.volume.holder i = some pid := (h.holder i pid).mpr hHeld
  obtain ⟨hState, hRun, k, hk, hk'⟩ := h.staged pid c i s s' hStage
  have hAfter : Commit.stateAfter (log ++ [⟨pid, c, s, s'⟩]) = s' := by
    rw [Commit.stateAfter_append_single, ← hState]
    exact SharedState.Change.apply_of_run hRun
  -- every other writer holds nothing
  have hAlone : ∀ q, q ≠ pid → (sys.writer q).stage.held = none := by
    intro q hqp
    cases hq : (sys.writer q).stage.held with
    | none => rfl
    | some j => exact absurd (h.held_unique hq hHeld) hqp
  rw [Volume.rename_of_some (hTemp pid).1 hk]
  constructor
  case chained =>
    exact Commit.Chained.append_single h.chained hState hRun
  case document =>
    refine .inr ⟨by simp, k, ?_, by simp [hk', hAfter]⟩
    simp [Ne.symm (hTemp pid).1]
  case lockFile =>
    intro q j hq
    by_cases hqp : q = pid
    · subst hqp
      rw [writer_put_self] at hq
      cases hq
    · rw [writer_put_of_ne _ _ _ hqp] at hq
      simp only [volume_put, Volume.entry_unlock, Function.update_apply,
        if_neg (Ne.symm (hTemp pid).2), if_neg hApart]
      exact h.lockFile q j hq
  case holder =>
    intro j q
    rw [volume_put, Volume.holder_unlock]
    by_cases hj : j = i
    · subst hj
      rw [if_pos rfl]
      by_cases hqp : q = pid
      · subst hqp
        simp [Stage.held]
      · rw [writer_put_of_ne _ _ _ hqp, hAlone q hqp]
        simp
    · rw [if_neg hj, h.holder]
      by_cases hqp : q = pid
      · subst hqp
        rw [writer_put_self, hStage]
        simp [Stage.held, Ne.symm hj]
      · rw [writer_put_of_ne _ _ _ hqp]
  case changed =>
    intro q c' j t t' hq
    obtain ⟨hqp, hq⟩ := stage_of_put hq (by simp)
    have := hAlone q hqp
    rw [hq] at this
    cases this
  case staged =>
    intro q c' j t t' hq
    obtain ⟨hqp, hq⟩ := stage_of_put hq (by simp)
    have := hAlone q hqp
    rw [hq] at this
    cases this
  case strays =>
    intro x hxd hxl
    by_cases hx : x = P.temp pid
    · exact .inl (by simp [hx])
    · rcases h.strays x hxd hxl with hNone | ⟨q, c', j, t, t', hq, rfl⟩
      · exact .inl (by simp [hx, hxd, hNone])
      · have hqp : q = pid := h.held_unique (by rw [hq]; rfl) hHeld
        exact absurd (by rw [hqp]) hx
  case fresh =>
    intro x j hx
    simp only [volume_put, Volume.entry_unlock, Function.update_apply] at hx
    split at hx
    · cases hx
    · split at hx
      · cases hx
        exact h.fresh _ _ hk
      · exact h.fresh x j hx
  case jobs =>
    intro q
    by_cases hqp : q = pid
    · subst hqp
      obtain ⟨done, hJobs, hSub⟩ := h.jobs q
      refine ⟨done ++ [c], ?_, ?_⟩
      · rw [hJobs, writer_put_self]
        simp [Writer.pending, hStage, Stage.change?]
      · rw [show q = (⟨q, c, s, s'⟩ : Commit).pid from rfl, Commit.committedBy_append_self]
        exact hSub.append (List.Sublist.refl [c])
    · rw [writer_put_of_ne _ _ _ hqp, Commit.committedBy_append_of_ne _ (Ne.symm hqp)]
      exact h.jobs q

theorem bind_map_eq_ok
    {x : Outcome SharedState}
    {f : SharedState → Outcome SharedState}
    {p : SharedState × SharedState}
    (h : (x >>= fun s => (f s).map fun s' => (s, s')) = .ok p) :
    x = .ok p.1 ∧ f p.1 = .ok p.2 := by
  cases x with
  | error e => cases h
  | ok s =>
      cases hf : f s with
      | error e => simp [bind, Except.bind, hf, Except.map] at h
      | ok s' =>
          simp only [bind, Except.bind, hf, Except.map, Except.ok.injEq] at h
          subst h
          exact ⟨rfl, hf⟩

/- Every step of every writer keeps the invariant: one case for each thing a writer can do. -/
theorem step
    (h : Inv P jobs sys log)
    (hCodec : StateCodec.ReadsBack δ)
    (hApart : P.lock ≠ P.doc)
    (hTemp : ∀ q, P.temp q ≠ P.doc ∧ P.temp q ≠ P.lock)
    (hFinite : ∀ q, ∀ c ∈ jobs q, c.RowFinite)
    (a : Action) :
    Inv P jobs (sys.step P a).1 (log ++ (sys.step P a).2.toList) := by
  cases a with
  | advance pid =>
      simp only [Writers.step]
      cases hStage : (sys.writer pid).stage with
      | idle =>
          cases hTodo : (sys.writer pid).todo with
          | nil =>
              rw [advance_idle_nil hStage hTodo, Option.toList_none, List.append_nil]
              exact h
          | cons c rest =>
              rw [advance_idle_cons hStage hTodo, Option.toList_none, List.append_nil]
              exact h.openLock hApart hTemp hStage hTodo
      | opened c i =>
          cases hHolder : sys.volume.holder i with
          | none =>
              rw [advance_opened_free hStage hHolder, Option.toList_none, List.append_nil]
              exact h.takeLock hStage hHolder
          | some q =>
              rw [advance_opened_held hStage hHolder, Option.toList_none, List.append_nil]
              exact h
      | locked c i =>
          cases hResult : (sys.volume.readState P.doc >>= fun s => (c.run s).map fun s' => (s, s')) with
          | error e =>
              rw [advance_locked_error hStage hResult, Option.toList_none, List.append_nil]
              exact h.abandon hStage
          | ok p =>
              obtain ⟨hRead, hRun⟩ := bind_map_eq_ok hResult
              rw [advance_locked_ok hStage hRead hRun, Option.toList_none, List.append_nil]
              exact h.readChange hCodec hFinite hStage hRead hRun
      | changed c i s s' =>
          rw [advance_changed hStage, Option.toList_none, List.append_nil]
          exact h.writeTemp hTemp hStage
      | staged c i s s' =>
          rw [advance_staged hStage, Option.toList_some]
          exact h.commit hApart hTemp hStage
  | giveUp pid =>
      simp only [Writers.step, Option.toList_none, List.append_nil]
      -- only a writer waiting for a held lock gives up; any other stays as it is
      cases hStage : (sys.writer pid).stage with
      | opened c i =>
          cases hHolder : sys.volume.holder i with
          | some q =>
              simp only [Writers.giveUp, hStage, hHolder]
              exact h.giveUp hStage
          | none =>
              simp only [Writers.giveUp, hStage, hHolder]
              exact h
      | idle => simpa only [Writers.giveUp, hStage] using h
      | locked c i => simpa only [Writers.giveUp, hStage] using h
      | changed c i s s' => simpa only [Writers.giveUp, hStage] using h
      | staged c i s s' => simpa only [Writers.giveUp, hStage] using h

end Inv

/- Over every schedule from the start, the writers keep the invariant. -/
theorem Reach.inv
    {P : UpdatePaths}
    {jobs : Nat → List Change}
    {sys : Writers δ}
    {log : List Commit}
    (hCodec : StateCodec.ReadsBack δ)
    (hApart : P.lock ≠ P.doc)
    (hTemp : ∀ q, P.temp q ≠ P.doc ∧ P.temp q ≠ P.lock)
    (hFinite : ∀ q, ∀ c ∈ jobs q, c.RowFinite)
    (hReach : Reach P jobs sys log) :
    Inv P jobs sys log := by
  induction hReach with
  | start => exact inv_start P jobs
  | step a _ ih => exact ih.step hCodec hApart hTemp hFinite a

/- A schedule run from reachable writers reaches what it leaves, with the updates it completes. -/
theorem Reach.run
    {P : UpdatePaths}
    {jobs : Nat → List Change}
    {sys : Writers δ}
    {log : List Commit}
    (hReach : Reach P jobs sys log)
    (acts : List Action) :
    Reach P jobs (sys.run P acts).1 (log ++ (sys.run P acts).2) := by
  induction acts generalizing sys log with
  | nil => simpa [Writers.run] using hReach
  | cons a rest ih => simpa [Writers.run, List.append_assoc] using ih (hReach.step a)

theorem run_cons
    (P : UpdatePaths)
    (sys : Writers δ)
    (a : Action)
    (acts : List Action) :
    sys.run P (a :: acts) =
      (((sys.step P a).1.run P acts).1, (sys.step P a).2.toList ++ ((sys.step P a).1.run P acts).2) :=
  rfl

end Writers

------------------------------------------------------------
-- One Writer Alone
------------------------------------------------------------

/- The disk a writer sees reads the document as the volume does. -/
theorem Volume.disk_read
    {δ : Type}
    [StateCodec δ]
    (v : Volume δ)
    (docPath lockPath : String)
    (timeoutMs : Nat) :
    (v.disk docPath lockPath timeoutMs).read = v.readState docPath := by
  unfold Volume.disk Disk.read Volume.readState
  cases v.entry docPath <;> rfl

/- The document a writer sees is the file its path names, or missing. -/
theorem Volume.disk_doc_of_none
    {δ : Type}
    {v : Volume δ}
    {docPath lockPath : String}
    {timeoutMs : Nat}
    (h : v.entry docPath = none) :
    (v.disk docPath lockPath timeoutMs).doc = .missing := by
  simp [Volume.disk, h]

theorem Volume.disk_doc_of_some
    {δ : Type}
    {v : Volume δ}
    {docPath lockPath : String}
    {timeoutMs : Nat}
    {j : Nat}
    (h : v.entry docPath = some j) :
    (v.disk docPath lockPath timeoutMs).doc = .file (v.content j) := by
  simp [Volume.disk, h]

/- A writer sees the lock free when no one holds the inode its path names. -/
theorem Volume.disk_lockHeld_of_free
    {δ : Type}
    {v : Volume δ}
    {docPath lockPath : String}
    {timeoutMs : Nat}
    (h : ∀ i, v.entry lockPath = some i → v.holder i = none) :
    (v.disk docPath lockPath timeoutMs).lockHeld = false := by
  cases hLock : v.entry lockPath with
  | none => simp [Volume.disk, hLock]
  | some i => simp [Volume.disk, hLock, h i hLock]

namespace Writers

variable {δ : Type} [StateCodec δ] {P : UpdatePaths} {sys : Writers δ} {pid : Nat}

/-
  The update a single store makes on its disk is one writer's cycle run
  with no other writer in between: from a volume where no lock is held
  and the writer's temporary file is absent, the writer's next steps,
  three when the update fails and five when it takes effect, leave the
  disk the update leaves, and the writer idle with its other changes.
-/
theorem advance_alone_eq_update
    (hApart : P.lock ≠ P.doc)
    (hTemp : P.temp pid ≠ P.doc ∧ P.temp pid ≠ P.lock)
    {c : Change}
    {rest : List Change}
    (hWriter : sys.writer pid = ⟨.idle, c :: rest⟩)
    (hNoLocks : ∀ i, sys.volume.holder i = none)
    (hTempFree : sys.volume.entry (P.temp pid) = none)
    (hFresh : ∀ x i, sys.volume.entry x = some i → i < sys.volume.next)
    (timeoutMs : Nat) :
    let d := sys.volume.disk P.doc P.lock timeoutMs
    let u := d.update fun s => (c.run s).map fun s' => ((), s')
    let r := sys.run P (List.replicate (if u.2.isOk then 5 else 3) (.advance pid))
    r.1.volume.disk P.doc P.lock timeoutMs = u.1 ∧ r.1.writer pid = ⟨.idle, rest⟩ ∧
      (r.2 ≠ [] ↔ u.2.isOk = true) := by
  intro d u r
  obtain ⟨hLock, hOthers, hContent, hHolder, -, -⟩ := Volume.openFile_spec P.lock hFresh
  obtain ⟨v₁, i, hOpen⟩ : ∃ v₁ i, sys.volume.openFile P.lock = (v₁, i) := ⟨_, _, rfl⟩
  rw [hOpen] at hLock hOthers hContent hHolder
  dsimp only at hLock hOthers hContent hHolder
  -- the writer opens the lock file and takes the lock, which no one holds
  have hStep₁ : sys.advance P pid = (sys.put v₁ pid ⟨.opened c i, rest⟩, none) := by
    rw [advance_idle_cons (by rw [hWriter]) (by rw [hWriter]), hOpen]
  obtain ⟨sys₂, hStep₂, hVol₂, hWriter₂⟩ : ∃ s, (sys.put v₁ pid ⟨.opened c i, rest⟩).advance P pid = (s, none) ∧
      s.volume = v₁.lockBy i pid ∧ s.writer pid = ⟨.locked c i, rest⟩ :=
    ⟨_, advance_opened_free (by rw [writer_put_self]) (by rw [volume_put, hHolder, hNoLocks]), rfl,
      by rw [writer_put_self, writer_put_self]⟩
  -- the lock file being another file, the document reads as it did
  have hDocEntry : v₁.entry P.doc = sys.volume.entry P.doc := hOthers _ hApart.symm
  have hDocView : (v₁.disk P.doc P.lock timeoutMs).doc = d.doc := by
    cases hDoc : sys.volume.entry P.doc with
    | none =>
      rw [Volume.disk_doc_of_none (hDocEntry.trans hDoc), Volume.disk_doc_of_none hDoc]
    | some j =>
      rw [Volume.disk_doc_of_some (hDocEntry.trans hDoc), Volume.disk_doc_of_some hDoc]
      exact congrArg Entry.file (hContent j (hFresh _ _ hDoc))
  have hRead : sys₂.volume.readState P.doc = d.read := by
    rw [hVol₂]
    show v₁.readState P.doc = d.read
    rw [← Volume.disk_read v₁ P.doc P.lock timeoutMs]
    unfold Disk.read
    rw [hDocView]
    rfl
  -- the store's update opens the lock, finds it free, reads and changes
  have hFree : d.lockHeld = false := Volume.disk_lockHeld_of_free fun i _ => hNoLocks i
  have hLockOk : d.lock = .ok () := by
    unfold Disk.lock
    rw [if_neg (by simp [d, Volume.disk]), if_neg (by rw [hFree]; simp)]
  -- the lock file still where it was and its lock free, the view differs from `d` in the document only
  have hView : ∀ w : Volume δ, w.entry P.lock = some i → w.holder i = none →
      w.disk P.doc P.lock timeoutMs = { d with doc := (w.disk P.doc P.lock timeoutMs).doc } := by
    intro w hw hwi
    have hHeld : (w.disk P.doc P.lock timeoutMs).lockHeld = d.lockHeld := by
      rw [hFree]
      simp [Volume.disk, hw, hwi]
    rw [← hHeld]
    rfl
  -- the update fails, reading or changing, or it writes the changed state
  have hCases : (∃ e, (d.read >>= fun s => (c.run s).map fun s' => (s, s')) = .error e ∧
        u = (d, .error e)) ∨
      ∃ s s', d.read = .ok s ∧ c.run s = .ok s' ∧
        u = ({ d with doc := .file (StateCodec.encode s') }, .ok ()) := by
    show (∃ e, _ ∧ d.update _ = _) ∨ ∃ s s', _ ∧ _ ∧ d.update _ = _
    unfold Disk.update
    rw [if_neg (by simp [d, Volume.disk]), Disk.openLock_of_apart hApart]
    simp only [hLockOk, bind, Except.bind]
    cases d.read with
    | error e => exact .inl ⟨e, rfl, rfl⟩
    | ok s =>
      cases hRun : c.run s with
      | error e => exact .inl ⟨e, by simp [hRun, Except.map], by simp [hRun, Except.map]⟩
      | ok s' => exact .inr ⟨s, s', rfl, hRun, by simp [hRun, Except.map]⟩
  rcases hCases with ⟨e, hFail, hU⟩ | ⟨s, s', hRd, hRun, hU⟩
  · -- three steps: the lock is released and nothing is written
    have hStep₃ := advance_locked_error (P := P) (by rw [hWriter₂]) (by rw [hRead]; exact hFail)
    have hr : r = (sys₂.put (sys₂.volume.unlock i) pid { sys₂.writer pid with stage := .idle }, []) := by
      have hn : (if u.2.isOk then 5 else 3) = 3 := by simp [hU, Except.isOk, Except.toBool]
      show sys.run P (List.replicate _ _) = _
      rw [hn]
      simp only [List.replicate, run_cons, step, hStep₁, hStep₂, hStep₃]
      rfl
    rw [hr, hU]
    refine ⟨?_, by rw [writer_put_self, hWriter₂], by simp [Except.isOk, Except.toBool]⟩
    rw [volume_put, hView _ (by simp [hVol₂, hLock]) (by simp), hVol₂]
    exact congrArg (fun doc => { d with doc }) hDocView
  · -- five steps: the changed state is written to the temporary file and renamed over the document
    obtain ⟨sys₃, hStep₃, hVol₃, hWriter₃⟩ : ∃ t, sys₂.advance P pid = (t, none) ∧
        t.volume = sys₂.volume ∧ t.writer pid = ⟨.changed c i s s', rest⟩ :=
      ⟨_, advance_locked_ok (by rw [hWriter₂]) (hRead.trans hRd) hRun, rfl,
        by rw [writer_put_self, hWriter₂]⟩
    obtain ⟨sys₄, hStep₄, hVol₄, hWriter₄⟩ : ∃ t, sys₃.advance P pid = (t, none) ∧
        t.volume = sys₃.volume.writeFile (P.temp pid) (StateCodec.encode s') ∧
        t.writer pid = ⟨.staged c i s s', rest⟩ :=
      ⟨_, advance_changed (by rw [hWriter₃]), rfl, by rw [writer_put_self, hWriter₃]⟩
    obtain ⟨sys₅, hStep₅, hVol₅, hWriter₅⟩ : ∃ t, sys₄.advance P pid = (t, some ⟨pid, c, s, s'⟩) ∧
        t.volume = (sys₄.volume.rename (P.temp pid) P.doc).unlock i ∧ t.writer pid = ⟨.idle, rest⟩ :=
      ⟨_, advance_staged (by rw [hWriter₄]), rfl, by rw [writer_put_self, hWriter₄]⟩
    have hr : r = (sys₅, [⟨pid, c, s, s'⟩]) := by
      have hn : (if u.2.isOk then 5 else 3) = 5 := by simp [hU, Except.isOk, Except.toBool]
      show sys.run P (List.replicate _ _) = _
      rw [hn]
      simp only [List.replicate, run_cons, step, hStep₁, hStep₂, hStep₃, hStep₄, hStep₅]
      rfl
    rw [hr, hU]
    refine ⟨?_, hWriter₅, by simp [Except.isOk, Except.toBool]⟩
    -- the temporary file is new, and the rename gives its inode to the document
    have hWrite : sys₄.volume = (v₁.lockBy i pid).create (P.temp pid) (StateCodec.encode s') := by
      rw [hVol₄, hVol₃, hVol₂, Volume.writeFile_of_none]
      rw [Volume.entry_lockBy, hOthers _ hTemp.2, hTempFree]
    have hRename := Volume.rename_of_some hTemp.1
      (show sys₄.volume.entry (P.temp pid) = some v₁.next by simp [hWrite])
    have hLock₅ : sys₅.volume.entry P.lock = some i := by
      rw [hVol₅, Volume.entry_unlock, hRename]
      simp [hApart, hTemp.2.symm, hWrite, hLock]
    have hDoc₅ : (sys₅.volume.disk P.doc P.lock timeoutMs).doc = .file (StateCodec.encode s') := by
      have hEntry : sys₅.volume.entry P.doc = some v₁.next := by
        rw [hVol₅, Volume.entry_unlock, hRename]
        simp [hTemp.1.symm]
      rw [Volume.disk_doc_of_some hEntry, hVol₅, Volume.content_unlock, hRename]
      simp [hWrite]
    rw [hView _ hLock₅ (by simp [hVol₅]), hDoc₅]

end Writers

------------------------------------------------------------
-- The Document over Every Schedule
------------------------------------------------------------

/-
  Writers of one document in any number of processes, each with its
  changes to make, over any schedule of their steps from before the
  document exists: the lock a file of its own, no temporary file at the
  document's or the lock's path, rows finite, and a codec that reads
  back the finite states it writes.  The updates that took effect did
  so one at a time, each on the state the one before it left, the first
  on the empty state; those of each writer are among its changes, in
  its order, none twice.  The document is missing exactly while none
  took effect, and a read at any moment finds the whole state they
  leave.  At most one writer is between taking the lock and renaming.
  The version counts the changes that took effect, no hotkey is listed
  twice, and every hotkey whose registration took effect is listed.
-/
theorem document_replays_updates
    {δ : Type}
    [StateCodec δ]
    (hCodec : StateCodec.ReadsBack δ)
    {P : UpdatePaths}
    (hApart : P.lock ≠ P.doc)
    (hTemp : ∀ pid, P.temp pid ≠ P.doc ∧ P.temp pid ≠ P.lock)
    {jobs : Nat → List Change}
    (hFinite : ∀ pid, ∀ c ∈ jobs pid, c.RowFinite)
    {sys : Writers δ}
    {log : List Commit}
    (hReach : Writers.Reach P jobs sys log) :
    let state := Commit.stateAfter log
    Commit.Chained SharedState.empty log ∧
      (∀ pid, (Commit.committedBy log pid).Sublist (jobs pid)) ∧
      (sys.volume.entry P.doc = none ↔ log = []) ∧
      sys.volume.readState P.doc = .ok state ∧
      (∀ p q i j, (sys.writer p).stage.held = some i → (sys.writer q).stage.held = some j → p = q) ∧
      state.version = UInt64.ofNat (SharedState.empty.effects (log.map (·.change))) ∧
      state.neurons.Nodup ∧
      ∀ c ∈ log, ∀ hotkey, c.change = .register hotkey → hotkey ∈ state.neurons := by
  intro state
  have h := hReach.inv hCodec hApart hTemp hFinite
  obtain ⟨hConsistent, hVersion⟩ :=
    SharedState.replay_consistent SharedState.empty_consistent (log.map (·.change))
  refine ⟨h.chained, ?_, ?_, h.readState_doc hCodec hFinite,
    fun p q i j hp hq => h.held_unique hp hq, ?_, hConsistent.nodup, ?_⟩
  · -- a writer's finished changes come before its pending ones
    intro pid
    obtain ⟨done, hJobs, hSub⟩ := h.jobs pid
    rw [hJobs]
    exact hSub.trans (List.sublist_append_left _ _)
  · rcases h.document with ⟨hNone, hLog⟩ | ⟨hLog, j, hj, -⟩
    · exact ⟨fun _ => hLog, fun _ => hNone⟩
    · rw [hj]
      exact ⟨(fun hNone => by cases hNone), fun hNil => absurd hNil hLog⟩
  · rw [show state = SharedState.empty.replay (log.map (·.change)) from rfl, hVersion]
    exact UInt64.zero_add _
  · intro c hc hotkey hRegister
    exact SharedState.mem_replay_of_register (List.mem_map.mpr ⟨c, hc, hRegister⟩)

/- Four writers, each registering and then publishing ten rows. -/
def fourWriters : Nat → List Change
  | 0 => .register "w0" :: List.replicate 10 (.applyRow "w0" [1])
  | 1 => .register "w1" :: List.replicate 10 (.applyRow "w1" [1, 0])
  | 2 => .register "w2" :: List.replicate 10 (.applyRow "w2" [0, 1])
  | 3 => .register "w3" :: List.replicate 10 (.applyRow "w3" [1, 1, 1])
  | _ => []

/- Each of `n` writers takes a step in turn, for `rounds` rounds. -/
def roundRobin
    (n rounds : Nat) : List Action :=
  (List.replicate rounds ((List.range n).map .advance)).flatten

/- The document "metagraph.json", with the lock and temporary files the store puts beside it. -/
def metagraphPaths : UpdatePaths :=
  ⟨"metagraph.json", "metagraph.lock", fun pid => "metagraph.tmp." ++ toString pid⟩

/- A temporary file's name is longer than the document's and the lock's. -/
theorem metagraphPaths_apart
    (pid : Nat) :
    metagraphPaths.temp pid ≠ metagraphPaths.doc ∧ metagraphPaths.temp pid ≠ metagraphPaths.lock := by
  -- both other names are as long as the temporary file's before its process id
  have hApart : ∀ t : String, t.length = 14 → "metagraph.tmp." ≠ t →
      "metagraph.tmp." ++ toString pid ≠ t := by
    intro t ht hNe hEq
    have hLength := congrArg String.length hEq
    have hPrefix : "metagraph.tmp.".length = 14 := by decide
    rw [String.length_append, ht, hPrefix] at hLength
    have hEmpty : toString pid = "" := String.length_eq_zero_iff.mp (by omega)
    rw [hEmpty, String.append_empty] at hEq
    exact hNe hEq
  exact ⟨hApart _ (by decide) (by decide), hApart _ (by decide) (by decide)⟩

theorem fourWriters_finite
    (pid : Nat) :
    ∀ c ∈ fourWriters pid, c.RowFinite := by
  -- registrations have no row, and each writer publishes one finite row ten times
  intro c hc
  match pid, hc with
  | 0, hc | 1, hc | 2, hc | 3, hc =>
    simp only [fourWriters, List.mem_cons, List.mem_replicate] at hc
    rcases hc with rfl | ⟨-, rfl⟩
    · trivial
    · simp only [SharedState.Change.RowFinite]
      decide
  | _ + 4, hc => cases hc

/-
  Four writers, each registering and then publishing ten rows, stepping
  in turn from before the document exists: while one holds the lock the
  others wait for it, and after 144 rounds all 44 updates have taken
  effect, one at a time, leaving version 44.
-/
set_option maxRecDepth 100000 in
theorem document_replays_four_writers :
    let r := (Writers.start fourWriters : Writers SharedState).run metagraphPaths (roundRobin 4 144)
    let state := Commit.stateAfter r.2
    StateCodec.ReadsBack SharedState ∧ metagraphPaths.lock ≠ metagraphPaths.doc ∧
      (∀ pid, metagraphPaths.temp pid ≠ metagraphPaths.doc ∧
        metagraphPaths.temp pid ≠ metagraphPaths.lock) ∧
      (∀ pid, ∀ c ∈ fourWriters pid, c.RowFinite) ∧
      Writers.Reach metagraphPaths fourWriters r.1 r.2 ∧
      r.2.length = 44 ∧ state.version = 44 ∧
      Commit.Chained SharedState.empty r.2 ∧
      (∀ pid, (Commit.committedBy r.2 pid).Sublist (fourWriters pid)) ∧
      (r.1.volume.entry metagraphPaths.doc = none ↔ r.2 = []) ∧
      r.1.volume.readState metagraphPaths.doc = .ok state ∧
      (∀ p q i j, (r.1.writer p).stage.held = some i → (r.1.writer q).stage.held = some j →
        p = q) ∧
      state.version = UInt64.ofNat (SharedState.empty.effects (r.2.map (·.change))) ∧
      state.neurons.Nodup ∧
      ∀ c ∈ r.2, ∀ hotkey, c.change = .register hotkey → hotkey ∈ state.neurons := by
  intro r state
  have hReach : Writers.Reach metagraphPaths fourWriters r.1 r.2 := by
    simpa only [List.nil_append] using Writers.Reach.start.run (roundRobin 4 144)
  exact ⟨fun _ _ => rfl, by decide, metagraphPaths_apart, fourWriters_finite, hReach,
    by decide +kernel, by decide +kernel,
    document_replays_updates (fun _ _ => rfl) (by decide) metagraphPaths_apart fourWriters_finite
      hReach⟩

------------------------------------------------------------
-- A Document that is its Own Lock
------------------------------------------------------------

namespace Disk

variable {δ : Type} [StateCodec δ] {d : Disk δ}

/- Opening a lock at the document's own path makes a missing document the blank one. -/
theorem openLock_of_shared
    (hShared : d.lockPath = d.docPath)
    (hMissing : d.doc = .missing) :
    d.openLock = { d with doc := .file StateCodec.blank } := by
  unfold openLock
  rw [hMissing]
  exact if_pos hShared

/-
  With the lock at the document's own path, the first update of a
  missing document reads the blank one the lock made; when that does
  not read, the update fails and leaves it there.
-/
theorem update_of_shared
    {α : Type}
    {e : Error}
    (hShared : d.lockPath = d.docPath)
    (hMissing : d.doc = .missing)
    (hOpens : d.lockIsDirectory = false)
    (hFree : d.lockHeld = false)
    (hBlank : StateCodec.decode (StateCodec.blank : δ) = .error e)
    (f : SharedState → Outcome (α × SharedState)) :
    d.update f = ({ d with doc := .file StateCodec.blank }, .error e) := by
  unfold update
  rw [if_neg (by simp [hOpens]), openLock_of_shared hShared hMissing]
  simp [lock, read, hOpens, hFree, hBlank, bind, Except.bind]

end Disk

namespace Session

/- A registration the store refuses is answered by its failure. -/
theorem handle_register_failed
    {β : Type}
    {st : Store β}
    {ses : Session β}
    {hotkey : String}
    {b : β}
    {e : Error}
    (hRegister : st.register ses.store hotkey = (b, .error e)) :
    (ses.handle st (.register hotkey)).2 = .failed e ∧ (ses.handle st (.register hotkey)).1.store = b := by
  rw [← touch_store ses hotkey] at hRegister
  rw [handle]
  simp only [hRegister, and_self]

end Session

/- The error a reply reports, if it is a failure. -/
def Reply.failure? : Reply → Option Error
  | .failed e => some e
  | _ => none

/- An empty JSON document does not read: the text ends before a value. -/
theorem SharedState.readDocument_blank :
    SharedState.readDocument "" =
      .error (.serialization "EOF while parsing a value at line 1 column 0") := by
  -- the reader's first step, unfolded once, meets the end of the text
  have hFails : (SharedState.readDocument "").map (fun _ => ()) =
      .error (.serialization "EOF while parsing a value at line 1 column 0") := by
    simp only [SharedState.readDocument, Json.readAs, Json.readBytesAs, Json.maxDepth]
    rw [show (128 : Nat) = 127 + 1 from rfl, Json.Reader.typed.eq_2]
    decide +kernel
  cases hRead : SharedState.readDocument "" with
  | error e =>
      rw [hRead] at hFails
      cases hFails
      rfl
  | ok s =>
      rw [hRead] at hFails
      cases hFails

/-
  A JSON document named "mg.lock" is its own lock file: the first
  registration on it fails, leaving an empty document, where a store in
  memory registers the hotkey.
-/
theorem lock_on_document_refuses_registration :
    let disk := (⟨Disk.fresh "data/mg.lock" "data/mg.lock" 0, []⟩ : Session Disk).handleAll
      Store.disk [.register "a"]
    let memory := (⟨SharedState.empty, []⟩ : Session SharedState).handleAll Store.memory
      [.register "a"]
    disk.2.map Reply.failure? =
        [some (.serialization "EOF while parsing a value at line 1 column 0")] ∧
      disk.1.store.doc = .file "" ∧
      memory.2.map Reply.failure? = [none] := by
  intro disk memory
  have hRegister : Store.disk.register
      (⟨Disk.fresh "data/mg.lock" "data/mg.lock" 0, []⟩ : Session Disk).store "a" =
      ({ (Disk.fresh "data/mg.lock" "data/mg.lock" 0 : Disk) with doc := .file "" },
        .error (.serialization "EOF while parsing a value at line 1 column 0")) :=
    Disk.update_of_shared rfl rfl rfl rfl SharedState.readDocument_blank _
  obtain ⟨hReply, hStore⟩ := Session.handle_register_failed hRegister
  refine ⟨?_, ?_, by decide +kernel⟩
  · simp only [disk, Session.handleAll, List.map, hReply, Reply.failure?]
  · simp only [disk, Session.handleAll, hStore]

end NeuronFleet
