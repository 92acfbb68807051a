import Mathlib
import NeuronFleet.Serve

/-
  A pass of the peer-scoring model over a batch.

  A pass reads every sequence first: it splits off the target, checks
  it against the vocabulary, and encodes the context from the table,
  whose rows refuse only a token outside it.  Only then does it gather
  losses, weight rows and gradients, and only after the losses are
  found finite does it step the model.  So a pass that fails leaves the
  model as it was, and names why: an empty batch, a refused sequence
  (`Refusal`), or a loss that is not finite.  A pass that succeeds
  gives one weight row over the peers per sequence, and, when it
  trains, steps each head once along its batch-mean gradient: for each
  output, the slopes of the sequences times their encodings, summed in
  order and scaled by one over their number (`meanGradient`).  The
  gradients are gathered output by output in one loop over the
  sequences; `foldl_gathers` reads that loop as one sum per output.

  Main declarations:
    * `FullTable.accumulateRow_cases`, `PeerModel.Refusal`, `PeerModel.read_eq_error`
    * `PeerModel.meanGradient`, `PeerModel.foldl_gathers`
    * `PeerModel.forward_eq_ok`, `PeerModel.forward_eq_error`, `PeerModel.resizePeers_spec`
    * `PeerModel.forward_steps_once_or_keeps`
-/

namespace NeuronFleet

------------------------------------------------------------
-- Reading Rows of a Full Table
------------------------------------------------------------

namespace FullTable

theorem accumulateRow_of_error
    {t : FullTable}
    {r : Nat}
    {out : List F32}
    {e : Error}
    (h : t.toParameterTable.accumulateRow r out = .error (.error e)) :
    t.accumulateRow r out = .error e := by
  unfold FullTable.accumulateRow
  split
  next v hv => rw [h] at hv; cases hv
  next e' he => rw [h] at he; cases he; rfl
  next ha => rw [h] at ha; cases ha

theorem accumulateRow_of_ok
    {t : FullTable}
    {r : Nat}
    {out v : List F32}
    (h : t.toParameterTable.accumulateRow r out = .ok v) :
    t.accumulateRow r out = .ok v := by
  unfold FullTable.accumulateRow
  split
  next v' hv => rw [h] at hv; cases hv; rfl
  next e' he => rw [h] at he; cases he
  next ha => rw [h] at ha; cases ha

/- Reading row `r` into a buffer as wide as the table gives a buffer as
wide, or refuses a token outside the table. -/
theorem accumulateRow_cases
    (t : FullTable)
    (r : Nat)
    {out : List F32}
    (hOut : out.length = t.header.cols) :
    (∃ v, t.accumulateRow r out = .ok v ∧ v.length = out.length) ∨
      (t.header.rows ≤ r ∧ t.accumulateRow r out = .error (.model ("token " ++ toString r ++
        " outside vocabulary of " ++ toString t.header.rows))) := by
  by_cases hr : r < t.header.rows
  · obtain ⟨hSpan, hEnd⟩ := ParameterTable.rowSpan_of_full t.full hr
    refine .inl ⟨_, accumulateRow_of_ok
      (ParameterTable.accumulateRow_of_span hr hOut hSpan (by omega) hEnd), by simp⟩
  · refine .inr ⟨by omega, accumulateRow_of_error ?_⟩
    simp [ParameterTable.accumulateRow, hr, bind, Except.bind, throw, throwThe, MonadExceptOf.throw]

/- Adding the rows of tokens one after another into a buffer as wide as
the table stops only at a token outside the table. -/
theorem foldlM_accumulateRow_eq_error
    {t : FullTable}
    {context : List Nat}
    {out : List F32}
    {e : Error}
    (hOut : out.length = t.header.cols)
    (h : context.foldlM (fun h r => t.accumulateRow r h) out = .error e) :
    ∃ r ∈ context, t.header.rows ≤ r ∧
      e = .model ("token " ++ toString r ++ " outside vocabulary of " ++ toString t.header.rows) := by
  induction context generalizing out with
  | nil => cases h
  | cons r rest ih =>
      rw [List.foldlM_cons] at h
      rcases accumulateRow_cases t r hOut with ⟨v, hv, hLength⟩ | ⟨hr, hRefused⟩
      · simp only [hv, bind, Except.bind] at h
        obtain ⟨r', hMem, hr', rfl⟩ := ih (hLength.trans hOut) h
        exact ⟨r', List.mem_cons_of_mem _ hMem, hr', rfl⟩
      · simp only [hRefused, bind, Except.bind] at h
        cases h
        exact ⟨r, List.mem_cons_self, hr, rfl⟩

end FullTable

------------------------------------------------------------
-- Reading Sequences
------------------------------------------------------------

namespace PeerModel

theorem encode_eq_error
    {md : PeerModel}
    {context : List Nat}
    {e : Error}
    (h : md.encode context = .error e) :
    ∃ t ∈ context, md.table.header.rows ≤ t ∧
      e = .model ("token " ++ toString t ++ " outside vocabulary of " ++ toString md.table.header.rows) := by
  unfold encode at h
  simp only [bind, Except.bind, pure, Except.pure] at h
  split at h
  next e' hFold =>
    cases h
    exact FullTable.foldlM_accumulateRow_eq_error List.length_replicate hFold
  next => cases h

/- Why sequence `i` of a batch is refused, with the error it is refused
with: it has fewer than two tokens, its target is outside the
vocabulary, or a token of its context is outside the table. -/
inductive Refusal (md : PeerModel) (i : Nat) : List Nat → Error → Prop
  | short {sq : List Nat} : sq.length < 2 →
      Refusal md i sq (.model ("sequence " ++ toString i ++ " has " ++ toString sq.length ++
        " tokens, need at least 2"))
  | target {context : List Nat} {target : Nat} : context ≠ [] → md.tokenHead.outputs ≤ target →
      Refusal md i (context ++ [target])
        (.model ("target token " ++ toString target ++ " outside vocabulary"))
  | token {context : List Nat} {target t : Nat} : context ≠ [] → target < md.tokenHead.outputs →
      t ∈ context → md.table.header.rows ≤ t →
      Refusal md i (context ++ [target])
        (.model ("token " ++ toString t ++ " outside vocabulary of " ++ toString md.table.header.rows))

theorem read_eq_error
    {md : PeerModel}
    {i : Nat}
    {sq : List Nat}
    {e : Error}
    (h : md.read i sq = .error e) :
    Refusal md i sq e := by
  unfold read at h
  simp only [bind, Except.bind, pure, Except.pure, throw, throwThe, MonadExceptOf.throw] at h
  -- the last token is the target, and the context must not be empty
  rcases hRev : sq.reverse with _ | ⟨target, _ | ⟨u, rest⟩⟩
  case nil | cons.nil =>
    have hShort : sq.length < 2 := by
      have hLength := congrArg List.length hRev
      simp only [List.length_reverse, List.length_nil, List.length_cons] at hLength
      omega
    simp only [hRev] at h
    cases h
    exact .short hShort
  case cons.cons =>
    have hSq : sq = (u :: rest).reverse ++ [target] := List.reverse_eq_cons_iff.mp hRev
    simp only [hRev] at h
    split_ifs at h with hTarget
    · cases h
      rw [hSq]
      exact .target (by simp) hTarget
    · split at h
      next e' hEncode =>
        cases h
        obtain ⟨t, hMem, ht, rfl⟩ := encode_eq_error hEncode
        rw [hSq]
        exact .token (by simp) (by omega) hMem ht
      next => cases h

------------------------------------------------------------
-- Gathering Gradients
------------------------------------------------------------

/- The batch-mean gradient of an output whose slope on a sequence read
as `x` is `slope x`: the sum, in order, of each sequence's slope times
its encoding, with the slope itself for the bias, over the number of
sequences. -/
def meanGradient
    (dim : Nat)
    (reads : List (List F32 × Nat))
    (slope : List F32 × Nat → F32) :
    Grad :=
  Grad.scale (1 / F32.ofNat reads.length) (reads.foldl (fun g x => g.add (slope x) x.1) (Grad.zero dim))

/- The slope of token output `r` on a sequence read as the encoding `h`
with its target: the output's probability, less one at the target. -/
def tokenSlope
    (md : PeerModel)
    (h : List F32)
    (target r : Nat) :
    F32 :=
  (softmax (md.tokenHead.logits h)).getD r 0 - if r = target then 1 else 0

/- The slope of peer output `r` on a sequence read as the encoding `h`:
the peer's weight less the uniform weight. -/
def peerSlope
    (md : PeerModel)
    (h : List F32)
    (r : Nat) :
    F32 :=
  (softmax (md.peerHead.logits h)).getD r 0 - 1 / F32.ofNat md.nPeers

theorem length_softmax_logits
    (hd : Head)
    (h : List F32) :
    (softmax (hd.logits h)).length = hd.outputs := by
  simp [softmax, Head.logits, Head.outputs]

theorem take_weights
    (md : PeerModel)
    (update : Bool)
    (acc : Pass)
    (h : List F32)
    (target : Nat) :
    (md.take update acc h target).weights = acc.weights ++ [softmax (md.peerHead.logits h)] := rfl

/- A sequence adds its slope times its encoding to the gradient of each token output. -/
theorem take_tokenGrads
    {md : PeerModel}
    {acc : Pass}
    {f : Nat → Grad}
    (hAcc : acc.tokenGrads = (List.range md.tokenHead.outputs).map f)
    (h : List F32)
    (target : Nat) :
    (md.take true acc h target).tokenGrads =
      (List.range md.tokenHead.outputs).map fun r => (f r).add (md.tokenSlope h target r) h := by
  have hLength := length_softmax_logits md.tokenHead h
  apply List.ext_getElem
  · simp [take, hAcc, hLength]
  · intro r _ hr
    have hInside : r < (softmax (md.tokenHead.logits h)).length := by rw [hLength]; simpa using hr
    simp [take, hAcc, tokenSlope, List.getElem_zipWith, List.getElem?_eq_getElem hInside]

/- A sequence adds its slope times its encoding to the gradient of each peer output. -/
theorem take_peerGrads
    {md : PeerModel}
    {acc : Pass}
    {f : Nat → Grad}
    (hAcc : acc.peerGrads = (List.range md.nPeers).map f)
    (h : List F32)
    (target : Nat) :
    (md.take true acc h target).peerGrads =
      (List.range md.nPeers).map fun r => (f r).add (md.peerSlope h r) h := by
  have hLength := length_softmax_logits md.peerHead h
  apply List.ext_getElem
  · simp [take, hAcc, hLength, nPeers]
  · intro r _ hr
    have hInside : r < (softmax (md.peerHead.logits h)).length := by
      rw [hLength]; simpa [nPeers] using hr
    simp [take, hAcc, peerSlope, List.getElem_zipWith, List.getElem?_eq_getElem hInside]

/- A loop over sequences whose every step adds, to each of `n` gradients,
its slope on the sequence times the sequence's encoding, is one sum of
slopes per gradient: the loop read output by output. -/
theorem foldl_gathers
    {n : Nat}
    (grads : Pass → List Grad)
    (step : Pass → List F32 × Nat → Pass)
    (slope : List F32 × Nat → Nat → F32)
    (hStep : ∀ acc x f, grads acc = (List.range n).map f →
      grads (step acc x) = (List.range n).map fun r => (f r).add (slope x r) x.1)
    (reads : List (List F32 × Nat))
    {acc : Pass}
    {f : Nat → Grad}
    (hAcc : grads acc = (List.range n).map f) :
    grads (reads.foldl step acc) =
      (List.range n).map fun r => reads.foldl (fun g x => g.add (slope x r) x.1) (f r) := by
  induction reads generalizing acc f with
  | nil => exact hAcc
  | cons x rest ih => exact ih (hStep acc x f hAcc)

theorem foldl_take_tokenGrads
    {md : PeerModel}
    (reads : List (List F32 × Nat))
    {acc : Pass}
    {f : Nat → Grad}
    (hAcc : acc.tokenGrads = (List.range md.tokenHead.outputs).map f) :
    (reads.foldl (fun acc x => md.take true acc x.1 x.2) acc).tokenGrads =
      (List.range md.tokenHead.outputs).map fun r =>
        reads.foldl (fun g x => g.add (md.tokenSlope x.1 x.2 r) x.1) (f r) :=
  foldl_gathers Pass.tokenGrads _ (fun x r => md.tokenSlope x.1 x.2 r)
    (fun _ x _ hAcc => take_tokenGrads hAcc x.1 x.2) reads hAcc

theorem foldl_take_peerGrads
    {md : PeerModel}
    (reads : List (List F32 × Nat))
    {acc : Pass}
    {f : Nat → Grad}
    (hAcc : acc.peerGrads = (List.range md.nPeers).map f) :
    (reads.foldl (fun acc x => md.take true acc x.1 x.2) acc).peerGrads =
      (List.range md.nPeers).map fun r => reads.foldl (fun g x => g.add (md.peerSlope x.1 r) x.1) (f r) :=
  foldl_gathers Pass.peerGrads _ (fun x r => md.peerSlope x.1 r)
    (fun _ x _ hAcc => take_peerGrads hAcc x.1 x.2) reads hAcc

theorem foldl_take_weights
    (md : PeerModel)
    (update : Bool)
    (reads : List (List F32 × Nat))
    (acc : Pass) :
    (reads.foldl (fun acc x => md.take update acc x.1 x.2) acc).weights =
      acc.weights ++ reads.map fun x => softmax (md.peerHead.logits x.1) := by
  induction reads generalizing acc with
  | nil => simp
  | cons x rest ih => rw [List.foldl_cons, ih, take_weights, List.map_cons, List.append_assoc]; rfl

theorem length_of_mapM_eq_ok
    {α β : Type}
    {f : α → Outcome β}
    {L : List α}
    {ys : List β}
    (h : L.mapM f = .ok ys) :
    ys.length = L.length := by
  induction L generalizing ys with
  | nil => simp [pure, Except.pure] at h; subst h; rfl
  | cons x rest ih =>
      simp only [List.mapM_cons, bind, Except.bind, pure, Except.pure] at h
      split at h
      next => cases h
      next y hy =>
        split at h
        next => cases h
        next ys' hRest =>
          cases h
          simp [ih hRest]

/- The batch's gradients, gathered from a fresh pass and scaled by one
over the number of sequences, are the batch-mean gradients. -/
theorem scaled_tokenGrads
    (md : PeerModel)
    (reads : List (List F32 × Nat)) :
    (reads.foldl (fun acc x => md.take true acc x.1 x.2) md.freshPass).tokenGrads.map
        (Grad.scale (1 / F32.ofNat reads.length)) =
      (List.range md.tokenHead.outputs).map fun r =>
        meanGradient md.table.header.cols reads fun x => md.tokenSlope x.1 x.2 r := by
  rw [foldl_take_tokenGrads reads (f := fun _ => Grad.zero md.table.header.cols) (by simp [freshPass]),
    List.map_map]
  rfl

theorem scaled_peerGrads
    (md : PeerModel)
    (reads : List (List F32 × Nat)) :
    (reads.foldl (fun acc x => md.take true acc x.1 x.2) md.freshPass).peerGrads.map
        (Grad.scale (1 / F32.ofNat reads.length)) =
      (List.range md.nPeers).map fun r =>
        meanGradient md.table.header.cols reads fun x => md.peerSlope x.1 r := by
  rw [foldl_take_peerGrads reads (f := fun _ => Grad.zero md.table.header.cols) (by simp [freshPass]),
    List.map_map]
  rfl

------------------------------------------------------------
-- Passes
------------------------------------------------------------

theorem forward_eq_ok
    {md : PeerModel}
    {batch : List (List Nat)}
    {training remote : Bool}
    {md' : PeerModel}
    {s : Scores}
    (h : md.forward batch training remote = .ok (md', s)) :
    ∃ reads, (batch.zipIdx.mapM fun (sq, i) => md.read i sq) = .ok reads ∧
      s.weights = reads.map (fun x => softmax (md.peerHead.logits x.1)) ∧
      md' = if training && md.training then
        { md with
          tokenHead := md.tokenHead.step md.learningRate md.momentum
            ((List.range md.tokenHead.outputs).map fun r =>
              meanGradient md.table.header.cols reads fun x => md.tokenSlope x.1 x.2 r)
          peerHead := md.peerHead.step md.learningRate md.momentum
            ((List.range md.nPeers).map fun r =>
              meanGradient md.table.header.cols reads fun x => md.peerSlope x.1 r)
          steps := md.steps + 1 }
      else md := by
  unfold forward at h
  simp only [bind, Except.bind, pure, Except.pure, throw, throwThe, MonadExceptOf.throw] at h
  by_cases hEmpty : batch.isEmpty = true
  · simp only [hEmpty, if_true] at h
    cases h
  simp only [hEmpty, Bool.false_eq_true, if_false] at h
  split at h
  next => cases h
  next reads hReads =>
    have hLength : batch.length = reads.length :=
      ((length_of_mapM_eq_ok hReads).trans List.length_zipIdx).symm
    have hWeights := foldl_take_weights md (training && md.training) reads md.freshPass
    refine ⟨reads, hReads, ?_⟩
    rw [hLength] at h
    -- only finite losses give a result; the model steps exactly when it trains
    split at h
    next => cases h
    next =>
      split at h
      next hUpdate =>
        simp only [hUpdate] at h hWeights
        cases h
        rw [if_pos hUpdate, scaled_tokenGrads, scaled_peerGrads]
        exact ⟨by simpa [freshPass] using hWeights, rfl⟩
      next hUpdate =>
        cases h
        rw [if_neg hUpdate]
        exact ⟨by simpa [freshPass] using hWeights, rfl⟩

theorem exists_of_mapM_eq_error
    {α β : Type}
    {f : α → Outcome β}
    {L : List α}
    {e : Error}
    (h : L.mapM f = .error e) :
    ∃ x ∈ L, f x = .error e := by
  induction L with
  | nil => simp [pure, Except.pure] at h
  | cons x rest ih =>
      simp only [List.mapM_cons, bind, Except.bind, pure, Except.pure] at h
      split at h
      next e' hx =>
        cases h
        exact ⟨x, List.mem_cons_self, hx⟩
      next =>
        split at h
        next e' hRest =>
          cases h
          obtain ⟨y, hMem, hy⟩ := ih hRest
          exact ⟨y, List.mem_cons_of_mem _ hMem, hy⟩
        next => cases h

/- A pass fails on an empty batch, on the first sequence it refuses, or
on a loss that is not finite. -/
theorem forward_eq_error
    {md : PeerModel}
    {batch : List (List Nat)}
    {training remote : Bool}
    {e : Error}
    (h : md.forward batch training remote = .error e) :
    (batch = [] ∧ e = .model "empty batch") ∨
      (∃ i, ∃ hi : i < batch.length, Refusal md i batch[i] e) ∨
      ∃ l d : F32, (l.isFinite = false ∨ d.isFinite = false) ∧
        e = .model ("non-finite loss (local=" ++ Decimal.displayLayout.writeF32 l ++
          ", distillation=" ++ Decimal.displayLayout.writeF32 d ++ ")") := by
  unfold forward at h
  simp only [bind, Except.bind, pure, Except.pure, throw, throwThe, MonadExceptOf.throw] at h
  by_cases hEmpty : batch.isEmpty = true
  · simp only [hEmpty, if_true] at h
    cases h
    exact .inl ⟨List.isEmpty_iff.mp hEmpty, rfl⟩
  simp only [hEmpty, Bool.false_eq_true, if_false] at h
  split at h
  next e' hReads =>
    cases h
    obtain ⟨⟨sq, i⟩, hMem, hRead⟩ := exists_of_mapM_eq_error hReads
    obtain ⟨hi, hAt⟩ := List.getElem?_eq_some_iff.mp (List.mem_zipIdx_iff_getElem?.mp hMem)
    dsimp only at hi hAt hRead
    rw [← hAt] at hRead
    exact .inr (.inl ⟨i, hi, read_eq_error hRead⟩)
  next reads hReads =>
    split at h
    next hFinite =>
      cases h
      refine .inr (.inr ⟨_, _, ?_, rfl⟩)
      simpa using hFinite
    next => split at h <;> cases h

/- Widening the peer head keeps its rows and adds rows of zeros at rest;
narrowing it is refused. -/
theorem resizePeers_spec
    (md : PeerModel)
    (n : Nat) :
    (n < md.nPeers → PeerModel.learner.resizePeers md n =
      (md, .error (.model ("cannot shrink peer head from " ++ toString md.nPeers ++ " to " ++
        toString n)))) ∧
    (md.nPeers ≤ n → ∃ md', PeerModel.learner.resizePeers md n = (md', .ok ()) ∧
      md' = { md with peerHead := md'.peerHead } ∧ md'.peerHead.width = md.peerHead.width ∧
      md'.nPeers = n ∧ md'.peerHead.units.take md.nPeers = md.peerHead.units ∧
      ∀ u ∈ md'.peerHead.units.drop md.nPeers,
        u.bias = Param.ofValue 0 ∧ u.weights = List.replicate md.peerHead.width (Param.ofValue 0)) := by
  constructor
  · intro hn
    simp [PeerModel.learner, resizePeers, hn]
  · intro hn
    have hUnits : (md.peerHead.grow n).units = md.peerHead.units ++
        List.replicate (n - md.nPeers) ⟨List.replicate md.peerHead.width (Param.ofValue 0), Param.ofValue 0⟩ :=
      rfl
    refine ⟨{ md with peerHead := md.peerHead.grow n },
      by simp [PeerModel.learner, resizePeers, Nat.not_lt.mpr hn], rfl, rfl, ?_, ?_, ?_⟩
    · simp only [nPeers, Head.outputs, hUnits, List.length_append, List.length_replicate]
      simp only [nPeers, Head.outputs] at hn
      omega
    · simp [hUnits, nPeers, Head.outputs]
    · intro u hu
      rw [hUnits, nPeers, Head.outputs, List.drop_left] at hu
      obtain ⟨-, rfl⟩ := List.mem_replicate.mp hu
      exact ⟨rfl, rfl⟩

/-
  A pass of the model, as the serving loop runs it.  A pass that fails
  leaves the model as it was, and fails for a reason the batch shows: it
  is empty, a sequence is refused, or a loss is not finite.  A pass that
  succeeds gives one weight row over the peers per sequence; it steps
  every parameter of both heads once, along the batch-mean gradient, and
  counts the step, when it trains, and otherwise leaves the model as it
  was.  Widening the peer head keeps its rows and adds rows of zeros;
  narrowing it is refused and changes nothing.
-/
theorem forward_steps_once_or_keeps
    (md : PeerModel)
    (batch : List (List Nat))
    (training remote : Bool) :
    (∀ e, (PeerModel.learner.forward md batch training remote).2 = .error e →
      (PeerModel.learner.forward md batch training remote).1 = md ∧
      ((batch = [] ∧ e = .model "empty batch") ∨
        (∃ i, ∃ hi : i < batch.length, Refusal md i batch[i] e) ∨
        ∃ l d : F32, (l.isFinite = false ∨ d.isFinite = false) ∧
          e = .model ("non-finite loss (local=" ++ Decimal.displayLayout.writeF32 l ++
            ", distillation=" ++ Decimal.displayLayout.writeF32 d ++ ")"))) ∧
    (∀ s, (PeerModel.learner.forward md batch training remote).2 = .ok s →
      ∃ reads, (batch.zipIdx.mapM fun (sq, i) => md.read i sq) = .ok reads ∧
        s.weights = reads.map (fun x => softmax (md.peerHead.logits x.1)) ∧
        s.weights.length = batch.length ∧ (∀ w ∈ s.weights, w.length = md.nPeers) ∧
        (PeerModel.learner.forward md batch training remote).1 =
          if training && md.training then
            { md with
              tokenHead := md.tokenHead.step md.learningRate md.momentum
                ((List.range md.tokenHead.outputs).map fun r =>
                  meanGradient md.table.header.cols reads fun x => md.tokenSlope x.1 x.2 r)
              peerHead := md.peerHead.step md.learningRate md.momentum
                ((List.range md.nPeers).map fun r =>
                  meanGradient md.table.header.cols reads fun x => md.peerSlope x.1 r)
              steps := md.steps + 1 }
          else md) ∧
    ∀ n, (n < md.nPeers → PeerModel.learner.resizePeers md n =
        (md, .error (.model ("cannot shrink peer head from " ++ toString md.nPeers ++ " to " ++
          toString n)))) ∧
      (md.nPeers ≤ n → ∃ md', PeerModel.learner.resizePeers md n = (md', .ok ()) ∧
        md' = { md with peerHead := md'.peerHead } ∧ md'.peerHead.width = md.peerHead.width ∧
        md'.nPeers = n ∧ md'.peerHead.units.take md.nPeers = md.peerHead.units ∧
        ∀ u ∈ md'.peerHead.units.drop md.nPeers,
          u.bias = Param.ofValue 0 ∧ u.weights = List.replicate md.peerHead.width (Param.ofValue 0)) := by
  refine ⟨fun e hFails => ?_, fun s hRuns => ?_, resizePeers_spec md⟩
  · -- the learner keeps the model whenever the pass fails
    cases hForward : md.forward batch training remote with
    | error e' =>
        have hKept : (PeerModel.learner.forward md batch training remote).1 = md := by
          simp [PeerModel.learner, hForward]
        simp only [PeerModel.learner, hForward, Except.error.injEq] at hFails
        subst hFails
        exact ⟨hKept, forward_eq_error hForward⟩
    | ok r => simp [PeerModel.learner, hForward] at hFails
  · cases hForward : md.forward batch training remote with
    | error e => simp [PeerModel.learner, hForward] at hRuns
    | ok r =>
        obtain ⟨md', s'⟩ := r
        simp only [PeerModel.learner, hForward, Except.ok.injEq] at hRuns ⊢
        subst hRuns
        obtain ⟨reads, hReads, hWeights, hModel⟩ := forward_eq_ok hForward
        have hLength : reads.length = batch.length :=
          (length_of_mapM_eq_ok hReads).trans List.length_zipIdx
        refine ⟨reads, hReads, hWeights, by rw [hWeights, List.length_map, hLength], ?_, hModel⟩
        intro w hw
        rw [hWeights] at hw
        obtain ⟨x, -, rfl⟩ := List.mem_map.mp hw
        exact length_softmax_logits md.peerHead x.1

/- A table of one row of one value, `1.0`, after eight bytes. -/
def unitTable : FullTable :=
  ⟨⟨⟨1, 1, 0⟩, ⟨#[0, 0, 0, 0, 0, 0, 0, 0, 0, 0, 128, 63]⟩, 8⟩, by decide⟩

/- A training model over `unitTable`: one token, one peer, every
parameter zero. -/
def unitModel : PeerModel :=
  ⟨unitTable, ⟨1, [⟨[⟨0, 0⟩], ⟨0, 0⟩⟩]⟩, ⟨1, [⟨[⟨0, 0⟩], ⟨0, 0⟩⟩]⟩, 1, 0, .cpu, true, 0⟩

theorem short_second_sequence_keeps_model :
    PeerModel.learner.forward unitModel [[0, 0], [0]] true false =
      (unitModel, .error (.model "sequence 1 has 1 tokens, need at least 2")) := by
  have hFails : (PeerModel.learner.forward unitModel [[0, 0], [0]] true false).2 =
      .error (.model "sequence 1 has 1 tokens, need at least 2") := rfl
  obtain ⟨hKept, -⟩ := (forward_steps_once_or_keeps unitModel [[0, 0], [0]] true false).1 _ hFails
  exact Prod.ext hKept hFails

end PeerModel

end NeuronFleet
