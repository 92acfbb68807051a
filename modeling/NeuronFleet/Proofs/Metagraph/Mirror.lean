import NeuronFleet.Proofs.Metagraph.Changes
import NeuronFleet.Metagraph.Store

/-
  Handles on a document on disk and handles on a store in memory.

  A disk whose document reads back a state, under a free lock, mirrors
  that state.  On a mirroring disk, registering and publishing a finite
  row do what they do in memory and write the result, which the codec
  reads back when it reads back finite states; a publication that fails
  leaves the disk alone, and waiting for inclusion finds the row.  The
  two stores thus agree, and handles on them answer every run of
  requests alike.  A row holding NaN breaks this: it is never found
  when waited for, and the JSON codec writes it as `null`, which does
  not read back.

  Main declarations:
    * `SharedState.Finite`, `StateCodec.ReadsBack`, `Disk.Mirrors`
    * `Store.Agree`, `Store.disk_agrees_memory`, `Session.handleAll_agree`
    * `disk_handles_agree_with_memory`, `nan_row_refused_on_disk`
-/

namespace NeuronFleet

theorem F32.beq_self_of_isFinite
    {x : F32}
    (hx : x.isFinite = true) :
    (x == x) = true := by
  unfold isFinite at hx
  split at hx
  case h_1 negative magnitude hValue =>
    show Binary.Format.eq _ _ _ = true
    unfold value at hValue
    simp [Binary.Format.eq, Binary.Format.compare, hValue]
  case h_2 => cases hx

theorem F32.zero_isFinite :
    (0 : F32).isFinite = true := by
  decide

theorem WeightMatrix.mem_data_of_mem_rows
    {m : WeightMatrix}
    {r : List F32}
    {x : F32}
    (hr : r ∈ m.rows)
    (hx : x ∈ r) :
    x ∈ m.data := by
  unfold WeightMatrix.rows at hr
  obtain ⟨i, -, rfl⟩ := List.mem_map.mp hr
  exact List.mem_of_mem_drop (List.mem_of_mem_take hx)

/- Pairing a list with itself followed by more pairs each entry with itself. -/
theorem List.zip_append_self
    {α : Type}
    (l extra : List α) :
    l.zip (l ++ extra) = l.map fun a => (a, a) := by
  have hZip : (l ++ []).zip (l ++ extra) = l.zip l ++ [].zip extra := List.zip_append rfl
  rw [List.append_nil, List.zip_nil_left, List.append_nil] at hZip
  rw [hZip, List.zip, List.zipWith_self]

------------------------------------------------------------
-- Finite States
------------------------------------------------------------

namespace SharedState

/- Every weight of the state is a finite number. -/
def Finite
    (s : SharedState) : Prop :=
  ∀ x ∈ s.weights.data, x.isFinite = true

theorem empty_finite :
    empty.Finite := by
  intro x hx
  cases hx

/- Registering adds zeros only. -/
theorem register_finite
    {s : SharedState}
    (hs : s.Finite)
    (hotkey : String) :
    (s.register hotkey).2.Finite := by
  by_cases hMem : hotkey ∈ s.neurons
  case pos =>
    rw [register_of_mem hMem]
    exact hs
  case neg =>
    rw [register_of_not_mem hMem]
    intro x hx
    unfold WeightMatrix.grow at hx
    split at hx
    case isTrue => exact hs x hx
    case isFalse =>
      -- an entry of an old row, or a zero of the padding or of the new row
      simp only [List.mem_append, List.mem_flatten, List.mem_map, List.mem_replicate] at hx
      rcases hx with ⟨_, ⟨r, hr, rfl⟩, hx⟩ | ⟨-, rfl⟩
      · rcases List.mem_append.mp hx with hx | hx
        · exact hs x (WeightMatrix.mem_data_of_mem_rows hr hx)
        · rw [(List.mem_replicate.mp hx).2]
          exact F32.zero_isFinite
      · exact F32.zero_isFinite

/- Applying a finite row keeps the weights finite: the row is padded with zeros. -/
theorem applyRow_finite
    {s s' : SharedState}
    {hotkey : String}
    {row : List F32}
    {version : UInt64}
    (hs : s.Finite)
    (hRow : ∀ x ∈ row, x.isFinite = true)
    (hApply : s.applyRow hotkey row = .ok (version, s')) :
    s'.Finite := by
  obtain ⟨uid, weights, -, -, hSet, -, rfl⟩ := applyRow_eq_ok_iff.mp hApply
  rw [WeightMatrix.setRow_data hSet]
  intro x hx
  -- an entry before the row, of the padded row, or after it
  simp only [List.mem_append] at hx
  rcases hx with (hx | hx | hx) | hx
  · exact hs x (List.mem_of_mem_take hx)
  · exact hRow x hx
  · rw [(List.mem_replicate.mp hx).2]
    exact F32.zero_isFinite
  · exact hs x (List.mem_of_mem_drop hx)

/-
  A row applied is held, entry by entry, by the state it gives, when
  its entries are finite: a NaN entry is equal to nothing.
-/
theorem holdsRow_of_applyRow
    {s s' : SharedState}
    {hotkey : String}
    {row : List F32}
    {version : UInt64}
    (hs : s.Consistent)
    (hRow : ∀ x ∈ row, x.isFinite = true)
    (hApply : s.applyRow hotkey row = .ok (version, s')) :
    s'.holdsRow hotkey row = true := by
  have hLaw := applyRow_spec hs hotkey row
  obtain ⟨hMem, -⟩ := hLaw.1.mp ⟨_, hApply⟩
  obtain ⟨-, -, hNeurons, hSet, -⟩ := hLaw.2.1 version s' hApply
  have hUid : s'.uidOf hotkey = some (s.neurons.idxOf hotkey) := by
    rw [uidOf_of_mem (hNeurons ▸ hMem), hNeurons]
  unfold holdsRow rowOf
  rw [hUid, Option.bind_some, hSet]
  dsimp only
  rw [List.zip_append_self]
  simp only [List.length_append, Nat.le_add_right, decide_true, Bool.true_and, List.all_map,
    List.all_eq_true]
  intro x hx
  exact F32.beq_self_of_isFinite (hRow x hx)

end SharedState

------------------------------------------------------------
-- A Document that Mirrors a State
------------------------------------------------------------

/- A codec that reads back every finite state it writes. -/
def StateCodec.ReadsBack
    (δ : Type)
    [StateCodec δ] :
    Prop :=
  ∀ s : SharedState, s.Finite → StateCodec.decode (StateCodec.encode s : δ) = .ok s

/- The state kept as it is, an empty file holding the empty state: a
codec that reads back every state. -/
instance StateCodec.verbatim : StateCodec SharedState :=
  ⟨id, Except.ok, SharedState.empty⟩

namespace Disk

variable {δ : Type} [StateCodec δ]

/- A disk whose document reads back the state `s` and whose lock, a
file of its own, is free, `s` being consistent and finite. -/
structure Mirrors
    (d : Disk δ)
    (s : SharedState) : Prop where
  read : d.read = .ok s
  apart : d.lockPath ≠ d.docPath
  lockFree : d.lockHeld = false
  lockOpens : d.lockIsDirectory = false
  consistent : s.Consistent
  finite : s.Finite

theorem fresh_mirrors
    {docPath lockPath : String}
    (hApart : lockPath ≠ docPath)
    (timeoutMs : Nat) :
    (Disk.fresh docPath lockPath timeoutMs : Disk δ).Mirrors SharedState.empty :=
  ⟨rfl, hApart, rfl, rfl, SharedState.empty_consistent, SharedState.empty_finite⟩

/- A lock file of its own leaves the document alone when it is opened. -/
theorem openLock_of_apart
    {d : Disk δ}
    (hApart : d.lockPath ≠ d.docPath) :
    d.openLock = d := by
  unfold openLock
  split
  · rw [if_neg hApart]
  · rfl

section Mirrors

variable {d : Disk δ} {s : SharedState}

theorem lock_of_mirrors
    (h : d.Mirrors s) :
    d.lock = .ok () := by
  unfold lock
  rw [if_neg (by simp [h.lockOpens]), if_neg (by simp [h.lockFree])]

/- Under a free lock, an update reads the mirrored state, changes it and writes the result. -/
theorem update_of_mirrors
    {α : Type}
    (h : d.Mirrors s)
    (f : SharedState → Outcome (α × SharedState)) :
    d.update f =
      match f s with
      | .ok (a, s') => ({ d with doc := .file (StateCodec.encode s') }, .ok a)
      | .error e => (d, .error e) := by
  unfold update
  rw [if_neg (by simp [h.lockOpens]), openLock_of_apart h.apart]
  -- both sides match on what the change gives
  rcases hChange : f s with e | ⟨a, s'⟩
  · simp only [lock_of_mirrors h, h.read, bind, Except.bind, hChange]
  · simp only [lock_of_mirrors h, h.read, bind, Except.bind, hChange]

theorem written_mirrors
    (hCodec : StateCodec.ReadsBack δ)
    {s' : SharedState}
    (h : d.Mirrors s)
    (hConsistent : s'.Consistent)
    (hFinite : s'.Finite) :
    ({ d with doc := .file (StateCodec.encode s') } : Disk δ).Mirrors s' :=
  ⟨hCodec s' hFinite, h.apart, h.lockFree, h.lockOpens, hConsistent, hFinite⟩

theorem checkInclusion_of_mirrors
    {hotkey : String}
    {row : List F32}
    {version : UInt64}
    (h : d.Mirrors s)
    (hVersion : version ≤ s.version)
    (hHolds : s.holdsRow hotkey row = true) :
    d.checkInclusion hotkey row version = .ok () := by
  unfold checkInclusion
  simp [h.read, bind, Except.bind, hHolds, hVersion, pure, Except.pure]

theorem register_of_mirrors
    (h : d.Mirrors s)
    (hotkey : String) :
    Store.disk.register d hotkey =
      ({ d with doc := .file (StateCodec.encode (s.register hotkey).2) },
        .ok (s.register hotkey).1) := by
  show d.update _ = _
  rw [update_of_mirrors h]

/-
  Publishing a finite row on a mirroring disk writes the state that
  applying it in memory gives, or changes nothing when the row is
  refused; waiting for inclusion reads the row back.
-/
theorem publish_of_mirrors
    (hCodec : StateCodec.ReadsBack δ)
    {hotkey : String}
    {row : List F32}
    (wait : Bool)
    (h : d.Mirrors s)
    (hRow : ∀ x ∈ row, x.isFinite = true) :
    Store.disk.publish d hotkey row wait =
      match s.applyRow hotkey row with
      | .ok (_, s') => ({ d with doc := .file (StateCodec.encode s') }, .ok ())
      | .error e => (d, .error e) := by
  unfold Store.disk
  dsimp only
  rw [update_of_mirrors h]
  cases hApply : s.applyRow hotkey row with
  | error e => rfl
  | ok p =>
      obtain ⟨version, s'⟩ := p
      have hLaw := (SharedState.applyRow_spec h.consistent hotkey row).2.1 version s' hApply
      have hWritten := written_mirrors hCodec h (SharedState.applyRow_consistent h.consistent hApply)
        (SharedState.applyRow_finite h.finite hRow hApply)
      -- waiting reads the row back, at the version just written
      cases wait
      · rfl
      · dsimp only
        rw [if_pos rfl, checkInclusion_of_mirrors hWritten (hLaw.2.1 ▸ UInt64.le_refl _)
          (SharedState.holdsRow_of_applyRow h.consistent hRow hApply)]

/- A publication of a finite row that fails leaves the disk as it was. -/
theorem publish_failed_of_mirrors
    (hCodec : StateCodec.ReadsBack δ)
    {hotkey : String}
    {row : List F32}
    {wait : Bool}
    {e : Error}
    (h : d.Mirrors s)
    (hRow : ∀ x ∈ row, x.isFinite = true)
    (hFailed : (Store.disk.publish d hotkey row wait).2 = .error e) :
    (Store.disk.publish d hotkey row wait).1 = d := by
  rw [publish_of_mirrors hCodec wait h hRow] at hFailed ⊢
  cases hApply : s.applyRow hotkey row with
  | error e' => rfl
  | ok p =>
      rw [hApply] at hFailed
      cases hFailed

end Mirrors

end Disk

------------------------------------------------------------
-- Stores that Agree
------------------------------------------------------------

theorem Store.memory_publish
    (s : SharedState)
    (hotkey : String)
    (row : List F32)
    (wait : Bool) :
    Store.memory.publish s hotkey row wait =
      match s.applyRow hotkey row with
      | .ok (_, s') => (s', .ok ())
      | .error e => (s, .error e) :=
  rfl

/- Two stores that answer alike on related worlds: the same reads, the
same registrations and the same publications of finite rows, each
leaving related worlds. -/
structure Store.Agree
    {β β' : Type}
    (st : Store β)
    (st' : Store β')
    (R : β → β' → Prop) : Prop where
  read : ∀ {b b'}, R b b' → st.read b = st'.read b'
  register : ∀ {b b'} (hotkey : String), R b b' →
    (st.register b hotkey).2 = (st'.register b' hotkey).2 ∧
      R (st.register b hotkey).1 (st'.register b' hotkey).1
  publish : ∀ {b b'} (hotkey : String) (row : List F32) (wait : Bool), R b b' →
    (∀ x ∈ row, x.isFinite = true) →
    (st.publish b hotkey row wait).2 = (st'.publish b' hotkey row wait).2 ∧
      R (st.publish b hotkey row wait).1 (st'.publish b' hotkey row wait).1

/- With a codec that reads back finite states, a disk agrees with memory on the states it mirrors. -/
theorem Store.disk_agrees_memory
    {δ : Type}
    [StateCodec δ]
    (hCodec : StateCodec.ReadsBack δ) :
    Store.Agree (Store.disk : Store (Disk δ)) Store.memory Disk.Mirrors where
  read h := h.read
  register hotkey h := by
    rw [Disk.register_of_mirrors h]
    exact ⟨rfl, Disk.written_mirrors hCodec h (SharedState.register_consistent h.consistent _)
      (SharedState.register_finite h.finite _)⟩
  publish hotkey row wait h hRow := by
    rw [Disk.publish_of_mirrors hCodec wait h hRow, Store.memory_publish]
    cases hApply : SharedState.applyRow _ hotkey row with
    | error e => exact ⟨rfl, h⟩
    | ok p =>
        obtain ⟨version, s'⟩ := p
        exact ⟨rfl, Disk.written_mirrors hCodec h (SharedState.applyRow_consistent h.consistent hApply)
          (SharedState.applyRow_finite h.finite hRow hApply)⟩

------------------------------------------------------------
-- Handles on Stores that Agree
------------------------------------------------------------

/- Whether the rows a request publishes are finite. -/
def Request.rowsFinite : Request → Bool
  | .emit _ row _ => row.all F32.isFinite
  | _ => true

namespace Session

variable {β β' : Type}

theorem setView_store
    (ses : Session β)
    (v : View) :
    (ses.setView v).store = ses.store := by
  unfold setView
  split <;> rfl

theorem touch_store
    (ses : Session β)
    (hotkey : String) :
    (ses.touch hotkey).store = ses.store :=
  setView_store _ _

section Congr

variable {ses : Session β} {ses' : Session β'}

theorem view_congr
    (hViews : ses.views = ses'.views)
    (hotkey : String) :
    ses.view hotkey = ses'.view hotkey := by
  unfold view
  rw [hViews]

theorem setView_congr
    (hViews : ses.views = ses'.views)
    (v : View) :
    (ses.setView v).views = (ses'.setView v).views := by
  unfold setView
  rw [hViews]
  split <;> rfl

theorem touch_congr
    (hViews : ses.views = ses'.views)
    (hotkey : String) :
    (ses.touch hotkey).views = (ses'.touch hotkey).views := by
  unfold touch
  rw [view_congr hViews]
  exact setView_congr hViews _

end Congr

/-
  Handles on two stores that agree, with the same views and related
  stores, answer a request alike and stay so, when the rows it
  publishes are finite.
-/
theorem handle_agree
    {st : Store β}
    {st' : Store β'}
    {R : β → β' → Prop}
    (hAgree : Store.Agree st st' R)
    {ses : Session β}
    {ses' : Session β'}
    (hViews : ses.views = ses'.views)
    (hR : R ses.store ses'.store)
    {req : Request}
    (hReq : req.rowsFinite = true) :
    (ses.handle st req).2 = (ses'.handle st' req).2 ∧
      (ses.handle st req).1.views = (ses'.handle st' req).1.views ∧
      R (ses.handle st req).1.store (ses'.handle st' req).1.store := by
  have hTouched (hotkey : String) : R (ses.touch hotkey).store (ses'.touch hotkey).store := by
    rw [touch_store, touch_store]
    exact hR
  -- one case per request; each store call is matched by the other store's
  cases req with
  | register hotkey =>
      obtain ⟨hSame, hRel⟩ := hAgree.register hotkey (hTouched hotkey)
      rw [handle, handle]
      rcases hp : st.register (ses.touch hotkey).store hotkey with ⟨b, r⟩
      rcases hp' : st'.register (ses'.touch hotkey).store hotkey with ⟨b', r'⟩
      rw [hp, hp'] at hSame hRel
      dsimp only at hSame hRel ⊢
      subst hSame
      rw [hAgree.read hRel, touch_congr hViews hotkey]
      cases r with
      | error e => exact ⟨rfl, rfl, hRel⟩
      | ok uid =>
          cases st'.read b' with
          | error e => exact ⟨rfl, rfl, hRel⟩
          | ok s =>
              dsimp only
              have hView : ({ store := b, views := (ses'.touch hotkey).views } : Session β).view hotkey =
                  ({ store := b', views := (ses'.touch hotkey).views } : Session β').view hotkey :=
                view_congr rfl hotkey
              rw [hView]
              refine ⟨rfl, setView_congr (by rfl) _, ?_⟩
              rw [setView_store, setView_store]
              exact hRel
  | sync hotkey =>
      rw [handle, handle, hAgree.read (hTouched hotkey)]
      cases st'.read (ses'.touch hotkey).store with
      | error e => exact ⟨rfl, touch_congr hViews hotkey, hTouched hotkey⟩
      | ok s =>
          dsimp only
          rw [view_congr (touch_congr hViews hotkey)]
          refine ⟨rfl, setView_congr (touch_congr hViews hotkey) _, ?_⟩
          rw [setView_store, setView_store]
          exact hTouched hotkey
  | emit hotkey row wait =>
      have hRow : ∀ x ∈ row, x.isFinite = true := List.all_eq_true.mp hReq
      obtain ⟨hSame, hRel⟩ := hAgree.publish hotkey row wait (hTouched hotkey) hRow
      rw [handle, handle]
      rcases hp : st.publish (ses.touch hotkey).store hotkey row wait with ⟨b, r⟩
      rcases hp' : st'.publish (ses'.touch hotkey).store hotkey row wait with ⟨b', r'⟩
      rw [hp, hp'] at hSame hRel
      dsimp only at hSame hRel ⊢
      subst hSame
      rw [touch_congr hViews hotkey]
      cases r with
      | error e => exact ⟨rfl, rfl, hRel⟩
      | ok u => exact ⟨rfl, rfl, hRel⟩
  | snapshot hotkey =>
      rw [handle, handle]
      exact ⟨by rw [view_congr (touch_congr hViews hotkey)], touch_congr hViews hotkey,
        hTouched hotkey⟩
  | uidOf hotkey peer =>
      rw [handle, handle]
      exact ⟨by rw [view_congr (touch_congr hViews hotkey)], touch_congr hViews hotkey,
        hTouched hotkey⟩

/- Requests handled one after another: the session they leave and the
replies, in order. -/
def handleAll
    (st : Store β)
    (ses : Session β) :
    List Request → Session β × List Reply
  | [] => (ses, [])
  | req :: reqs =>
    let (ses, reply) := ses.handle st req
    let (ses, replies) := handleAll st ses reqs
    (ses, reply :: replies)

/- Handles on stores that agree answer every run of requests alike. -/
theorem handleAll_agree
    {st : Store β}
    {st' : Store β'}
    {R : β → β' → Prop}
    (hAgree : Store.Agree st st' R)
    {ses : Session β}
    {ses' : Session β'}
    (hViews : ses.views = ses'.views)
    (hR : R ses.store ses'.store)
    {reqs : List Request}
    (hReqs : ∀ req ∈ reqs, req.rowsFinite = true) :
    (ses.handleAll st reqs).2 = (ses'.handleAll st' reqs).2 ∧
      (ses.handleAll st reqs).1.views = (ses'.handleAll st' reqs).1.views ∧
      R (ses.handleAll st reqs).1.store (ses'.handleAll st' reqs).1.store := by
  induction reqs generalizing ses ses' with
  | nil => exact ⟨rfl, hViews, hR⟩
  | cons req reqs ih =>
      obtain ⟨hReply, hViews₁, hR₁⟩ := handle_agree hAgree hViews hR (hReqs req List.mem_cons_self)
      obtain ⟨hReplies, hViews₂, hR₂⟩ :=
        ih hViews₁ hR₁ (fun r hr => hReqs r (List.mem_cons_of_mem req hr))
      simp only [handleAll]
      exact ⟨by rw [hReply, hReplies], hViews₂, hR₂⟩

/- An emit that fails is the store's failed publication, and leaves what it left. -/
theorem handle_emit_failed
    {st : Store β}
    {ses : Session β}
    {hotkey : String}
    {row : List F32}
    {wait : Bool}
    {e : Error}
    (hFailed : (ses.handle st (.emit hotkey row wait)).2 = .failed e) :
    (st.publish ses.store hotkey row wait).2 = .error e ∧
      (ses.handle st (.emit hotkey row wait)).1.store = (st.publish ses.store hotkey row wait).1 := by
  rw [handle] at hFailed ⊢
  rw [← touch_store ses hotkey]
  rcases hp : st.publish (ses.touch hotkey).store hotkey row wait with ⟨b, r⟩
  rw [hp] at hFailed
  dsimp only at hFailed ⊢
  cases r with
  | error e' =>
      cases hFailed
      exact ⟨rfl, rfl⟩
  | ok u => cases hFailed

end Session

/- Whether a reply is an answer rather than a failure. -/
def Reply.isOk : Reply → Bool
  | .failed _ => false
  | _ => true

------------------------------------------------------------
-- Handles on a Document and on Memory
------------------------------------------------------------

/-
  Handles on one document that is missing at first and handles on one
  store in memory that starts empty, given the same requests, each
  publishing finite rows: every reply is the same, every handle has the
  same snapshot, and the document reads back the state in memory, as
  long as the codec reads back the finite states it writes.  An emit
  that fails from there leaves the disk as it was.
-/
theorem disk_handles_agree_with_memory
    {δ : Type}
    [StateCodec δ]
    (hCodec : StateCodec.ReadsBack δ)
    {docPath lockPath : String}
    (hApart : lockPath ≠ docPath)
    (timeoutMs : Nat)
    {reqs : List Request}
    (hReqs : ∀ req ∈ reqs, req.rowsFinite = true) :
    let disk := (⟨Disk.fresh docPath lockPath timeoutMs, []⟩ : Session (Disk δ)).handleAll
      Store.disk reqs
    let memory := (⟨SharedState.empty, []⟩ : Session SharedState).handleAll Store.memory reqs
    disk.2 = memory.2 ∧ disk.1.views = memory.1.views ∧ disk.1.store.read = .ok memory.1.store ∧
      ∀ hotkey row wait e, (∀ x ∈ row, x.isFinite = true) →
        (disk.1.handle Store.disk (.emit hotkey row wait)).2 = .failed e →
        (disk.1.handle Store.disk (.emit hotkey row wait)).1.store = disk.1.store := by
  intro disk memory
  have hStart : (⟨Disk.fresh docPath lockPath timeoutMs, []⟩ : Session (Disk δ)).store.Mirrors
      (⟨SharedState.empty, []⟩ : Session SharedState).store :=
    Disk.fresh_mirrors hApart timeoutMs
  obtain ⟨hReplies, hViews, hMirrors⟩ :=
    Session.handleAll_agree (Store.disk_agrees_memory hCodec) (by rfl) hStart hReqs
  refine ⟨hReplies, hViews, hMirrors.read, ?_⟩
  intro hotkey row wait e hRow hFailed
  obtain ⟨hPublish, hStore⟩ := Session.handle_emit_failed hFailed
  rw [hStore]
  exact Disk.publish_failed_of_mirrors hCodec hMirrors hRow hPublish

/- Two handles on a document kept as it is, and handles in memory. -/
theorem disk_handles_agree_verbatim :
    StateCodec.ReadsBack SharedState ∧ "lock" ≠ "doc" ∧
      (∀ req ∈ [.register "a", .register "b", .emit "a" [1, 0] true, .sync "b", .emit "c" [1] false,
          .uidOf "b" "a"], Request.rowsFinite req = true) ∧
      let disk := (⟨Disk.fresh "doc" "lock" 0, []⟩ : Session (Disk SharedState)).handleAll Store.disk
        [.register "a", .register "b", .emit "a" [1, 0] true, .sync "b", .emit "c" [1] false,
          .uidOf "b" "a"]
      let memory := (⟨SharedState.empty, []⟩ : Session SharedState).handleAll Store.memory
        [.register "a", .register "b", .emit "a" [1, 0] true, .sync "b", .emit "c" [1] false,
          .uidOf "b" "a"]
      disk.2 = memory.2 ∧ disk.1.views = memory.1.views ∧ disk.1.store.read = .ok memory.1.store ∧
        ∀ hotkey row wait e, (∀ x ∈ row, x.isFinite = true) →
          (disk.1.handle Store.disk (.emit hotkey row wait)).2 = .failed e →
          (disk.1.handle Store.disk (.emit hotkey row wait)).1.store = disk.1.store :=
  ⟨fun _ _ => rfl, by decide, by decide,
    disk_handles_agree_with_memory (fun _ _ => rfl) (by decide) 0 (by decide)⟩

/-
  Even on a document kept as it is, a handle that waits for a row
  holding NaN does not find it, NaN being equal to nothing: the emit
  fails on disk and succeeds in memory.
-/
theorem nan_row_refused_on_disk :
    ((⟨Disk.fresh "doc" "lock" 0, []⟩ : Session (Disk SharedState)).handleAll Store.disk
        [.register "a", .emit "a" [F32.nan] true]).2.map Reply.isOk = [true, false] ∧
      ((⟨SharedState.empty, []⟩ : Session SharedState).handleAll Store.memory
        [.register "a", .emit "a" [F32.nan] true]).2.map Reply.isOk = [true, true] := by
  constructor <;> decide +kernel

end NeuronFleet
