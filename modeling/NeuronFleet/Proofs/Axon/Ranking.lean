import Mathlib.Data.List.Nodup
import NeuronFleet.Axon
import NeuronFleet.Proofs.Number.Order

/-
  The priority table of an axon and the ranking of its peers.

  Setting the priorities of equally many peers replaces the table by
  one entry per listed peer, holding the priority given at the peer's
  last occurrence; a peer's priority reads as that entry, or zero for a
  peer not listed.  Unequal lists are refused with an axon error and
  the axon is kept.

  Ranking compares priorities by their keys, the higher first, and
  breaks ties by peer id.  Among priorities that are not NaN this is a
  total preorder, and on a table it orders no two entries both ways,
  since no two entries share a peer: the ranking is the one list of the
  table's entries that descends in it, whatever order the table is
  read in.  A NaN priority ties with every other one, and the
  comparison turns cyclic (`1`, NaN, `2` for peers `a`, `b`, `c`), so
  two readings of one such table rank it differently.

  Main declarations:
    * `Axon.lastPriority`, `Axon.RankedAbove`
    * `Axon.setPriority_eq_ok`, `Axon.before_iff_key`
    * `Axon.ranked_spec`
    * `Axon.setPriority_ranks`
    * `Axon.nan_priority_ranks_in_a_cycle`
-/

namespace NeuronFleet

namespace Axon

------------------------------------------------------------
-- The Table
------------------------------------------------------------

/- The priority given to `peer` at its last occurrence among `peers`. -/
def lastPriority
    (peers : List String)
    (priorities : List F32)
    (peer : String) :
    Option F32 :=
  ((peers.zip priorities).reverse).lookup peer

private theorem lookup_cons_ite
    (k : String)
    (q : F32)
    (t : List (String × F32))
    (x : String) :
    ((k, q) :: t).lookup x = if x = k then some q else t.lookup x := by
  rw [List.lookup_cons]
  by_cases hx : x = k
  · simp [hx]
  · simp [hx, beq_eq_false_iff_ne.mpr hx]

/- Replacing the priority of one peer in place. -/
theorem lookup_map_replace
    (t : List (String × F32))
    (peer x : String)
    (p : F32) :
    (t.map fun e => if e.1 == peer then (peer, p) else e).lookup x =
      if x = peer then (if t.any (·.1 == peer) then some p else none) else t.lookup x := by
  induction t with
  | nil => simp
  | cons e t ih =>
      obtain ⟨k, q⟩ := e
      simp only [List.map_cons, List.any_cons]
      by_cases hk : k = peer
      · subst hk
        simp only [beq_self_eq_true, if_true, Bool.true_or, lookup_cons_ite, ih]
        by_cases hx : x = k <;> simp [hx]
      · have hkb : (k == peer) = false := by simpa using hk
        simp only [hkb, Bool.false_eq_true, if_false, Bool.false_or, lookup_cons_ite, ih]
        by_cases hx : x = k
        · subst hx
          simp [hk]
        · simp [hx]

theorem lookup_insert
    (t : List (String × F32))
    (peer x : String)
    (p : F32) :
    (insert t peer p).lookup x = if x = peer then some p else t.lookup x := by
  unfold insert
  split
  · rename_i hAny
    rw [lookup_map_replace, hAny]
    simp
  · rename_i hAny
    rw [List.lookup_append]
    by_cases hx : x = peer
    · -- the peer is new, so only the appended entry holds it
      have hNone : t.lookup x = none := by
        rw [List.lookup_eq_none_iff]
        simp only [Bool.not_eq_true, List.any_eq_false, beq_iff_eq] at hAny
        intro e he
        rw [bne_iff_ne, ne_eq, hx]
        exact fun h => hAny e he h.symm
      rw [hNone, Option.none_or, if_pos hx, lookup_cons_ite, if_pos hx]
    · rw [lookup_cons_ite, if_neg hx, if_neg hx, List.lookup_nil, Option.or_none]

/- Inserting keeps every peer once. -/
theorem nodup_insert
    {t : List (String × F32)}
    (hNodup : (t.map Prod.fst).Nodup)
    (peer : String)
    (p : F32) :
    ((insert t peer p).map Prod.fst).Nodup := by
  unfold insert
  split
  · have hKeys : (t.map fun e => if e.1 == peer then (peer, p) else e).map Prod.fst =
        t.map Prod.fst := by
      rw [List.map_map]
      apply List.map_congr_left
      intro e _
      by_cases hPeer : e.1 = peer <;> simp [hPeer]
    rw [hKeys]
    exact hNodup
  · rename_i hAny
    rw [List.map_append, List.nodup_append]
    refine ⟨hNodup, List.nodup_singleton _, ?_⟩
    intro k hk k' hk' hEq
    simp only [List.map_cons, List.map_nil, List.mem_singleton] at hk'
    subst hk' hEq
    obtain ⟨e, he, rfl⟩ := List.mem_map.mp hk
    simp only [Bool.not_eq_true, List.any_eq_false, beq_iff_eq] at hAny
    exact hAny e he rfl

/- Entries inserted one after another: the last priority of each peer
among them, else what the table held. -/
theorem lookup_foldl_insert
    (ps : List (String × F32))
    (t : List (String × F32))
    (x : String) :
    (ps.foldl (fun t e => insert t e.1 e.2) t).lookup x = (ps.reverse.lookup x).or (t.lookup x) := by
  induction ps generalizing t with
  | nil => simp
  | cons e ps ih =>
      obtain ⟨k, q⟩ := e
      rw [List.foldl_cons, ih, lookup_insert, List.reverse_cons, List.lookup_append,
        lookup_cons_ite, List.lookup_nil]
      by_cases hx : x = k
      · -- the last priority of `k` so far is the one just inserted
        cases ps.reverse.lookup x <;> simp [hx]
      · simp [hx]

theorem nodup_foldl_insert
    (ps : List (String × F32))
    {t : List (String × F32)}
    (hNodup : (t.map Prod.fst).Nodup) :
    ((ps.foldl (fun t e => insert t e.1 e.2) t).map Prod.fst).Nodup := by
  induction ps generalizing t with
  | nil => exact hNodup
  | cons e ps ih => exact ih (nodup_insert hNodup e.1 e.2)

/-
  Equally many peers and priorities replace the table by the last
  priority of each listed peer and count one more update.
-/
theorem setPriority_eq_ok
    (a : Axon)
    {peers : List String}
    {priorities : List F32}
    (hLength : peers.length = priorities.length) :
    ∃ b, a.setPriority peers priorities = .ok b ∧
      b.endpoint = a.endpoint ∧ b.bound = a.bound ∧ b.updates = a.updates + 1 ∧
      (b.table.map Prod.fst).Nodup ∧ ∀ peer, b.table.lookup peer = lastPriority peers priorities peer := by
  unfold setPriority
  rw [if_neg (not_not.mpr hLength)]
  refine ⟨_, rfl, rfl, rfl, rfl, nodup_foldl_insert _ List.nodup_nil, fun peer => ?_⟩
  rw [lookup_foldl_insert]
  simp [lastPriority]

------------------------------------------------------------
-- The Ranking Order
------------------------------------------------------------

/- `x` ranks above `y`: a higher priority, or an equal one and a
smaller peer id. -/
def RankedAbove
    (x y : String × F32) : Prop :=
  F32.lt y.2 x.2 = true ∨ (F32.beq x.2 y.2 = true ∧ x.1 < y.1)

/- On priorities that are not NaN, `x` may stand before `y` when its key
is larger, or equal with a peer id no larger. -/
theorem before_iff_key
    {x y : String × F32}
    {a b : Int}
    (ha : x.2.key = some a)
    (hb : y.2.key = some b) :
    before x y = true ↔ b < a ∨ (a = b ∧ x.1 ≤ y.1) := by
  unfold before rankCompare
  rw [F32.partialCmp_eq_key, ha, hb]
  rcases lt_trichotomy b a with hLt | rfl | hGt
  · simp [compare_lt_iff_lt.mpr hLt, hLt]
  · rcases lt_trichotomy x.1 y.1 with hId | hId | hId
    · simp [compare_lt_iff_lt.mpr hId, hId.le]
    · simp [hId]
    · simp [compare_gt_iff_gt.mpr hId, not_le.mpr hId]
  · simp [compare_gt_iff_gt.mpr hGt, not_lt.mpr hGt.le, hGt.ne]

theorem before_trans
    {x y z : String × F32}
    (hx : x.2.isNaN = false)
    (hy : y.2.isNaN = false)
    (hz : z.2.isNaN = false)
    (hxy : before x y = true)
    (hyz : before y z = true) :
    before x z = true := by
  obtain ⟨a, ha⟩ := F32.exists_key_of_isNaN_eq_false hx
  obtain ⟨b, hb⟩ := F32.exists_key_of_isNaN_eq_false hy
  obtain ⟨c, hc⟩ := F32.exists_key_of_isNaN_eq_false hz
  rw [before_iff_key ha hb] at hxy
  rw [before_iff_key hb hc] at hyz
  rw [before_iff_key ha hc]
  rcases hxy with hab | ⟨rfl, hxyId⟩ <;> rcases hyz with hbc | ⟨rfl, hyzId⟩
  · exact .inl (hbc.trans hab)
  · exact .inl hab
  · exact .inl hbc
  · exact .inr ⟨rfl, hxyId.trans hyzId⟩

theorem before_total
    {x y : String × F32}
    (hx : x.2.isNaN = false)
    (hy : y.2.isNaN = false) :
    (before x y || before y x) = true := by
  obtain ⟨a, ha⟩ := F32.exists_key_of_isNaN_eq_false hx
  obtain ⟨b, hb⟩ := F32.exists_key_of_isNaN_eq_false hy
  rw [Bool.or_eq_true, before_iff_key ha hb, before_iff_key hb ha]
  rcases lt_trichotomy a b with hLt | rfl | hGt
  · exact .inr (.inl hLt)
  · rcases le_total x.1 y.1 with hId | hId
    · exact .inl (.inr ⟨rfl, hId⟩)
    · exact .inr (.inr ⟨rfl, hId⟩)
  · exact .inl (.inl hGt)

/- Two entries that may each stand before the other have equal keys
and the same peer. -/
theorem key_eq_of_before_of_before
    {x y : String × F32}
    (hx : x.2.isNaN = false)
    (hy : y.2.isNaN = false)
    (hxy : before x y = true)
    (hyx : before y x = true) :
    x.2.key = y.2.key ∧ x.1 = y.1 := by
  obtain ⟨a, ha⟩ := F32.exists_key_of_isNaN_eq_false hx
  obtain ⟨b, hb⟩ := F32.exists_key_of_isNaN_eq_false hy
  rw [before_iff_key ha hb] at hxy
  rw [before_iff_key hb ha] at hyx
  rcases hxy with hab | ⟨rfl, hxyId⟩
  · rcases hyx with hba | ⟨rfl, -⟩ <;> omega
  · rcases hyx with hba | ⟨-, hyxId⟩
    · omega
    · exact ⟨by rw [ha, hb], le_antisymm hxyId hyxId⟩

/- An entry that may stand before another of a different peer ranks
above it. -/
theorem rankedAbove_of_before
    {x y : String × F32}
    (hx : x.2.isNaN = false)
    (hy : y.2.isNaN = false)
    (hxy : before x y = true)
    (hPeer : x.1 ≠ y.1) :
    RankedAbove x y := by
  obtain ⟨a, ha⟩ := F32.exists_key_of_isNaN_eq_false hx
  obtain ⟨b, hb⟩ := F32.exists_key_of_isNaN_eq_false hy
  rw [before_iff_key ha hb] at hxy
  rcases hxy with hab | ⟨rfl, hId⟩
  · exact .inl (F32.lt_iff_key.mpr ⟨b, a, hb, ha, hab⟩)
  · exact .inr ⟨F32.beq_iff_key.mpr ⟨a, ha, hb⟩, lt_of_le_of_ne hId hPeer⟩

------------------------------------------------------------
-- Sorting a Table
------------------------------------------------------------

section Sorting

variable {t : List (String × F32)}

/-
  Sorting entries without NaN leaves them descending: the comparison is
  transitive and total there, so the sorting lemma applies to the
  entries taken with that fact.
-/
theorem pairwise_mergeSort_before
    (hNaN : ∀ x ∈ t, x.2.isNaN = false) :
    (t.mergeSort before).Pairwise fun x y => before x y = true := by
  have hSorted := @List.pairwise_mergeSort _ (fun x y : {x : String × F32 // x.2.isNaN = false} =>
      before x.1 y.1) (fun x y z hxy hyz => before_trans x.2 y.2 z.2 hxy hyz)
    (fun x y => before_total x.2 y.2) (t.attachWith _ hNaN)
  have hMap : ((t.attachWith _ hNaN).mergeSort fun x y => before x.1 y.1).map Subtype.val =
      ((t.attachWith _ hNaN).map Subtype.val).mergeSort before :=
    List.map_mergeSort fun _ _ _ _ => rfl
  rw [List.attachWith_map_subtype_val] at hMap
  rw [← hMap, List.pairwise_map]
  exact hSorted

/-
  Two descending orders of the same entries, no two of one peer and
  none NaN, are the same list.
-/
theorem eq_of_pairwise_before
    {l l' : List (String × F32)}
    (hKeys : (t.map Prod.fst).Nodup)
    (hNaN : ∀ x ∈ t, x.2.isNaN = false)
    (hl : l.Perm t)
    (hl' : l'.Perm t)
    (hSorted : l.Pairwise fun x y => before x y = true)
    (hSorted' : l'.Pairwise fun x y => before x y = true) :
    l = l' := by
  refine List.Perm.eq_of_pairwise ?_ hSorted hSorted' (hl.trans hl'.symm)
  intro x y hx hy hxy hyx
  have hxt := hl.subset hx
  have hyt := hl'.subset hy
  obtain ⟨-, hPeer⟩ := key_eq_of_before_of_before (hNaN x hxt) (hNaN y hyt) hxy hyx
  exact List.inj_on_of_nodup_map hKeys hxt hyt hPeer

end Sorting

/-
  The ranking of a table with every peer once.  There is none exactly
  when a priority is NaN; otherwise it holds every entry once, each
  ranked above the ones after it, and sorting the table read in any
  order gives the same list.
-/
theorem ranked_spec
    (a : Axon)
    (hKeys : (a.table.map Prod.fst).Nodup) :
    (a.ranked = none ↔ ∃ x ∈ a.table, x.2.isNaN = true) ∧
      ∀ l, a.ranked = some l → l.Perm a.table ∧ l.Pairwise RankedAbove ∧
        ∀ t : List (String × F32), t.Perm a.table → t.mergeSort before = l := by
  unfold ranked
  by_cases hAny : a.table.any (·.2.isNaN)
  · simp only [hAny, if_true, reduceCtorEq, false_implies, implies_true, and_true, true_iff]
    simpa using hAny
  · have hNaN : ∀ x ∈ a.table, x.2.isNaN = false := by
      simpa using hAny
    refine ⟨by simp [hAny]; simpa using hNaN, ?_⟩
    rintro l hl
    simp only [hAny, Bool.false_eq_true, if_false, Option.some.injEq] at hl
    subst hl
    have hPerm := List.mergeSort_perm a.table before
    have hSorted := pairwise_mergeSort_before hNaN
    refine ⟨hPerm, ?_, fun t ht => ?_⟩
    · -- entries of different peers, so each ranks above the later ones
      have hPeers : (a.table.mergeSort before).Pairwise fun x y => x.1 ≠ y.1 := by
        have hNodup := (hPerm.map Prod.fst).nodup_iff.mpr hKeys
        rwa [List.Nodup, List.pairwise_map] at hNodup
      exact (hSorted.and hPeers).imp_of_mem fun hx hy h =>
        rankedAbove_of_before (hNaN _ (hPerm.subset hx)) (hNaN _ (hPerm.subset hy)) h.1 h.2
    · exact eq_of_pairwise_before hKeys hNaN ((List.mergeSort_perm t before).trans ht) hPerm
        (pairwise_mergeSort_before fun x hx => hNaN x (ht.subset hx)) hSorted

------------------------------------------------------------
-- Setting Priorities, then Ranking
------------------------------------------------------------

/-
  Setting priorities.  Unequal lists are refused with an axon error
  naming both lengths, and the axon is kept.  Equal ones give an axon
  at the same endpoint, one update on, whose table holds each listed
  peer once with its last priority and nothing else, so that a peer's
  priority reads as that one or zero.  A ranking exists exactly when no
  priority is NaN: it holds every entry once, each ranked above the
  ones after it, and it is the same whatever order the table is read
  in.
-/
theorem setPriority_ranks
    (a : Axon)
    (peers : List String)
    (priorities : List F32) :
    (peers.length ≠ priorities.length →
      a.setPriority peers priorities = .error (.axon (toString peers.length ++ " peers but " ++
        toString priorities.length ++ " priorities"))) ∧
    (peers.length = priorities.length → ∃ b, a.setPriority peers priorities = .ok b ∧
      b.endpoint = a.endpoint ∧ b.bound = a.bound ∧ b.updates = a.updates + 1 ∧
      (b.table.map Prod.fst).Nodup ∧
      (∀ peer, b.table.lookup peer = lastPriority peers priorities peer ∧
        b.priorityOf peer = (lastPriority peers priorities peer).getD 0) ∧
      (b.ranked = none ↔ ∃ x ∈ b.table, x.2.isNaN = true) ∧
      ∀ l, b.ranked = some l → l.Perm b.table ∧ l.Pairwise RankedAbove ∧
        ∀ t : List (String × F32), t.Perm b.table → t.mergeSort before = l) := by
  refine ⟨fun hLength => ?_, fun hLength => ?_⟩
  · unfold setPriority
    rw [if_pos hLength]
  · obtain ⟨b, hb, hEndpoint, hBound, hUpdates, hKeys, hLookup⟩ := setPriority_eq_ok a hLength
    refine ⟨b, hb, hEndpoint, hBound, hUpdates, hKeys, fun peer => ?_, ranked_spec b hKeys⟩
    exact ⟨hLookup peer, by rw [priorityOf, hLookup peer]⟩

/- A peer listed twice keeps its last priority; unequal lists are
refused. -/
theorem setPriority_ranks_listed_twice :
    (∃ b, unbound.setPriority ["b", "a", "b"] [1, 1, 0] = .ok b ∧ b.updates = 1 ∧
      b.priorityOf "b" = 0 ∧ b.priorityOf "a" = 1 ∧ b.priorityOf "c" = 0) ∧
    unbound.setPriority ["a", "b"] [1] = .error (.axon "2 peers but 1 priorities") := by
  obtain ⟨b, hb, -, -, hUpdates, -, hLookup, -⟩ :=
    (setPriority_ranks unbound ["b", "a", "b"] [1, 1, 0]).2 (by decide)
  refine ⟨⟨b, hb, hUpdates, ?_, ?_, ?_⟩, (setPriority_ranks unbound ["a", "b"] [1]).1 (by decide)⟩
  · rw [(hLookup "b").2]
    decide
  · rw [(hLookup "a").2]
    decide
  · rw [(hLookup "c").2]
    decide

/-
  With priorities `1`, NaN and `2` for peers `a`, `b` and `c`, the
  comparison runs in a cycle: `a` before `b` and `b` before `c` by peer
  id, since NaN ties with both, and `c` before `a` by priority.  Sorting
  the table read in two orders gives two different lists, and the axon
  gives no ranking.
-/
theorem nan_priority_ranks_in_a_cycle :
    rankCompare ("a", 1) ("b", F32.nan) = .lt ∧ rankCompare ("b", F32.nan) ("c", F32.ofNat 2) = .lt ∧
      rankCompare ("c", F32.ofNat 2) ("a", 1) = .lt ∧
      [("a", 1), ("b", F32.nan), ("c", F32.ofNat 2)].mergeSort before ≠
        [("c", F32.ofNat 2), ("a", 1), ("b", F32.nan)].mergeSort before ∧
      ∃ b, unbound.setPriority ["a", "b", "c"] [1, F32.nan, F32.ofNat 2] = .ok b ∧ b.ranked = none := by
  have hab : before ("a", 1) ("b", F32.nan) = true := by decide
  have hac : before ("a", 1) ("c", F32.ofNat 2) = false := by decide
  have hca : before ("c", F32.ofNat 2) ("a", 1) = true := by decide
  have hcb : before ("c", F32.ofNat 2) ("b", F32.nan) = false := by decide
  have hFirst : [("a", 1), ("b", F32.nan), ("c", F32.ofNat 2)].mergeSort before =
      [("c", F32.ofNat 2), ("a", 1), ("b", F32.nan)] := by
    simp [List.mergeSort, List.MergeSort.Internal.splitInTwo_fst,
      List.MergeSort.Internal.splitInTwo_snd, hab, hac]
  have hSecond : [("c", F32.ofNat 2), ("a", 1), ("b", F32.nan)].mergeSort before =
      [("b", F32.nan), ("c", F32.ofNat 2), ("a", 1)] := by
    simp [List.mergeSort, List.MergeSort.Internal.splitInTwo_fst,
      List.MergeSort.Internal.splitInTwo_snd, hca, hcb]
  refine ⟨by decide, by decide, by decide, by rw [hFirst, hSecond]; decide, _, rfl, ?_⟩
  decide

end Axon

end NeuronFleet
