import NeuronFleet.Proofs.Config.FanOut

/-
  Reading the identities of a fleet from its shared lists, check by
  check.

  A key entry is accepted when it holds exactly one colon and neither
  side of it is blank; its identity keeps each side trimmed.  A port
  entry is accepted as an unsigned 16-bit number reads it: decimal
  digits after an optional `+`, of a value at most 65535, and the value
  must not be zero.  The lists are read entry by entry, each key entry
  with the port entry at its place: the first entry that fails a check
  (its key's form, its port's form, a port taken before it, a key pair
  taken before it, in this order) gives the error of that check.  So
  the lists are accepted exactly when there are keys, as many key
  entries as port entries, every entry well formed, and the ports and
  the key pairs pairwise distinct; the identities are then those the
  entries name, in order.

  Main declarations:
    * `Identity.KeyEntry`, `Identity.PortEntry`, `Identity.Names`
    * `Identity.FirstFlaw`, `Identity.Paired`, `Identity.pairUp_eq_iff`
    * `Identity.SharedVerdict`, `Identity.parseShared_eq_iff`
-/

namespace NeuronFleet

namespace Identity

------------------------------------------------------------
-- Pieces Between Separators
------------------------------------------------------------

/- No piece of a split holds the separator. -/
theorem not_mem_of_mem_splitOn
    {l piece : List Char}
    {x : Char}
    (h : piece ∈ l.splitOn x) :
    x ∉ piece := by
  induction l generalizing piece with
  | nil =>
    simp only [List.splitOn_nil, List.mem_singleton] at h
    subst h
    simp
  | cons c l ih =>
    rw [List.splitOn_cons_eq_if_modifyHead] at h
    obtain ⟨first, rest, hFirst⟩ := List.exists_cons_of_ne_nil (List.splitOn_ne_nil x l)
    split at h
    · -- the separator starts a new piece
      rcases List.mem_cons.mp h with rfl | h
      · simp
      · exact ih h
    · -- any other character joins the first piece
      rename_i hc
      rw [hFirst, List.modifyHead_cons] at h
      rcases List.mem_cons.mp h with rfl | h
      · intro hx
        rcases List.mem_cons.mp hx with hxc | hx
        · simp [hxc] at hc
        · exact ih (hFirst ▸ List.mem_cons_self) hx
      · exact ih (hFirst ▸ List.mem_cons_of_mem _ h)

/- A list splits into two pieces exactly when one separator stands in it. -/
theorem splitOn_eq_pair_iff
    {l a b : List Char}
    {x : Char} :
    l.splitOn x = [a, b] ↔ l = a ++ x :: b ∧ x ∉ a ∧ x ∉ b := by
  constructor
  · intro h
    have ha : a ∈ l.splitOn x := by
      rw [h]
      simp
    have hb : b ∈ l.splitOn x := by
      rw [h]
      simp
    have hJoin : [x].intercalate (l.splitOn x) = l := List.intercalate_splitOn x
    rw [h] at hJoin
    exact ⟨by simpa using hJoin.symm, not_mem_of_mem_splitOn ha, not_mem_of_mem_splitOn hb⟩
  · rintro ⟨rfl, ha, hb⟩
    rw [List.splitOn_append_cons_self_of_not_mem ha, List.splitOn_eq_singleton hb]

theorem pieces_eq_pair_iff
    {s a b : String}
    {x : Char} :
    Text.pieces x s = [a, b] ↔ s.toList = a.toList ++ x :: b.toList ∧ x ∉ a.toList ∧ x ∉ b.toList := by
  rw [← splitOn_eq_pair_iff]
  constructor
  · intro h
    have hBack := congrArg (List.map String.toList) h
    simpa [Text.pieces, Function.comp_def] using hBack
  · intro h
    simp [Text.pieces, h]

------------------------------------------------------------
-- Key Entries
------------------------------------------------------------

/- A key entry `cold:hot`: one colon between two sides, neither of them
blank. -/
def KeyEntry (entry cold hot : String) : Prop :=
  entry.toList = cold.toList ++ ':' :: hot.toList ∧ ':' ∉ cold.toList ∧ ':' ∉ hot.toList ∧
    Text.isAllBlank cold = false ∧ Text.isAllBlank hot = false

/- The error of a key entry that is not of the form `cold:hot`. -/
def keyError (entry : String) : Error :=
  .config ("malformed shared key '" ++ entry ++ "', expected 'coldkey:hotkey'")

theorem parseKey_of_keyEntry
    {entry cold hot : String}
    (h : KeyEntry entry cold hot) :
    parseKey entry = .ok (Text.trim cold, Text.trim hot) := by
  obtain ⟨hSplit, hCold, hHot, hColdBlank, hHotBlank⟩ := h
  have hPieces : Text.pieces ':' entry = [cold, hot] := pieces_eq_pair_iff.mpr ⟨hSplit, hCold, hHot⟩
  simp [parseKey, hPieces, hColdBlank, hHotBlank]

theorem parseKey_of_not_keyEntry
    {entry : String}
    (h : ¬∃ cold hot, KeyEntry entry cold hot) :
    parseKey entry = .error (keyError entry) := by
  unfold parseKey
  split
  · rename_i cold hot hPieces
    obtain ⟨hSplit, hCold, hHot⟩ := pieces_eq_pair_iff.mp hPieces
    -- two pieces: one of them must be blank
    have hBlank : (Text.isAllBlank cold || Text.isAllBlank hot) = true := by
      by_contra hNot
      simp only [Bool.not_eq_true, Bool.or_eq_false_iff] at hNot
      exact h ⟨cold, hot, hSplit, hCold, hHot, hNot.1, hNot.2⟩
    rw [if_pos hBlank]
    rfl
  · rfl

------------------------------------------------------------
-- Port Entries
------------------------------------------------------------

/- A port entry as an unsigned 16-bit number reads it, and not zero:
decimal digits after an optional `+`, of a value from 1 to 65535. -/
def PortEntry
    (entry : String)
    (port : Nat) :
    Prop :=
  ∃ digits : List Char, (entry.toList = digits ∨ entry.toList = '+' :: digits) ∧ digits ≠ [] ∧
    (∀ c ∈ digits, c.isDigit = true) ∧ port = Nat.ofDigitChars 10 digits 0 ∧
    0 < port ∧ port ≤ 65535

/- The error of a port entry that is no port. -/
def portError (entry : String) : Error :=
  .config ("malformed shared port '" ++ entry ++ "', expected 1-65535")

theorem readDigits_eq_some_iff
    {cs : List Char}
    {n : Nat} :
    Text.readDigits cs = some n ↔
      cs ≠ [] ∧ (∀ c ∈ cs, c.isDigit = true) ∧ n = Nat.ofDigitChars 10 cs 0 := by
  unfold Text.readDigits
  by_cases hEmpty : cs.isEmpty = true
  · rw [if_pos hEmpty]
    simp_all
  · rw [if_neg hEmpty]
    by_cases hAll : cs.all Char.isDigit = true
    · rw [if_pos hAll]
      have hNe : cs ≠ [] := by simpa using hEmpty
      have hDigits : ∀ c ∈ cs, c.isDigit = true := by simpa using hAll
      have hValue : cs.foldl (fun n c => 10 * n + (c.toNat - 48)) 0 = Nat.ofDigitChars 10 cs 0 := by
        rw [Nat.ofDigitChars_eq_foldl]
        rfl
      rw [hValue, Option.some.injEq]
      exact ⟨fun h => ⟨hNe, hDigits, h.symm⟩, fun h => h.2.2.symm⟩
    · rw [if_neg hAll]
      simp only [List.all_eq_true, not_forall] at hAll
      obtain ⟨c, hc, hNot⟩ := hAll
      simp only [reduceCtorEq, false_iff, not_and]
      exact fun _ hDigits => absurd (hDigits c hc) hNot

/- The digits a number is read from: those after a leading `+`, or all
of the text. -/
theorem readUnsigned_eq_filter
    {s : String}
    {max : Nat}
    {read : List Char}
    (hText : s.toList = read ∧ read.head? ≠ some '+' ∨ s.toList = '+' :: read) :
    Text.readUnsigned s max = (Text.readDigits read).filter (· ≤ max) := by
  unfold Text.readUnsigned
  rcases hText with ⟨hEq, hHead⟩ | hEq
  · rw [hEq]
    cases read with
    | nil => rfl
    | cons c rest =>
      have hc : c ≠ '+' := by simpa using hHead
      simp only
      split <;> simp_all [Option.filter_some]
  · rw [hEq]
    dsimp only
    split <;> simp_all [Option.filter_some]

/- A number read with an optional `+`: its digits, and its value within
the bound. -/
theorem readUnsigned_eq_some_iff
    {s : String}
    {max n : Nat} :
    Text.readUnsigned s max = some n ↔
      ∃ digits : List Char, (s.toList = digits ∨ s.toList = '+' :: digits) ∧ digits ≠ [] ∧
        (∀ c ∈ digits, c.isDigit = true) ∧ n = Nat.ofDigitChars 10 digits 0 ∧ n ≤ max := by
  obtain ⟨read, hText⟩ :
      ∃ read : List Char, s.toList = read ∧ read.head? ≠ some '+' ∨ s.toList = '+' :: read := by
    cases hList : s.toList with
    | nil => exact ⟨[], .inl ⟨rfl, by simp⟩⟩
    | cons c rest =>
      by_cases hc : c = '+'
      · exact ⟨rest, .inr (hc ▸ rfl)⟩
      · exact ⟨c :: rest, .inl ⟨rfl, by simpa using hc⟩⟩
  rw [readUnsigned_eq_filter hText, Option.filter_eq_some_iff, readDigits_eq_some_iff]
  constructor
  · rintro ⟨⟨hNe, hAll, rfl⟩, hMax⟩
    refine ⟨read, ?_, hNe, hAll, rfl, by simpa using hMax⟩
    rcases hText with ⟨hEq, -⟩ | hEq
    · exact .inl hEq
    · exact .inr hEq
  · rintro ⟨digits, hDigitsText, hNe, hAll, rfl, hMax⟩
    -- the digits read are the digits given: a `+` is no digit
    have hSame : read = digits := by
      rcases hText with ⟨hEq, hHead⟩ | hEq <;> rcases hDigitsText with hEq' | hEq'
      · exact hEq.symm.trans hEq'
      · rw [hEq'] at hEq
        rw [← hEq] at hHead
        exact absurd rfl hHead
      · rw [hEq'] at hEq
        have hPlus := hAll '+' (by rw [hEq]; simp)
        cases hPlus
      · rw [hEq'] at hEq
        exact (List.cons.inj hEq).2.symm
    subst hSame
    exact ⟨⟨hNe, hAll, rfl⟩, by simpa using hMax⟩

theorem parsePort_of_portEntry
    {entry : String}
    {port : Nat}
    (h : PortEntry entry port) :
    parsePort entry = .ok port := by
  obtain ⟨digits, hText, hNe, hAll, hValue, hPos, hMax⟩ := h
  have hRead : Text.readUnsigned entry 65535 = some port :=
    readUnsigned_eq_some_iff.mpr ⟨digits, hText, hNe, hAll, hValue, hMax⟩
  simp [parsePort, hRead, Nat.pos_iff_ne_zero.mp hPos]

theorem parsePort_of_not_portEntry
    {entry : String}
    (h : ¬∃ port, PortEntry entry port) :
    parsePort entry = .error (portError entry) := by
  unfold parsePort
  split
  · rename_i port hRead
    split
    · rfl
    · -- a port read and not zero is a port entry
      rename_i hZero
      obtain ⟨digits, hText, hNe, hAll, hValue, hMax⟩ := readUnsigned_eq_some_iff.mp hRead
      exact absurd ⟨port, digits, hText, hNe, hAll, hValue, Nat.pos_of_ne_zero hZero, hMax⟩ h
  · rfl

------------------------------------------------------------
-- The First Flaw of an Entry
------------------------------------------------------------

/- The identity that a key entry and the port entry beside it name: the
trimmed sides of the key entry and the port read. -/
def Names
    (i : Identity)
    (entry : String × String) :
    Prop :=
  ∃ cold hot, KeyEntry entry.1 cold hot ∧ i.coldkey = Text.trim cold ∧ i.hotkey = Text.trim hot ∧
    PortEntry entry.2 i.port

/- The error of a port that an identity accepted before owns. -/
def portTakenError (port : Nat) : Error :=
  .config ("port " ++ toString port ++ " appears more than once in axon.shared_ports")

/- The error of a key pair that an identity accepted before owns. -/
def keysTakenError (i : Identity) : Error :=
  .config ("key " ++ i.coldkey ++ ":" ++ i.hotkey ++ " appears more than once in wallet.shared_keys")

/- The first check that a key entry and its port entry fail after the
identities `seen` were accepted, with the error of that check: the key's
form, the port's form, a port taken before, a key pair taken before. -/
inductive FirstFlaw (seen : List Identity) (entry : String × String) : Error → Prop
  | key (h : ¬∃ cold hot, KeyEntry entry.1 cold hot) : FirstFlaw seen entry (keyError entry.1)
  | port (hKey : ∃ cold hot, KeyEntry entry.1 cold hot) (h : ¬∃ p, PortEntry entry.2 p) :
      FirstFlaw seen entry (portError entry.2)
  | portTaken (i : Identity) (hi : Names i entry) (h : ∃ j ∈ seen, j.port = i.port) :
      FirstFlaw seen entry (portTakenError i.port)
  | keysTaken (i : Identity) (hi : Names i entry) (hPort : ∀ j ∈ seen, j.port ≠ i.port)
      (h : ∃ j ∈ seen, j.coldkey = i.coldkey ∧ j.hotkey = i.hotkey) :
      FirstFlaw seen entry (keysTakenError i)

theorem parsed_of_names
    {i : Identity}
    {entry : String × String}
    (h : Names i entry) :
    Parsed i entry := by
  obtain ⟨cold, hot, hKey, hCold, hHot, hPort⟩ := h
  rw [Parsed, parseKey_of_keyEntry hKey, parsePort_of_portEntry hPort, hCold, hHot]
  exact ⟨rfl, rfl⟩

/- The entries at hand either fail a check or name an identity apart
from every identity accepted before them. -/
theorem firstFlaw_or_names
    (seen : List Identity)
    (entry : String × String) :
    (∃ e, FirstFlaw seen entry e) ∨ ∃ i, Names i entry ∧ ∀ j ∈ seen, Apart j i := by
  by_cases hKey : ∃ cold hot, KeyEntry entry.1 cold hot
  · obtain ⟨cold, hot, hEntry⟩ := hKey
    by_cases hPort : ∃ p, PortEntry entry.2 p
    · obtain ⟨p, hp⟩ := hPort
      have hi : Names ⟨Text.trim cold, Text.trim hot, p⟩ entry := ⟨cold, hot, hEntry, rfl, rfl, hp⟩
      by_cases hTaken : ∃ j ∈ seen, j.port = p
      · exact .inl ⟨_, .portTaken _ hi hTaken⟩
      · by_cases hKeys : ∃ j ∈ seen, j.coldkey = Text.trim cold ∧ j.hotkey = Text.trim hot
        · exact .inl ⟨_, .keysTaken _ hi (fun j hj hEq => hTaken ⟨j, hj, hEq⟩) hKeys⟩
        · refine .inr ⟨_, hi, fun j hj => ⟨fun hEq => hTaken ⟨j, hj, hEq⟩, fun hEq => ?_⟩⟩
          simp only [Prod.mk.injEq] at hEq
          exact hKeys ⟨j, hj, hEq⟩
    · exact .inl ⟨_, .port ⟨cold, hot, hEntry⟩ hPort⟩
  · exact .inl ⟨_, .key hKey⟩

------------------------------------------------------------
-- Pairing Entry by Entry
------------------------------------------------------------

section Pairing

variable {seen fresh : List Identity} {i : Identity} {key port : String} {keys ports : List String}

/- Once the entries at hand name `i`, the pairing checks its port, then
its key pair, against the identities accepted before. -/
theorem pairUp_cons_of_names_eq
    (hi : Names i (key, port)) :
    pairUp seen (key :: keys) (port :: ports) =
      if seen.any (·.port == i.port) then .error (portTakenError i.port)
      else if seen.any (fun j => j.coldkey == i.coldkey && j.hotkey == i.hotkey) then
        .error (keysTakenError i)
      else pairUp (seen ++ [i]) keys ports := by
  obtain ⟨hKey, hPort⟩ := parsed_of_names hi
  simp only at hKey hPort
  simp only [pairUp, bind, Except.bind, hKey, hPort]
  split_ifs <;> rfl

theorem pairUp_cons_of_firstFlaw
    {e : Error}
    (h : FirstFlaw seen (key, port) e) :
    pairUp seen (key :: keys) (port :: ports) = .error e := by
  cases h with
  | key hKey =>
    simp [pairUp, bind, Except.bind, parseKey_of_not_keyEntry hKey]
  | port hKey hPort =>
    obtain ⟨cold, hot, hEntry⟩ := hKey
    simp [pairUp, bind, Except.bind, parseKey_of_keyEntry hEntry, parsePort_of_not_portEntry hPort]
  | portTaken i hi hTaken =>
    have hPorts : seen.any (·.port == i.port) = true := by
      simpa using hTaken
    rw [pairUp_cons_of_names_eq hi, if_pos hPorts]
  | keysTaken i hi hFree hTaken =>
    have hPorts : seen.any (·.port == i.port) = false := by
      simpa using hFree
    have hPairs : seen.any (fun j => j.coldkey == i.coldkey && j.hotkey == i.hotkey) = true := by
      simpa using hTaken
    rw [pairUp_cons_of_names_eq hi, if_neg (by simp [hPorts]), if_pos hPairs]

theorem pairUp_cons_of_names
    (hi : Names i (key, port))
    (hApart : ∀ j ∈ seen, Apart j i) :
    pairUp seen (key :: keys) (port :: ports) = pairUp (seen ++ [i]) keys ports := by
  have hPorts : seen.any (·.port == i.port) = false := by
    simpa using fun j hj => (hApart j hj).1
  have hPairs : seen.any (fun j => j.coldkey == i.coldkey && j.hotkey == i.hotkey) = false := by
    simp only [List.any_eq_false, Bool.and_eq_true, beq_iff_eq, not_and]
    intro j hj hCold hHot
    exact (hApart j hj).2 (by rw [hCold, hHot])
  rw [pairUp_cons_of_names_eq hi, if_neg (by simp [hPorts]), if_neg (by simp [hPairs])]

/- Entries that name identities apart from all before them are read
into those identities, one by one. -/
theorem pairUp_append_of_names
    {ks₀ ps₀ : List String}
    (hLength : ks₀.length = ps₀.length)
    (hFresh : List.Forall₂ Names fresh (ks₀.zip ps₀))
    (hApart : (seen ++ fresh).Pairwise Apart) :
    pairUp seen (ks₀ ++ keys) (ps₀ ++ ports) = pairUp (seen ++ fresh) keys ports := by
  induction ks₀ generalizing seen fresh ps₀ with
  | nil =>
    rw [List.eq_nil_of_length_eq_zero hLength.symm] at hFresh ⊢
    rw [List.zip_nil_right, List.forall₂_nil_right_iff] at hFresh
    simp [hFresh]
  | cons key ks₀ ih =>
    cases ps₀ with
    | nil => simp at hLength
    | cons port ps₀ =>
      rw [List.zip_cons_cons, List.forall₂_cons_right_iff] at hFresh
      obtain ⟨i, rest, hi, hRest, rfl⟩ := hFresh
      have hFirst : ∀ j ∈ seen, Apart j i :=
        fun j hj => (List.pairwise_append.mp hApart).2.2 j hj i List.mem_cons_self
      rw [List.cons_append, List.cons_append, pairUp_cons_of_names hi hFirst,
        ih (by simpa using hLength) hRest (by simpa using hApart)]
      simp

/- What pairing the entries gives after the identities `seen`: the
identities that they name, each apart from all before it; or else the
first flaw, after the identities that the entries before it name. -/
def PairVerdict
    (seen : List Identity)
    (entries : List (String × String)) :
    Outcome (List Identity) → Prop
  | .ok ids => ∃ fresh, ids = seen ++ fresh ∧ List.Forall₂ Names fresh entries ∧
      (seen ++ fresh).Pairwise Apart
  | .error e => ∃ before entry after fresh, entries = before ++ entry :: after ∧
      List.Forall₂ Names fresh before ∧ (seen ++ fresh).Pairwise Apart ∧
      FirstFlaw (seen ++ fresh) entry e

/- A verdict on the entries after an identity the first entry names is a
verdict on all the entries. -/
theorem PairVerdict.cons
    {entry : String × String}
    {entries : List (String × String)}
    {r : Outcome (List Identity)}
    (hi : Names i entry)
    (h : PairVerdict (seen ++ [i]) entries r) :
    PairVerdict seen (entry :: entries) r := by
  cases r with
  | ok ids =>
    obtain ⟨fresh, rfl, hFresh, hApart⟩ := h
    exact ⟨i :: fresh, by simp, .cons hi hFresh, by simpa using hApart⟩
  | error e =>
    obtain ⟨before, flawed, after, fresh, rfl, hFresh, hApart, hFlaw⟩ := h
    exact ⟨entry :: before, flawed, after, i :: fresh, rfl, .cons hi hFresh,
      by simpa using hApart, by simpa using hFlaw⟩

theorem pairUp_pairVerdict
    (hSeen : seen.Pairwise Apart)
    (hLength : keys.length = ports.length) :
    PairVerdict seen (keys.zip ports) (pairUp seen keys ports) := by
  induction keys generalizing seen ports with
  | nil =>
    rw [List.eq_nil_of_length_eq_zero hLength.symm]
    exact ⟨[], by simp, .nil, by simpa using hSeen⟩
  | cons key keys ih =>
    cases ports with
    | nil => simp at hLength
    | cons port ports =>
      rw [List.zip_cons_cons]
      rcases firstFlaw_or_names seen (key, port) with ⟨e, hFlaw⟩ | ⟨i, hi, hApart⟩
      · -- the entries at hand stop the pairing
        rw [pairUp_cons_of_firstFlaw hFlaw]
        exact ⟨[], (key, port), keys.zip ports, [], rfl, .nil, by simpa using hSeen,
          by simpa using hFlaw⟩
      · -- the entries at hand name a fresh identity, and the rest is read after it
        have hSeen' : (seen ++ [i]).Pairwise Apart :=
          List.pairwise_append.mpr ⟨hSeen, List.pairwise_singleton _ _,
            fun j hj k hk => List.mem_singleton.mp hk ▸ hApart j hj⟩
        rw [pairUp_cons_of_names hi hApart]
        exact PairVerdict.cons hi (ih hSeen' (by simpa using hLength))

theorem pairUp_of_pairVerdict
    {r : Outcome (List Identity)}
    (hLength : keys.length = ports.length)
    (h : PairVerdict seen (keys.zip ports) r) :
    pairUp seen keys ports = r := by
  cases r with
  | ok ids =>
    obtain ⟨fresh, rfl, hFresh, hApart⟩ := h
    have hRun : pairUp seen (keys ++ []) (ports ++ []) = pairUp (seen ++ fresh) [] [] :=
      pairUp_append_of_names hLength hFresh hApart
    rw [List.append_nil, List.append_nil] at hRun
    rw [hRun]
    rfl
  | error e =>
    obtain ⟨before, ⟨key, port⟩, after, fresh, hSplit, hFresh, hApart, hFlaw⟩ := h
    obtain ⟨ks₀, rest₁, ps₀, rest₂, hLength₀, rfl, rfl, rfl, hAfter⟩ :=
      List.zip_eq_append_iff.mp hSplit
    obtain ⟨ks, ps, rfl, rfl, rfl⟩ := List.zip_eq_cons_iff.mp hAfter.symm
    rw [pairUp_append_of_names hLength₀ hFresh hApart, pairUp_cons_of_firstFlaw hFlaw]

/- Pairing entries of the same number gives exactly its verdict. -/
theorem pairUp_eq_iff
    {r : Outcome (List Identity)}
    (hSeen : seen.Pairwise Apart)
    (hLength : keys.length = ports.length) :
    pairUp seen keys ports = r ↔ PairVerdict seen (keys.zip ports) r :=
  ⟨fun h => h ▸ pairUp_pairVerdict hSeen hLength, pairUp_of_pairVerdict hLength⟩

end Pairing

------------------------------------------------------------
-- The Shared Lists
------------------------------------------------------------

/- A list has no entries exactly when it is all blank: splitting a text
that is not leaves at least one piece. -/
theorem splitList_eq_nil_iff
    {list : String} :
    splitList list = [] ↔ Text.isAllBlank list = true := by
  unfold splitList
  split
  · simp_all
  · simp_all [Text.pieces, List.splitOn_ne_nil]

/- Identities pairwise apart are those with pairwise different ports and
pairwise different key pairs. -/
theorem pairwise_apart_iff
    {ids : List Identity} :
    ids.Pairwise Apart ↔
      (ids.map (·.port)).Nodup ∧ (ids.map fun i => (i.coldkey, i.hotkey)).Nodup := by
  unfold Apart
  rw [List.pairwise_and_iff]
  simp only [List.Nodup, List.pairwise_map]

/- The verdict on a fleet's shared key list and port list, check by
check.  The key list must hold an entry and the two lists as many
entries; then each key entry with the port entry beside it must name an
identity, and no two identities may share a port or a key pair.  The
first entry that fails a check gives the error of that check. -/
def SharedVerdict (keys ports : String) : Outcome (List Identity) → Prop
  | .ok ids =>
    Text.isAllBlank keys = false ∧ (splitList keys).length = (splitList ports).length ∧
      List.Forall₂ Names ids ((splitList keys).zip (splitList ports)) ∧
      (ids.map (·.port)).Nodup ∧ (ids.map fun i => (i.coldkey, i.hotkey)).Nodup
  | .error e =>
    (Text.isAllBlank keys = true ∧ e = .config "wallet.shared_keys is empty") ∨
    (Text.isAllBlank keys = false ∧ (splitList keys).length ≠ (splitList ports).length ∧
      e = .config ("wallet.shared_keys has " ++ toString (splitList keys).length ++
        " entries but axon.shared_ports has " ++ toString (splitList ports).length)) ∨
    (Text.isAllBlank keys = false ∧ (splitList keys).length = (splitList ports).length ∧
      ∃ before entry after ids, (splitList keys).zip (splitList ports) = before ++ entry :: after ∧
        List.Forall₂ Names ids before ∧ (ids.map (·.port)).Nodup ∧
        (ids.map fun i => (i.coldkey, i.hotkey)).Nodup ∧ FirstFlaw ids entry e)

theorem parseShared_eq_iff
    (keys ports : String)
    (r : Outcome (List Identity)) :
    parseShared keys ports = r ↔ SharedVerdict keys ports r := by
  unfold parseShared
  dsimp only
  by_cases hBlank : Text.isAllBlank keys = true
  · -- a blank key list is refused first
    have hEmpty : (splitList keys).isEmpty = true := by
      simp [splitList_eq_nil_iff.mpr hBlank]
    rw [if_pos hEmpty]
    cases r with
    | ok ids => simp [SharedVerdict, hBlank]
    | error e => simp [SharedVerdict, hBlank, eq_comm]
  · have hEntries : (splitList keys).isEmpty = false := by
      simpa [splitList_eq_nil_iff] using hBlank
    rw [if_neg (by simp [hEntries])]
    by_cases hLength : (splitList keys).length = (splitList ports).length
    · -- lists of one length are read entry by entry
      rw [if_neg (not_not.mpr hLength), pairUp_eq_iff List.Pairwise.nil hLength]
      cases r with
      | ok ids => simp [PairVerdict, SharedVerdict, hBlank, hLength, pairwise_apart_iff]
      | error e => simp [PairVerdict, SharedVerdict, hBlank, hLength, pairwise_apart_iff, and_assoc]
    · -- lists of different lengths are refused before any entry is read
      rw [if_pos hLength]
      cases r with
      | ok ids => simp [SharedVerdict, hBlank, hLength]
      | error e => simp [SharedVerdict, hBlank, hLength, eq_comm]

end Identity

end NeuronFleet
