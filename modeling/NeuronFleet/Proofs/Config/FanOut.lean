import NeuronFleet.Config.Fleet
import NeuronFleet.FileTree
import Mathlib.Data.List.Forall2
import Mathlib.Data.List.Induction

/-
  Fanning a fleet's configuration out into its workers' configurations.

  A configuration without shared keys is its own single worker.  With
  shared keys and ports, each key entry is paired with the port entry
  at its position, and the identities are refused as a whole at the
  first malformed entry, repeated port or repeated key pair: the
  identities accepted own pairwise different ports and key pairs.  Each
  worker configuration is the fleet's with one identity put in and the
  shared lists cleared, so it fans out to itself alone.

  Hotkeys alone may repeat under different coldkeys, and a working
  directory is joined from the raw names and resolved as the file
  system resolves it, each `..` taking off the component before it.  Two
  workers stay in different directories only while every key is one
  plain path component and the neuron name does not climb above the
  directory it starts from.

  Main declarations:
    * `Identity.Apart`, `Identity.Parsed`, `Identity.parseShared_spec`
    * `FleetConfig.fanOut_spec`
    * `splitParts_joinPath`, `foldl_stepPart_of_not_climbing`, `FleetConfig.pathParts_fullPath`
    * `FleetConfig.fanOut_keys_and_workdirs_apart`
-/

namespace NeuronFleet

------------------------------------------------------------
-- Identities Read From the Shared Lists
------------------------------------------------------------

namespace Identity

/- Two identities that share neither their port nor their key pair. -/
def Apart (a b : Identity) : Prop :=
  a.port ≠ b.port ∧ (a.coldkey, a.hotkey) ≠ (b.coldkey, b.hotkey)

/- An identity read from a key entry and the port entry beside it. -/
def Parsed
    (i : Identity)
    (entry : String × String) :
    Prop :=
  parseKey entry.1 = .ok (i.coldkey, i.hotkey) ∧ parsePort entry.2 = .ok i.port

/- One step of the pairing: the entries at hand are read into an
identity apart from every identity accepted before it. -/
theorem pairUp_cons_eq_ok
    {seen ids : List Identity}
    {key port : String}
    {keys ports : List String}
    (h : pairUp seen (key :: keys) (port :: ports) = .ok ids) :
    ∃ i, Parsed i (key, port) ∧ (∀ j ∈ seen, Apart j i) ∧
      pairUp (seen ++ [i]) keys ports = .ok ids := by
  simp only [pairUp, bind, Except.bind] at h
  cases hKey : parseKey key with
  | error e => simp [hKey] at h
  | ok pair =>
    obtain ⟨coldkey, hotkey⟩ := pair
    cases hPort : parsePort port with
    | error e => simp [hKey, hPort] at h
    | ok p =>
      simp only [hKey, hPort] at h
      split at h
      · cases h
      rename_i hPorts
      split at h
      · cases h
      rename_i hPairs
      refine ⟨⟨coldkey, hotkey, p⟩, ⟨hKey, hPort⟩, ?_, h⟩
      intro j hj
      constructor
      · intro hEq
        exact hPorts (List.any_eq_true.mpr ⟨j, hj, by simp [hEq]⟩)
      · intro hEq
        simp only [Prod.mk.injEq] at hEq
        exact hPairs (List.any_eq_true.mpr ⟨j, hj, by simp [hEq]⟩)

/- A whole run of the pairing keeps the identities accepted before it
and adds one identity per pair of entries, in order, each apart from
all before it. -/
theorem pairUp_spec
    {seen ids : List Identity}
    {keys ports : List String}
    (hSeen : seen.Pairwise Apart)
    (hLength : keys.length = ports.length)
    (h : pairUp seen keys ports = .ok ids) :
    ∃ fresh, ids = seen ++ fresh ∧ List.Forall₂ Parsed fresh (keys.zip ports) ∧
      ids.Pairwise Apart := by
  induction keys generalizing seen ports with
  | nil =>
    have hDone : ids = seen := by
      simp only [pairUp, Except.ok.injEq] at h
      exact h.symm
    exact ⟨[], by simp [hDone], by simp, hDone ▸ hSeen⟩
  | cons key keys ih =>
    cases ports with
    | nil => simp at hLength
    | cons port ports =>
      obtain ⟨i, hParsed, hApart, hRest⟩ := pairUp_cons_eq_ok h
      have hSeen' : (seen ++ [i]).Pairwise Apart := by
        refine List.pairwise_append.mpr ⟨hSeen, List.pairwise_singleton _ _, ?_⟩
        intro a ha b hb
        rw [List.mem_singleton.mp hb]
        exact hApart a ha
      obtain ⟨fresh, hIds, hFresh, hPairwise⟩ := ih hSeen' (by simpa using hLength) hRest
      exact ⟨i :: fresh, by simp [hIds], List.Forall₂.cons hParsed hFresh, hPairwise⟩

/- The identities of a fleet are read from the key and port entries in
order, and no two of them share a port or a key pair. -/
theorem parseShared_spec
    {keys ports : String}
    {ids : List Identity}
    (h : parseShared keys ports = .ok ids) :
    List.Forall₂ Parsed ids ((splitList keys).zip (splitList ports)) ∧ ids.Pairwise Apart := by
  simp only [parseShared] at h
  split at h
  · cases h
  split at h
  · cases h
  rename_i hLength
  obtain ⟨fresh, hIds, hFresh, hPairwise⟩ := pairUp_spec List.Pairwise.nil (not_not.mp hLength) h
  rw [List.nil_append] at hIds
  exact ⟨hIds ▸ hFresh, hPairwise⟩

end Identity

------------------------------------------------------------
-- Worker Configurations
------------------------------------------------------------

namespace FleetConfig

@[simp] theorem withIdentity_identity
    (c : FleetConfig)
    (i : Identity) :
    (c.withIdentity i).identity = i := rfl

@[simp] theorem withIdentity_sharedKeys
    (c : FleetConfig)
    (i : Identity) :
    (c.withIdentity i).wallet.sharedKeys = none := rfl

@[simp] theorem withIdentity_neuron
    (c : FleetConfig)
    (i : Identity) :
    (c.withIdentity i).neuron = c.neuron := rfl

theorem fanOut_of_sharedKeys_none
    {c : FleetConfig}
    (h : c.wallet.sharedKeys = none) :
    c.fanOut = .ok [c] := by
  simp [fanOut, h]

theorem fanOut_of_shared
    {c : FleetConfig}
    {keys ports : String}
    (hKeys : c.wallet.sharedKeys = some keys)
    (hPorts : c.axon.sharedPorts = some ports) :
    c.fanOut = (Identity.parseShared keys ports).map (·.map c.withIdentity) := by
  simp only [fanOut, hKeys, hPorts]
  cases Identity.parseShared keys ports <;> rfl

/- A worker configuration fans out to itself alone. -/
theorem fanOut_withIdentity
    (c : FleetConfig)
    (i : Identity) :
    (c.withIdentity i).fanOut = .ok [c.withIdentity i] :=
  fanOut_of_sharedKeys_none (withIdentity_sharedKeys c i)

/- What fanning out does, case by case: a configuration without shared
keys is returned as it is; shared keys without shared ports are an
error; otherwise fanning out fails exactly as reading the identities
does, and else gives, in the order of the key entries, the
configuration with each identity put in and the shared lists cleared.
The workers then serve under the identities read, on pairwise
different ports, and each fans out to itself alone. -/
theorem fanOut_spec (c : FleetConfig) :
    (c.wallet.sharedKeys = none → c.fanOut = .ok [c]) ∧
    (∀ keys, c.wallet.sharedKeys = some keys → c.axon.sharedPorts = none →
      c.fanOut = .error (.config "wallet.shared_keys is set but axon.shared_ports is missing")) ∧
    ∀ keys ports, c.wallet.sharedKeys = some keys → c.axon.sharedPorts = some ports →
      (∀ e, c.fanOut = .error e ↔ Identity.parseShared keys ports = .error e) ∧
      ∀ ids, Identity.parseShared keys ports = .ok ids →
        c.fanOut = .ok (ids.map fun i =>
          { c with
            wallet := { c.wallet with name := i.coldkey, hotkey := i.hotkey, sharedKeys := none }
            axon := { c.axon with port := i.port, sharedPorts := none } }) ∧
        List.Forall₂ Identity.Parsed ids
          ((Identity.splitList keys).zip (Identity.splitList ports)) ∧
        (ids.map c.withIdentity).map identity = ids ∧
        (ids.map (·.port)).Pairwise (· ≠ ·) ∧
        ∀ w ∈ ids.map c.withIdentity, w.fanOut = .ok [w] := by
  refine ⟨fanOut_of_sharedKeys_none, ?_, ?_⟩
  · intro keys hKeys hPorts
    simp [fanOut, hKeys, hPorts]
  intro keys ports hKeys hPorts
  have hFan := fanOut_of_shared hKeys hPorts
  refine ⟨fun e => ?_, fun ids hIds => ?_⟩
  · rw [hFan]
    cases Identity.parseShared keys ports <;> simp [Except.map]
  obtain ⟨hParsed, hApart⟩ := Identity.parseShared_spec hIds
  refine ⟨by rw [hFan, hIds]; rfl, hParsed, by simp [Function.comp_def], ?_, ?_⟩
  · exact List.pairwise_map.mpr (hApart.imp fun h => h.1)
  · intro w hw
    obtain ⟨i, -, rfl⟩ := List.mem_map.mp hw
    exact fanOut_withIdentity c i

end FleetConfig

------------------------------------------------------------
-- Working Directories
------------------------------------------------------------

/- A name that stands for one directory of its own: not empty, not `.`
or `..` (which a file system reads as the directory itself and its
parent), and without `/`. -/
def IsComponent (s : String) : Prop :=
  s ≠ "" ∧ s ≠ "." ∧ s ≠ ".." ∧ '/' ∉ s.toList

theorem splitParts_append_slash (a b : String) :
    splitParts (a ++ "/" ++ b) = splitParts a ++ splitParts b := by
  simp only [splitParts, Text.pieces, String.toList_append]
  simp [List.splitOn_append_cons_self]

theorem splitParts_of_isComponent
    {s : String}
    (h : IsComponent s) :
    splitParts s = [s] := by
  obtain ⟨hEmpty, hDot, -, hSlash⟩ := h
  simp [splitParts, Text.pieces, List.splitOn_eq_singleton hSlash, hEmpty, hDot]

theorem startsWith_slash_of_isComponent
    {s : String}
    (h : IsComponent s) :
    s.startsWith "/" = false := by
  rw [String.startsWith_string_eq_false_iff]
  intro hPrefix
  exact h.2.2.2 (hPrefix.subset (by simp))

/- Joining a part that does not start at the root adds its components to
the path's: a separator is put in only where the path needs one. -/
theorem splitParts_joinPath
    (base part : String)
    (hRelative : part.startsWith "/" = false) :
    splitParts (Config.joinPath base part) = splitParts base ++ splitParts part := by
  unfold Config.joinPath
  rw [if_neg (by simp [hRelative])]
  split
  case isTrue hEnd =>
    rcases Bool.or_eq_true_iff.mp hEnd with hEmpty | hSlash
    · rw [String.isEmpty_iff.mp hEmpty]
      simp [splitParts, Text.pieces]
    · rw [← String.endsWith_toSlice, String.Slice.endsWith_string_iff,
        String.copy_toSlice] at hSlash
      obtain ⟨t, ht⟩ := hSlash
      have hBase : base = String.ofList t ++ "/" := by
        apply String.toList_inj.mp
        simpa using ht.symm
      -- the separator ending the path stands for the empty component
      have hTrailing : splitParts base = splitParts (String.ofList t) := by
        simpa [hBase, splitParts, Text.pieces] using splitParts_append_slash (String.ofList t) ""
      rw [hTrailing, hBase, splitParts_append_slash]
  case isFalse => exact splitParts_append_slash base part

/-
  Components that never climb above where they start, their `..` each
  taking off one of their own, resolve the same way after any path: they
  add their own resolution to it.  The induction is on the components
  from the last; the path before them is never reached.
-/
theorem foldl_stepPart_of_not_climbing
    (ps : List String)
    (hStays : ".." ∉ ps.foldl stepPart []) :
    ∀ acc, ps.foldl stepPart acc = ps.foldl stepPart [] ++ acc := by
  induction ps using List.reverseRecOn with
  | nil => intro acc; rfl
  | append_singleton init c ih =>
      intro acc
      simp only [List.foldl_append, List.foldl_cons, List.foldl_nil] at hStays ⊢
      by_cases hUp : c = ".."
      · -- a `..` takes off the last component of `init`'s own, which is not a `..`
        subst hUp
        cases hInit : init.foldl stepPart [] with
        | nil => simp [stepPart, hInit] at hStays
        | cons d rest =>
            rw [hInit] at hStays
            by_cases hd : d = ".."
            · simp [stepPart, hd] at hStays
            · have hStaysInit : ".." ∉ init.foldl stepPart [] := by
                simp only [stepPart, hd, if_false, if_true] at hStays
                rw [hInit]
                simp [Ne.symm hd, hStays]
              rw [ih hStaysInit acc, hInit]
              simp [stepPart, hd]
      · have hStaysInit : ".." ∉ init.foldl stepPart [] := by
          simp only [stepPart, hUp, if_false, List.mem_cons, not_or] at hStays
          exact hStays.2
        rw [ih hStaysInit acc]
        simp [stepPart, hUp]

/- A name that is one plain component adds itself to a resolved path. -/
theorem stepPart_of_isComponent
    {s : String}
    (h : IsComponent s)
    (acc : List String) :
    stepPart acc s = s :: acc := by
  simp [stepPart, h.2.2.1]

namespace FleetConfig

/- The working directory of a configuration whose names are plain
components and whose neuron's name neither starts at the root nor climbs
above where it starts: the data path's components, the coldkey, the
hotkey, then the neuron's name's components. -/
theorem pathParts_fullPath
    {c : FleetConfig}
    (hName : IsComponent c.wallet.name)
    (hHotkey : IsComponent c.wallet.hotkey)
    (hRelative : c.neuron.name.startsWith "/" = false)
    (hStays : ".." ∉ pathParts c.neuron.name) :
    pathParts c.fullPath =
      pathParts c.neuron.datapath ++ [c.wallet.name, c.wallet.hotkey] ++ pathParts c.neuron.name := by
  have hStays' : ".." ∉ (splitParts c.neuron.name).foldl stepPart [] := by
    simpa [pathParts] using hStays
  unfold fullPath pathParts
  rw [splitParts_joinPath _ _ hRelative,
    splitParts_joinPath _ _ (startsWith_slash_of_isComponent hHotkey),
    splitParts_joinPath _ _ (startsWith_slash_of_isComponent hName),
    splitParts_of_isComponent hName, splitParts_of_isComponent hHotkey]
  simp only [List.foldl_append, List.foldl_cons, List.foldl_nil,
    stepPart_of_isComponent hName, stepPart_of_isComponent hHotkey]
  rw [foldl_stepPart_of_not_climbing _ hStays']
  simp

/- What every fanning out gives: workers with pairwise different ports
and key pairs, all with the fleet's serving loop. -/
theorem fanOut_eq_ok
    {c : FleetConfig}
    {ws : List FleetConfig}
    (h : c.fanOut = .ok ws) :
    ws.Pairwise (fun a b => a.identity.Apart b.identity) ∧ ∀ w ∈ ws, w.neuron = c.neuron := by
  cases hKeys : c.wallet.sharedKeys with
  | none =>
    rw [fanOut_of_sharedKeys_none hKeys, Except.ok.injEq] at h
    subst h
    exact ⟨List.pairwise_singleton _ _, by simp⟩
  | some keys =>
    cases hPorts : c.axon.sharedPorts with
    | none => simp [fanOut, hKeys, hPorts] at h
    | some ports =>
      rw [fanOut_of_shared hKeys hPorts] at h
      cases hIds : Identity.parseShared keys ports with
      | error e => simp [hIds, Except.map] at h
      | ok ids =>
        simp only [hIds, Except.map, Except.ok.injEq] at h
        subst h
        refine ⟨List.pairwise_map.mpr ?_, by simp⟩
        simpa using (Identity.parseShared_spec hIds).2

/- Two workers of one serving loop, whose names are plain components, work
in the same directory only when they have the same key pair. -/
theorem workdirs_apart
    {a b : FleetConfig}
    (hNeuron : a.neuron = b.neuron)
    (hNamesA : IsComponent a.wallet.name ∧ IsComponent a.wallet.hotkey)
    (hNamesB : IsComponent b.wallet.name ∧ IsComponent b.wallet.hotkey)
    (hRelative : a.neuron.name.startsWith "/" = false)
    (hStays : ".." ∉ pathParts a.neuron.name)
    (hKeys : (a.wallet.name, a.wallet.hotkey) ≠ (b.wallet.name, b.wallet.hotkey)) :
    pathParts a.fullPath ≠ pathParts b.fullPath := by
  intro hSame
  rw [pathParts_fullPath hNamesA.1 hNamesA.2 hRelative hStays,
    pathParts_fullPath hNamesB.1 hNamesB.2 (hNeuron ▸ hRelative) (hNeuron ▸ hStays), hNeuron] at hSame
  have hMiddle : [a.wallet.name, a.wallet.hotkey] = [b.wallet.name, b.wallet.hotkey] :=
    List.append_cancel_left (List.append_cancel_right hSame)
  simp only [List.cons.injEq, and_true] at hMiddle
  exact hKeys (Prod.ext hMiddle.1 hMiddle.2)

/- The workers of a fleet never share a port or a key pair.  Their
working directories are apart too when every coldkey and hotkey is one
plain path component and the neuron's name neither starts at the root
nor climbs, through `..`, above where it starts. -/
theorem fanOut_keys_and_workdirs_apart
    {c : FleetConfig}
    {ws : List FleetConfig}
    (h : c.fanOut = .ok ws) :
    ws.Pairwise (fun a b => a.axon.port ≠ b.axon.port ∧
        (a.wallet.name, a.wallet.hotkey) ≠ (b.wallet.name, b.wallet.hotkey)) ∧
      ((∀ w ∈ ws, IsComponent w.wallet.name ∧ IsComponent w.wallet.hotkey) →
        c.neuron.name.startsWith "/" = false →
        ".." ∉ pathParts c.neuron.name →
        ws.Pairwise (fun a b => pathParts a.fullPath ≠ pathParts b.fullPath)) := by
  obtain ⟨hApart, hNeuron⟩ := fanOut_eq_ok h
  refine ⟨hApart, fun hNames hRelative hStays => ?_⟩
  refine hApart.imp_of_mem fun {a b} ha hb hAB => ?_
  rw [← hNeuron a ha] at hRelative hStays
  exact workdirs_apart ((hNeuron a ha).trans (hNeuron b hb).symm) (hNames a ha) (hNames b hb)
    hRelative hStays hAB.2

/- Two workers of the fleet `A:x,B:x` on ports 9000 and 9001 work apart. -/
theorem fanOut_two_coldkeys_apart :
    let c : FleetConfig :=
      { wallet := { sharedKeys := some "A:x,B:x" }, axon := { sharedPorts := some "9000,9001" } }
    ∃ ws, c.fanOut = .ok ws ∧
      ws.Pairwise (fun a b => a.axon.port ≠ b.axon.port ∧
          (a.wallet.name, a.wallet.hotkey) ≠ (b.wallet.name, b.wallet.hotkey)) ∧
      ((∀ w ∈ ws, IsComponent w.wallet.name ∧ IsComponent w.wallet.hotkey) →
        c.neuron.name.startsWith "/" = false →
        ".." ∉ pathParts c.neuron.name →
        ws.Pairwise (fun a b => pathParts a.fullPath ≠ pathParts b.fullPath)) :=
  ⟨_, rfl, fanOut_keys_and_workdirs_apart rfl⟩

/- Keys `A:x` and `B:x` give two workers one hotkey, and keys `a/b:c`
and `a:b/c` give two workers one working directory; so do keys `A:x`
and `A:y` when the neuron's name is `..`, both working in `data/A`. -/
theorem fanOut_shares_hotkey_and_workdir :
    let c : FleetConfig :=
      { wallet := { sharedKeys := some "A:x,B:x,a/b:c,a:b/c" },
        axon := { sharedPorts := some "9000,9001,9002,9003" } }
    let c' : FleetConfig :=
      { wallet := { sharedKeys := some "A:x,A:y" }, axon := { sharedPorts := some "9000,9001" },
        neuron := { name := ".." } }
    (∃ ws, c.fanOut = .ok ws ∧
      ¬ ws.Pairwise (fun a b => a.wallet.hotkey ≠ b.wallet.hotkey) ∧
      ¬ ws.Pairwise (fun a b => pathParts a.fullPath ≠ pathParts b.fullPath)) ∧
    ∃ ws, c'.fanOut = .ok ws ∧ ¬ ws.Pairwise (fun a b => pathParts a.fullPath ≠ pathParts b.fullPath) := by
  intro c c'
  have hOut : (c.fanOut.map fun ws => (ws.map (·.wallet.hotkey), ws.map (pathParts ·.fullPath))).toOption =
      some (["x", "x", "c", "b/c"],
        [["data", "A", "x", "core_server"], ["data", "B", "x", "core_server"],
          ["data", "a", "b", "c", "core_server"], ["data", "a", "b", "c", "core_server"]]) := by
    decide +kernel
  have hOut' : (c'.fanOut.map fun ws => ws.map (pathParts ·.fullPath)).toOption =
      some [["data", "A"], ["data", "A"]] := by
    decide +kernel
  refine ⟨?_, ?_⟩
  · cases hFan : c.fanOut with
    | error e => rw [hFan] at hOut; cases hOut
    | ok ws =>
      rw [hFan] at hOut
      obtain ⟨hHotkeys, hDirs⟩ := Prod.mk.inj (Option.some.inj hOut)
      refine ⟨ws, rfl, fun hApart => ?_, fun hApart => ?_⟩
      · have hMapped := (List.pairwise_map (f := fun w : FleetConfig => w.wallet.hotkey)
          (R := (· ≠ ·))).mpr hApart
        rw [hHotkeys] at hMapped
        exact absurd hMapped (by decide)
      · have hMapped := (List.pairwise_map (f := fun w : FleetConfig => pathParts w.fullPath)
          (R := (· ≠ ·))).mpr hApart
        rw [hDirs] at hMapped
        exact absurd hMapped (by decide)
  · cases hFan : c'.fanOut with
    | error e => rw [hFan] at hOut'; cases hOut'
    | ok ws =>
      rw [hFan] at hOut'
      have hDirs : ws.map (fun w => pathParts w.fullPath) = [["data", "A"], ["data", "A"]] :=
        Option.some.inj hOut'
      refine ⟨ws, rfl, fun hApart => ?_⟩
      have hMapped := (List.pairwise_map (f := fun w : FleetConfig => pathParts w.fullPath)
        (R := (· ≠ ·))).mpr hApart
      rw [hDirs] at hMapped
      exact absurd hMapped (by decide)

end FleetConfig

end NeuronFleet
