import NeuronFleet.Error
import NeuronFleet.Text.Blank
import NeuronFleet.Json.Basic

/-
  Identities of the workers of a fleet.

  A fleet is described by two comma-separated lists: keys
  `coldkey:hotkey` and ports.  `Identity.parseShared` pairs them up in
  order.  Entries are trimmed of blanks; a list of blanks only is
  empty.  The checks run in a fixed order, and the first failing one
  gives the error: no keys, different lengths, then entry by entry the
  key's form, the port's form, a repeated port, a repeated key pair.

  Main definitions:
    * `Identity`, `Identity.display`
    * `Identity.splitList`, `Identity.parseKey`, `Identity.parsePort`
    * `Identity.parseShared`
-/

namespace NeuronFleet

------------------------------------------------------------
-- Identities
------------------------------------------------------------

/- Who a worker is: its wallet keys and its port. -/
structure Identity where
  coldkey : String
  hotkey : String
  port : Nat
  deriving Repr, DecidableEq, Inhabited

namespace Identity

/- `coldkey:hotkey@port`. -/
def display (i : Identity) : String :=
  i.coldkey ++ ":" ++ i.hotkey ++ "@" ++ toString i.port

/- The identity as a keyed value, its display text included. -/
def toJson (i : Identity) : Json :=
  .obj [("coldkey", .str i.coldkey), ("hotkey", .str i.hotkey), ("port", .int i.port),
    ("display", .str i.display)]

/- The entries of a comma-separated list, each trimmed; a list of
blanks only has no entries. -/
def splitList (list : String) : List String :=
  if Text.isAllBlank list then []
  else (Text.pieces ',' list).map Text.trim

/- A key entry `coldkey:hotkey`: exactly one colon, both sides not
blank, each side trimmed. -/
def parseKey (entry : String) : Outcome (String × String) :=
  match Text.pieces ':' entry with
  | [cold, hot] =>
    if Text.isAllBlank cold || Text.isAllBlank hot then
      .error (.config ("malformed shared key '" ++ entry ++ "', expected 'coldkey:hotkey'"))
    else .ok (Text.trim cold, Text.trim hot)
  | _ => .error (.config ("malformed shared key '" ++ entry ++ "', expected 'coldkey:hotkey'"))

/- A port entry: a natural number from 1 to 65535 in decimal digits,
an optional leading `+`. -/
def parsePort (entry : String) : Outcome Nat :=
  match Text.readUnsigned entry 65535 with
  | some p => if p = 0 then .error (.config ("malformed shared port '" ++ entry ++ "', expected 1-65535"))
              else .ok p
  | none => .error (.config ("malformed shared port '" ++ entry ++ "', expected 1-65535"))

/- Pairs key and port entries in order, refusing a malformed entry, a
repeated port and a repeated key pair; `seen` holds the identities
already accepted. -/
def pairUp (seen : List Identity) : List String → List String → Outcome (List Identity)
  | key :: keys, port :: ports => do
    let (coldkey, hotkey) ← parseKey key
    let p ← parsePort port
    if seen.any (·.port == p) then
      throw (.config ("port " ++ toString p ++ " appears more than once in axon.shared_ports"))
    if seen.any (fun i => i.coldkey == coldkey && i.hotkey == hotkey) then
      throw (.config ("key " ++ coldkey ++ ":" ++ hotkey ++ " appears more than once in wallet.shared_keys"))
    pairUp (seen ++ [⟨coldkey, hotkey, p⟩]) keys ports
  | _, _ => .ok seen

/- The identities of a fleet from its key list and port list. -/
def parseShared (keys ports : String) : Outcome (List Identity) :=
  let ks := splitList keys
  let ps := splitList ports
  if ks.isEmpty then .error (.config "wallet.shared_keys is empty")
  else if ks.length ≠ ps.length then
    .error (.config ("wallet.shared_keys has " ++ toString ks.length ++
      " entries but axon.shared_ports has " ++ toString ps.length))
  else pairUp [] ks ps

end Identity

end NeuronFleet
