import NeuronFleet.Number.Double
import NeuronFleet.Error

/-
  The axon: a neuron's endpoint and its table of peer priorities.

  Publishing weights hands the axon the fleet's neurons and the column
  of weights the others put on this neuron; the table then maps each
  peer to its priority, the last one given for a peer that is listed
  twice.  Peers are ranked by priority, highest first, ties broken by
  peer id in ascending order; a NaN priority ties with every other, so
  a table holding one has no consistent ranking.  An axon that reserves
  its port needs an endpoint `address:port` that reads as a socket
  address: four decimal octets without leading zeros, or a bracketed
  IPv6 address, and one that no other socket holds.

  Main definitions:
    * `Axon`, `Axon.atEndpoint`, `Axon.setPriority`, `Axon.priorityOf`,
      `Axon.rankCompare`, `Axon.ranked`
    * `Endpoint.isSocketAddress`
-/

namespace NeuronFleet

------------------------------------------------------------
-- Socket addresses
------------------------------------------------------------

namespace Endpoint

/- A run of decimal digits, at most `maxLen` of them (any number when
`maxLen = 0`), refusing a leading zero unless `zeroPrefix`; its value
and the rest. -/
def number
    (cs : List Char)
    (maxLen : Nat)
    (zeroPrefix : Bool) :
    Option (Nat × List Char) :=
  let ds := cs.takeWhile Char.isDigit
  let rest := cs.dropWhile Char.isDigit
  if ds.isEmpty then none
  else if maxLen ≠ 0 ∧ ds.length > maxLen then none
  else if !zeroPrefix ∧ ds.length > 1 ∧ ds.head? = some '0' then none
  else some (ds.foldl (fun n c => 10 * n + (c.toNat - 48)) 0, rest)

/- Reads four dot-separated octets; the rest. -/
def ipv4 (cs : List Char) : Option (List Char) := do
  let (a, r) ← number cs 3 false
  guard (a ≤ 255)
  let r ← match r with | '.' :: t => some t | _ => none
  let (b, r) ← number r 3 false
  guard (b ≤ 255)
  let r ← match r with | '.' :: t => some t | _ => none
  let (c, r) ← number r 3 false
  guard (c ≤ 255)
  let r ← match r with | '.' :: t => some t | _ => none
  let (d, r) ← number r 3 false
  guard (d ≤ 255)
  return r

/- A group of one to four hexadecimal digits. -/
def isGroup (g : List Char) : Bool :=
  1 ≤ g.length && g.length ≤ 4 && g.all Char.isHexDigit

/- The number of 16-bit groups a colon-separated list of groups stands
for, an IPv4 address counting two in last place. -/
def groupCount (groups : List (List Char)) : Option Nat :=
  match groups.reverse with
  | [] => some 0
  | last :: init =>
    if init.all isGroup then
      if isGroup last then some groups.length
      else if ipv4 last = some [] then some (groups.length + 1)
      else none
    else none

/- An IPv6 address: eight groups, or fewer with one `::`. -/
def ipv6 (cs : List Char) : Bool :=
  let s := String.ofList cs
  match s.splitOn "::" with
  | [whole] =>
    match groupCount ((whole.splitOn ":").map String.toList) with
    | some 8 => true
    | _ => false
  | [front, back] =>
    let part (t : String) : Option Nat :=
      if t.isEmpty then some 0 else groupCount ((t.splitOn ":").map String.toList)
    match part front, part back with
    | some a, some b =>
      -- an IPv4 address may only end the address
      (front.isEmpty || !(front.toList.contains '.')) && a + b ≤ 7
    | _, _ => false
  | _ => false

/- A port: decimal digits up to 65535, leading zeros allowed. -/
def port (cs : List Char) : Bool :=
  match number cs 0 true with
  | some (p, []) => p ≤ 65535
  | _ => false

/- Whether an endpoint reads as a socket address: `a.b.c.d:port` or
`[ipv6]:port`, the IPv6 address optionally followed by `%scope`. -/
def isSocketAddress (endpoint : String) : Bool :=
  let cs := endpoint.toList
  match cs with
  | '[' :: rest =>
    let inner := rest.takeWhile (· != ']')
    match rest.dropWhile (· != ']') with
    | ']' :: ':' :: p =>
      let addr := inner.takeWhile (· != '%')
      let scope := inner.dropWhile (· != '%')
      let scopeOk := match scope with
        | [] => true
        | _ :: ds => match number ds 0 true with
          | some (v, []) => v < 4294967296
          | _ => false
      ipv6 addr && scopeOk && port p
    | _ => false
  | _ =>
    match ipv4 cs with
    | some (':' :: p) => port p
    | _ => false

end Endpoint

------------------------------------------------------------
-- The axon
------------------------------------------------------------

/- A neuron's endpoint and priority table. -/
structure Axon where
  -- `address:port`, empty for an axon without an address
  endpoint : String
  -- whether the port is reserved
  bound : Bool
  -- peers and their priorities, each peer once
  table : List (String × F32)
  -- how many times the table was replaced
  updates : Nat
  deriving Repr, Inhabited

namespace Axon

/- An axon without an address. -/
def unbound : Axon := ⟨"", false, [], 0⟩

/- What the operating system answers a bind to an endpoint another socket holds. -/
def addressInUse : String := "Address already in use (os error 98)"

/- An axon at `address:port`, when other sockets hold the endpoints
`held`.  Reserving the port needs an endpoint that reads as a socket
address and that no other socket holds. -/
def atEndpoint
    (address : String)
    (port : Nat)
    (reserve : Bool)
    (held : List String) :
    Outcome Axon :=
  let endpoint := address ++ ":" ++ toString port
  if reserve && !Endpoint.isSocketAddress endpoint then
    .error (.axon ("invalid endpoint " ++ endpoint ++ ": invalid socket address syntax"))
  else if reserve && endpoint ∈ held then
    .error (.axon ("Failed to bind " ++ endpoint ++ ": " ++ addressInUse))
  else .ok ⟨endpoint, reserve, [], 0⟩

/- Sets a peer's priority, replacing an earlier one. -/
def insert
    (table : List (String × F32))
    (peer : String)
    (p : F32) :
    List (String × F32) :=
  if table.any (·.1 == peer) then table.map fun e => if e.1 == peer then (peer, p) else e
  else table ++ [(peer, p)]

/- Replaces the table by the given peers and priorities, which must be
equally many; a peer listed twice keeps its last priority. -/
def setPriority
    (a : Axon)
    (peers : List String)
    (priorities : List F32) :
    Outcome Axon :=
  if peers.length ≠ priorities.length then
    .error (.axon (toString peers.length ++ " peers but " ++ toString priorities.length ++
      " priorities"))
  else
    .ok { a with table := (peers.zip priorities).foldl (fun t (p, q) => insert t p q) []
                 updates := a.updates + 1 }

/- A peer's priority, zero for a peer not in the table. -/
def priorityOf
    (a : Axon)
    (peer : String) :
    F32 :=
  (a.table.lookup peer).getD 0

/- How the ranking compares two entries: the higher priority first,
then the smaller peer id.  Two priorities that do not compare, a NaN
and anything, count as equal, and the peer ids decide. -/
def rankCompare (x y : String × F32) : Ordering :=
  ((F32.partialCmp y.2 x.2).getD .eq).then (compare x.1 y.1)

/- Ranking order: `x` may stand before `y`. -/
def before (x y : String × F32) : Bool := rankCompare x y != .gt

/- The peers ranked by priority, highest first, ties by peer id; none
when a priority is NaN.  The comparison is then no order, and where an
entry lands depends on the order the table is read in. -/
def ranked (a : Axon) : Option (List (String × F32)) :=
  if a.table.any (·.2.isNaN) then none
  else some (a.table.mergeSort before)

end Axon

end NeuronFleet
