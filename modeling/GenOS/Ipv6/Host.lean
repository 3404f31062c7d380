/-
  GenOS.Ipv6.Host — the IPv6 host state machine of `ipv6.rs`.

  A host probes its link-local address, solicits a router, probes the global
  address that the router's prefix gives it, and is then ready.  `Host.poll`
  advances the timers and produces at most one control frame; `Host.receive`
  handles one incoming frame.  Both return the new host and the frame they
  wrote into the output buffer, if any.
-/
import GenOS.Ipv6.Packet

namespace GenOS.Ipv6

open GenOS.Lib

/-! ## §1. Time. -/

/-- `u64::MAX`. -/
def lastTick : Nat := 2 ^ 64 - 1

/-- `tick.saturating_add(ticks)` on `u64`. -/
def saturatingAdd (tick ticks : Nat) : Nat := min (tick + ticks) lastTick

def ticksPerSecond : Nat := 100

def dadTicks : Nat := ticksPerSecond

def rsTicks : Nat := 4 * ticksPerSecond

/-- The tick `seconds` after `tick`. -/
def deadline (tick seconds : Nat) : Nat := saturatingAdd tick (seconds * ticksPerSecond)

/-- Short of the last tick a deadline that has passed was set that long ago. -/
theorem le_of_saturatingAdd_le {tick ticks now : Nat} (h : saturatingAdd tick ticks ≤ now)
    (hnow : now ≤ lastTick) : tick + ticks ≤ now ∨ now = lastTick := by
  unfold saturatingAdd at h
  omega

/-! ## §2. Router advertisements. -/

structure Route where
  address : Address
  router : Address
  routerMac : Mac
  mtu : Nat
  preferredUntil : Nat
  validUntil : Nat
  routerUntil : Nat
  deriving DecidableEq

/-- The loop over neighbor discovery options.  The state that the visiting
closure captures is passed along. -/
def ndOptions {σ : Type} (visit : σ → UInt8 → Bytes → Option σ) (state : σ) (bytes : Bytes) :
    Option σ :=
  if bytes.length = 0 then some state
  else
    match bytes[1]? with
    | none => none
    | some units =>
      let len := units.toNat * 8
      if len = 0 then none
      else if bytes.length < len then none
      else
        match visit state (byteAt bytes 0) (bytes.take len) with
        | none => none
        | some next => ndOptions visit next (bytes.drop len)
  termination_by bytes.length
  decreasing_by simp only [List.length_drop]; omega

/-- What the options of an advertisement have said so far. -/
structure Advertised where
  prefixInfo : Option (Address × Nat × Nat)
  mac : Option Mac
  mtu : Nat
  deriving DecidableEq

/-- One option of a router advertisement. -/
def visitAdvertised (packet : Packet) (seen : Advertised) (kind : UInt8) (option : Bytes) :
    Option Advertised :=
  if kind = 1 then
    if option.length ≠ 8 ∨ seen.mac.isSome then none
    else do
      let address ← FixedBytes.ofBytes 6 (range option 2 8)
      if address ≠ packet.sourceMac ∨ address.byte 0 &&& 1 ≠ 0 then none
      else some { seen with mac := some address }
  else if kind = 3 then
    if option.length ≠ 32 then none
    else do
      let valid := beNat (range option 4 8)
      let preferred := beNat (range option 8 12)
      let prefixAddress ← FixedBytes.ofBytes 16 (range option 16 32)
      if valid < preferred then none
      else if byteAt option 2 = 64 ∧ byteAt option 3 &&& 0xc0 = 0xc0 ∧ valid ≠ 0 ∧ preferred ≠ 0
          ∧ ¬ isLinkLocal prefixAddress ∧ ¬ isMulticast prefixAddress
          ∧ prefixAddress.slice 0 8 ≠ List.replicate 8 0 ∧ seen.prefixInfo = none then
        some { seen with prefixInfo := some (prefixAddress, preferred, valid) }
      else some seen
  else if kind = 5 then
    if option.length ≠ 8 then none
    else
      let advertised := beNat (range option 4 8)
      some (if 1280 ≤ advertised then { seen with mtu := min advertised 1500 } else seen)
  else some seen

def routerAdvertisement (packet : Packet) (localAddress : Address) (tick : Nat) : Option Route :=
  let body := packet.payload
  if packet.nextHeader ≠ 58 ∨ packet.hopLimit ≠ 255 ∨ ¬ isLinkLocal packet.source
      ∨ ¬ (packet.destination = allNodes ∨ packet.destination = localAddress)
      ∨ body.length < 16 ∨ range body 0 2 ≠ [134, 0] ∨ ¬ validTransport packet then none
  else
    let lifetime := beNat (range body 6 8)
    if lifetime = 0 then none
    else do
      let seen ← ndOptions (visitAdvertised packet) ⟨none, none, 1280⟩ (body.drop 16)
      let (prefixAddress, preferred, valid) ← seen.prefixInfo
      let routerMac ← seen.mac
      some {
        address := prefixAddress.patch 8 (localAddress.val.drop 8)
        router := packet.source
        routerMac := routerMac
        mtu := seen.mtu
        preferredUntil := deadline tick preferred
        validUntil := deadline tick valid
        routerUntil := deadline tick lifetime }

/-! ## §3. The host. -/

inductive State where
  | linkLocalDad
  | routerSolicitation
  | globalDad
  | ready
  | duplicate
  | unavailable
  deriving DecidableEq

structure Host where
  state : State
  linkLocal : Address
  route : Option Route
  echoReply : Bool
  mac : Mac
  deadline : Nat
  attempts : UInt8
  pending : Bool
  echoSent : Bool
  deriving DecidableEq

namespace Host

/-- A host that has not probed its link-local address yet. -/
def new (mac : Mac) (tick : Nat) : Host where
  state := .linkLocalDad
  linkLocal := Ipv6.linkLocal mac
  route := none
  echoReply := false
  mac := mac
  deadline := saturatingAdd tick dadTicks
  attempts := 0
  pending := true
  echoSent := false

/-! ## §4. Polling. -/

variable (host : Host) (packet : Packet) (tick capacity : Nat) (target : Address)

/-- The state change at a deadline that has passed. -/
def passDeadline (tick : Nat) : Host :=
  if host.pending = false ∧ host.deadline ≤ tick then
    match host.state with
    | .linkLocalDad => { host with state := .routerSolicitation, pending := true }
    | .globalDad => { host with state := .ready }
    | .routerSolicitation =>
      if 3 ≤ host.attempts then { host with state := .unavailable }
      else { host with pending := true }
    | _ => host
  else host

/-- A ready host drops its route at the valid or router deadline and solicits again. -/
def dropExpiredRoute (tick : Nat) : Host :=
  match host.route with
  | none => host
  | some route =>
    if host.state = .ready ∧ (route.validUntil ≤ tick ∨ route.routerUntil ≤ tick) then
      { host with
        route := none
        state := .routerSolicitation
        pending := true
        attempts := 0
        echoReply := false
        echoSent := false }
    else host

/-- The neighbor solicitation that probes `target`. -/
def solicitTarget : Host × Option Bytes :=
  let destination := solicitedNode target
  ({ host with deadline := saturatingAdd tick dadTicks },
    writeIcmp capacity host.mac (multicastMac destination) unspecified destination 255
      ([135, 0, 0, 0, 0, 0, 0, 0] ++ target.val))

def solicitRouter : Host × Option Bytes :=
  ({ host with attempts := host.attempts + 1, deadline := saturatingAdd tick rsTicks },
    writeIcmp capacity host.mac (multicastMac allRouters) host.linkLocal allRouters 255
      ([133, 0, 0, 0, 0, 0, 0, 0, 1, 1] ++ host.mac.val))

/-- The body of the echo request: identifier, sequence number and payload `GenOS6`. -/
def echoBody : Bytes := [0x47, 0x36, 0, 1, 71, 101, 110, 79, 83, 54]

/-- A ready host that has not done so sends one echo request to its router. -/
def sendEcho (capacity : Nat) : Host × Option Bytes :=
  if host.state = .ready ∧ host.echoSent = false then
    match host.route with
    | none => (host, none)
    | some route =>
      ({ host with echoSent := true },
        writeIcmp capacity host.mac route.routerMac route.address route.router 64
          ([128, 0, 0, 0] ++ echoBody))
  else (host, none)

/-- The control frame that is due. -/
def emit : Host × Option Bytes :=
  if host.pending then
    let host := { host with pending := false }
    match host.state with
    | .linkLocalDad => host.solicitTarget tick capacity host.linkLocal
    | .globalDad =>
      match host.route with
      | none => (host, none)
      | some route => host.solicitTarget tick capacity route.address
    | .routerSolicitation => host.solicitRouter tick capacity
    | _ => host.sendEcho capacity
  else host.sendEcho capacity

/-- `poll` with an output buffer of `capacity` bytes. -/
def poll : Host × Option Bytes :=
  if capacity < frameCapacity then (host, none)
  else ((host.passDeadline tick).dropExpiredRoute tick).emit tick capacity

/-! ## §5. Receiving. -/

/-- The checks that every frame has to pass. -/
def accept (frame : Bytes) : Option Packet := do
  let packet ← parseFrame frame
  let ethernetDestination ← FixedBytes.ofBytes 6 (range frame 0 6)
  if packet.sourceMac.byte 0 &&& 1 ≠ 0
      ∨ (if isMulticast packet.destination then
          ethernetDestination ≠ multicastMac packet.destination
        else ethernetDestination ≠ host.mac) then none
  else if packet.sourceMac = host.mac ∨ packet.nextHeader ≠ 58 ∨ ¬ validTransport packet then none
  else some packet

/-- One option of a neighbor message; the state is `source_option`. -/
def visitNeighbor (sourceOption : Bool) (kind : UInt8) (option : Bytes) : Option Bool :=
  if (kind = 1 ∨ kind = 2) ∧ (option.length ≠ 8 ∨ range option 2 8 ≠ packet.sourceMac.val) then none
  else some (sourceOption || kind == 1)

/-- The checks on a neighbor solicitation or advertisement, and its target. -/
def neighborTarget : Option Address :=
  let body := packet.payload
  if packet.hopLimit ≠ 255 ∨ byteAt body 1 ≠ 0 ∨ body.length < 24 then none
  else do
    let target ← FixedBytes.ofBytes 16 (range body 8 24)
    if isMulticast target ∨ target = unspecified then none
    else if packet.destination ≠ host.linkLocal ∧ packet.destination ≠ allNodes
        ∧ packet.destination ≠ solicitedNode target
        ∧ ¬ host.route.any (fun route => route.address = packet.destination) then none
    else do
      let sourceOption ← ndOptions (visitNeighbor packet) false (body.drop 24)
      if byteAt body 0 = 135 ∧ packet.source = unspecified
          ∧ (packet.destination ≠ solicitedNode target ∨ sourceOption) then none
      else if byteAt body 0 = 136 ∧ (packet.source = unspecified
          ∨ (isMulticast packet.destination ∧ byteAt body 4 &&& 0x40 ≠ 0)) then none
      else some target

/-- The address that is being probed. -/
def tentative : Option Address :=
  match host.state with
  | .linkLocalDad => some host.linkLocal
  | .globalDad => host.route.map (·.address)
  | _ => none

/-- Another node uses the probed address, or probes it as well. -/
def conflicting : Bool :=
  host.tentative = some target && (byteAt packet.payload 0 == 136 || packet.source = unspecified)

/-- Is `target` an address that solicitations are answered for? -/
def ownsTarget : Bool :=
  host.state ≠ .linkLocalDad && host.state ≠ .duplicate && (target = host.linkLocal
    || (host.state = .ready && host.route.any (fun route => route.address = target)))

variable (capacity : Nat)

/-- The neighbor advertisement for `target`. -/
def advertise : Option Bytes :=
  let destination := if packet.source = unspecified then allNodes else packet.source
  let destinationMac :=
    if isMulticast destination then multicastMac destination else packet.sourceMac
  let flags : UInt8 := if packet.source = unspecified then 0x20 else 0x60
  writeIcmp capacity host.mac destinationMac target destination 255
    ([136, 0, 0, 0, flags, 0, 0, 0] ++ target.val ++ [2, 1] ++ host.mac.val)

/-- The router's answer to the echo request is noted. -/
def noteReply (route : Route) : Host :=
  let body := packet.payload
  if body = [129, 0, byteAt body 2, byteAt body 3] ++ echoBody ∧ host.echoSent
      ∧ packet.source = route.router ∧ packet.destination = route.address then
    { host with echoReply := true }
  else host

/-- The echo part: note the router's reply, answer a request. -/
def receiveEcho : Host × Option Bytes :=
  let body := packet.payload
  if host.state = .ready then
    match host.route with
    | none => (host, none)
    | some route =>
      let host := host.noteReply packet route
      if byteAt body 0 = 128 ∧ byteAt body 1 = 0 ∧ 8 ≤ body.length ∧ body.length ≤ 128
          ∧ packet.source ≠ unspecified ∧ ¬ isMulticast packet.source
          ∧ (packet.destination = route.address ∨ packet.destination = host.linkLocal) then
        (host, writeIcmp capacity host.mac packet.sourceMac packet.destination packet.source 64
          (129 :: body.drop 1))
      else (host, none)
  else (host, none)

/-- A neighbor message whose checks passed. -/
def receiveNeighbor : Host × Option Bytes :=
  if host.conflicting packet target then ({ host with state := .duplicate, route := none }, none)
  else if byteAt packet.payload 0 = 135 ∧ host.ownsTarget target
      ∧ (packet.destination = target ∨ packet.destination = solicitedNode target) then
    (host, host.advertise packet target capacity)
  else host.receiveEcho packet capacity

/-- Is this a neighbor solicitation or advertisement? -/
def isNeighbor : Bool :=
  byteAt packet.payload 0 == 135 || byteAt packet.payload 0 == 136

/-- Everything but the router advertisement that a soliciting host waits for. -/
def receiveControl : Host × Option Bytes :=
  if isNeighbor packet then
    match host.neighborTarget packet with
    | none => (host, none)
    | some target => host.receiveNeighbor packet target capacity
  else host.receiveEcho packet capacity

/-- The route that a soliciting host takes from the packet. -/
def advertisedRoute (tick : Nat) : Option Route :=
  if host.state = .routerSolicitation then routerAdvertisement packet host.linkLocal tick else none

/-- `receive` with an output buffer of `capacity` bytes. -/
def receive (frame : Bytes) (tick capacity : Nat) : Host × Option Bytes :=
  match host.accept frame with
  | none => (host, none)
  | some packet =>
    match host.advertisedRoute packet tick with
    | some route =>
      ({ host with route := some route, state := .globalDad, pending := true }, none)
    | none => host.receiveControl packet capacity

end Host

end GenOS.Ipv6
