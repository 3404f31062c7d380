/-
  GenOS.Ipv6.Packet — addresses, frames and checksums of the IPv6 host.

  The pure wire functions of `ipv6.rs`: the address classes, `parse_frame`
  with its extension headers, the transport checksum, and `write_icmp`, the
  one function that builds an outgoing frame.  A frame is the byte string on
  the wire; `sourceOf`, `messageType` and `targetOf` read the fields of a frame
  back, and §4 says what they read of a frame that `writeIcmp` built.
-/
import GenOS.Lib.Bytes

namespace GenOS.Ipv6

open GenOS.Lib

/-! ## §1. Addresses. -/

abbrev Address := FixedBytes 16

abbrev Mac := FixedBytes 6

def unspecified : Address := .zero

def allNodes : Address := ⟨[0xff, 2, 0, 0, 0, 0, 0, 0, 0, 0, 0, 0, 0, 0, 0, 1], rfl⟩

def allRouters : Address := ⟨[0xff, 2, 0, 0, 0, 0, 0, 0, 0, 0, 0, 0, 0, 0, 0, 2], rfl⟩

/-- The largest frame, `FRAME_CAPACITY`. -/
def frameCapacity : Nat := 1518

/-- The Ethernet and IPv6 headers together, `HEADER`. -/
def headerLen : Nat := 54

variable (address : Address)

def isLinkLocal : Bool :=
  address.byte 0 == 0xfe && address.byte 1 &&& 0xc0 == 0x80

def isMulticast : Bool := address.byte 0 == 0xff

def linkLocal (mac : Mac) : Address :=
  ⟨[0xfe, 0x80, 0, 0, 0, 0, 0, 0, mac.byte 0 ^^^ 2, mac.byte 1, mac.byte 2, 0xff, 0xfe,
    mac.byte 3, mac.byte 4, mac.byte 5], rfl⟩

def solicitedNode : Address :=
  ⟨[0xff, 2, 0, 0, 0, 0, 0, 0, 0, 0, 0, 1, 0xff, address.byte 13, address.byte 14,
    address.byte 15], rfl⟩

def multicastMac : Mac :=
  ⟨[0x33, 0x33, address.byte 12, address.byte 13, address.byte 14, address.byte 15], rfl⟩

theorem isLinkLocal_linkLocal (mac : Mac) : isLinkLocal (linkLocal mac) = true := by
  show ((0xfe : UInt8) == 0xfe && (0x80 : UInt8) &&& 0xc0 == 0x80) = true
  decide

/-! ## §2. Incoming frames. -/

/-- A parsed packet: the extension headers are stripped from the payload. -/
structure Packet where
  sourceMac : Mac
  source : Address
  destination : Address
  nextHeader : UInt8
  hopLimit : UInt8
  payload : Bytes
  deriving DecidableEq

/-- The option bytes of an extension header hold `Pad1` and `PadN` only. -/
def paddingOnly : Bytes → Bool
  | [] => true
  | 0 :: rest => paddingOnly rest
  | 1 :: count :: rest => count.toNat ≤ rest.length && paddingOnly (rest.drop count.toNat)
  | _ => false
  termination_by options => options.length

/-- The loop over the extension headers: at most one Hop-by-Hop header, then at
most one Destination Options header. -/
def skipExtensions (seenHop seenDestination : Bool) (next : UInt8) (payload : Bytes) :
    Option (UInt8 × Bytes) :=
  if next = 0 ∨ next = 60 then
    if payload.length < 8 then none
    else if next = 0 ∧ (seenHop ∨ seenDestination) then none
    else if next ≠ 0 ∧ seenDestination then none
    else
      let len := ((byteAt payload 1).toNat + 1) * 8
      if payload.length < len then none
      else if paddingOnly (range payload 2 len) then
        skipExtensions (seenHop || next == 0) (seenDestination || next != 0) (byteAt payload 0)
          (payload.drop len)
      else none
  else some (next, payload)
  termination_by payload.length
  decreasing_by simp only [List.length_drop]; omega

section

variable (frame : Bytes)

def parseFrame : Option Packet :=
  if frame.length < headerLen ∨ frameCapacity < frame.length
      ∨ range frame 12 14 ≠ [0x86, 0xdd] then none
  else
    let ip := frame.drop 14
    let length := beNat (range ip 4 6)
    if byteAt ip 0 >>> 4 ≠ 6 ∨ byteAt ip 7 = 0 ∨ length = 0 ∨ ip.length - 40 < length then none
    else do
      let source ← FixedBytes.ofBytes 16 (range ip 8 24)
      let destination ← FixedBytes.ofBytes 16 (range ip 24 40)
      if isMulticast source ∨ destination = unspecified then none
      else do
        let (next, payload) ← skipExtensions false false (byteAt ip 6) (range ip 40 (40 + length))
        if next ≠ 6 ∧ next ≠ 17 ∧ next ≠ 58 then none
        else do
          let sourceMac ← FixedBytes.ofBytes 6 (range frame 6 12)
          some ⟨sourceMac, source, destination, next, byteAt ip 7, payload⟩

/-! ## §3. The transport checksum. -/

/-- The sum of the big-endian 16-bit words, an odd last byte counted as a high byte. -/
def wordSum : Bytes → Nat
  | [] => 0
  | [last] => last.toNat * 256
  | a :: b :: rest => a.toNat * 256 + b.toNat + wordSum rest

/-- `while sum >> 16 != 0 { sum = (sum & 0xffff) + (sum >> 16) }`. -/
def foldCarry (sum : Nat) : Nat :=
  if sum / 65536 ≠ 0 then foldCarry (sum % 65536 + sum / 65536) else sum
  termination_by sum

def transportChecksum (source destination : Address) (protocol : UInt8) (bytes : Bytes) : Nat :=
  let sum := wordSum source.val + wordSum destination.val + wordSum bytes
    + (bytes.length % 65536 + bytes.length / 65536 % 65536 + protocol.toNat)
  65535 - foldCarry sum

/-- The smallest transport header, for the protocols that are known. -/
def transportMinimum (nextHeader : UInt8) : Option Nat :=
  if nextHeader = 6 then some 20
  else if nextHeader = 17 then some 8
  else if nextHeader = 58 then some 4
  else none

def validTransport (packet : Packet) : Bool :=
  match transportMinimum packet.nextHeader with
  | none => false
  | some minimum =>
    if packet.payload.length < minimum then false
    else if packet.nextHeader = 17 ∧ (range packet.payload 6 8 = [0, 0]
        ∨ beNat (range packet.payload 4 6) ≠ packet.payload.length) then false
    else transportChecksum packet.source packet.destination packet.nextHeader
      packet.payload == 0

/-! ## §4. Outgoing frames. -/

/-- `write_icmp` into a buffer of `capacity` bytes; the result is the part of
the buffer that was written.  The checksum is taken with its own field zero. -/
def writeIcmp (capacity : Nat) (sourceMac destinationMac : Mac) (source destination : Address)
    (hopLimit : UInt8) (message : Bytes) : Option Bytes :=
  let len := headerLen + message.length
  if frameCapacity < len ∨ message.length < 4 ∨ hopLimit = 0 ∨ capacity < len then none
  else
    let checksum := transportChecksum source destination 58
      (message.take 2 ++ [0, 0] ++ message.drop 4)
    some (destinationMac.val ++ sourceMac.val ++ [0x86, 0xdd, 0x60, 0, 0, 0]
      ++ beBytes16 message.length ++ [58, hopLimit] ++ source.val ++ destination.val
      ++ (message.take 2 ++ beBytes16 checksum ++ message.drop 4))

/-- The next header field of a frame. -/
def protocolOf : UInt8 := byteAt frame 20

/-- The IPv6 source field of a frame. -/
def sourceOf : Bytes := range frame 22 38

/-- The IPv6 destination field of a frame. -/
def destinationOf : Bytes := range frame 38 54

/-- The ICMPv6 type of a frame. -/
def messageType : UInt8 := byteAt frame 54

/-- The target field of a neighbor solicitation or advertisement. -/
def targetOf : Bytes := range frame 62 78

end

section Written

variable {capacity : Nat} {sourceMac destinationMac : Mac} {source destination : Address}
  {hopLimit : UInt8} {message frame : Bytes}

/-- A buffer of full size always holds a control message. -/
theorem writeIcmp_isSome (hcap : frameCapacity ≤ capacity) (hlow : 4 ≤ message.length)
    (hhigh : message.length ≤ 1464) (hhop : hopLimit ≠ 0) :
    ∃ frame, writeIcmp capacity sourceMac destinationMac source destination hopLimit message
      = some frame := by
  unfold writeIcmp frameCapacity headerLen at *
  dsimp only
  rw [if_neg (by simp only [hhop, false_or]; omega)]
  exact ⟨_, rfl⟩

variable (h : writeIcmp capacity sourceMac destinationMac source destination hopLimit message
  = some frame)
include h

/-- What was written: the header around the source field, then the message with
the two bytes of its checksum replaced. -/
theorem writeIcmp_eq : 4 ≤ message.length ∧ ∃ front checksum : Bytes, front.length = 20 ∧ checksum.length = 2 ∧
      frame = front ++ [58, hopLimit] ++ source.val ++ destination.val
        ++ (message.take 2 ++ checksum ++ message.drop 4) := by
  unfold writeIcmp at h
  dsimp only at h
  split at h
  · cases h
  rename_i hguard
  have hlen : 4 ≤ message.length := by omega
  refine ⟨hlen, _, _, ?_, beBytes16_length _, (Option.some.inj h).symm⟩
  simp

theorem protocolOf_writeIcmp : protocolOf frame = 58 := by
  obtain ⟨_, front, checksum, hfront, _, hframe⟩ := writeIcmp_eq h
  apply byteAt_of_append (a := front) (c := hopLimit :: source.val ++ destination.val
    ++ (message.take 2 ++ checksum ++ message.drop 4)) _ hfront
  rw [hframe]
  simp

theorem sourceOf_writeIcmp : sourceOf frame = source.val := by
  obtain ⟨_, front, checksum, hfront, _, hframe⟩ := writeIcmp_eq h
  apply range_of_append (a := front ++ [58, hopLimit]) (c := destination.val
    ++ (message.take 2 ++ checksum ++ message.drop 4)) _ (by simp [hfront]) (by simp)
  rw [hframe]
  simp only [List.append_assoc]

theorem destinationOf_writeIcmp : destinationOf frame = destination.val := by
  obtain ⟨_, front, checksum, hfront, _, hframe⟩ := writeIcmp_eq h
  apply range_of_append (a := front ++ [58, hopLimit] ++ source.val)
    (c := message.take 2 ++ checksum ++ message.drop 4) _ (by simp [hfront]) (by simp)
  rw [hframe]

theorem messageType_writeIcmp : messageType frame = byteAt message 0 := by
  obtain ⟨hlen, front, checksum, hfront, _, hframe⟩ := writeIcmp_eq h
  match message, hlen with
  | kind :: code :: rest, _ =>
    apply byteAt_of_append (a := front ++ [58, hopLimit] ++ source.val ++ destination.val)
      (c := code :: checksum ++ (kind :: code :: rest).drop 4) _ (by simp [hfront])
    rw [hframe]
    simp [byteAt]

/-- Behind the checksum the frame is the message, 54 bytes further on. -/
theorem targetOf_writeIcmp : targetOf frame = range message 8 24 := by
  obtain ⟨hlen, front, checksum, hfront, hsum, hframe⟩ := writeIcmp_eq h
  have hsplit : frame = (front ++ [58, hopLimit] ++ source.val ++ destination.val
      ++ (message.take 2 ++ checksum)) ++ message.drop 4 := by
    rw [hframe]
    simp only [List.append_assoc]
  have hhead : (front ++ [58, hopLimit] ++ source.val ++ destination.val
      ++ (message.take 2 ++ checksum)).length = 58 := by
    simp only [List.length_append, hfront, hsum, FixedBytes.length_val, List.length_take,
      List.length_cons, List.length_nil]
    omega
  have hdrop : frame.drop 62 = message.drop 8 := by
    rw [show 62 = 58 + 4 from rfl, ← List.drop_drop, hsplit, ← hhead, List.drop_left,
      List.drop_drop]
  unfold targetOf range
  rw [List.drop_take, List.drop_take, hdrop]

end Written

end GenOS.Ipv6
