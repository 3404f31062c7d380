/-
  GenOS.Network.Ipv4Frame — IPv4 frames: what is built and what is parsed.

  `send_ipv4_from`, `send_udp_raw` and `send_tcp_with_window` write a frame for
  the device, `parse_ipv4_frame`, `parse_udp` and `parse_tcp` read one.  A frame
  is written as the concatenation of its fields; a checksum is taken with its own
  field zero.  What is written is read back.
-/
import GenOS.Network.Checksum

namespace GenOS.Network

open GenOS.Lib List FixedBytes
open GenOS.Ipv6 (wordSum foldCarry Mac)

/-! ## §1. Parsing. -/

structure Ipv4Packet where
  sourceMac : Mac
  source : FixedBytes 4
  destination : FixedBytes 4
  protocol : UInt8
  payload : Bytes

structure UdpPacket where
  sourcePort : BitVec 16
  destinationPort : BitVec 16
  payload : Bytes

structure TcpPacket where
  sourcePort : BitVec 16
  destinationPort : BitVec 16
  sequence : BitVec 32
  acknowledgment : BitVec 32
  flags : UInt8
  window : BitVec 16
  payload : Bytes

/-- `parse_ipv4_frame`. -/
def parseIpv4Frame (frame : Bytes) : Option Ipv4Packet :=
  if frame.length < 34 ∨ beNat (range frame 12 14) ≠ 0x0800 then none
  else
    let ip := frame.drop 14
    if byteAt ip 0 >>> 4 ≠ 4 then none
    else
      let headerLen := (byteAt ip 0 &&& 0x0f).toNat * 4
      let totalLen := beNat (range ip 2 4)
      if headerLen < 20 ∨ ip.length < headerLen ∨ totalLen < headerLen ∨ ip.length < totalLen
          ∨ checksum (ip.take headerLen) ≠ 0 then none
      else if beNat (range ip 6 8) &&& 0x3fff ≠ 0 then none
      else do
        let sourceMac ← FixedBytes.ofBytes 6 (range frame 6 12)
        let source ← FixedBytes.ofBytes 4 (range ip 12 16)
        let destination ← FixedBytes.ofBytes 4 (range ip 16 20)
        some ⟨sourceMac, source, destination, byteAt ip 9, range ip headerLen totalLen⟩

variable (n : BitVec 32) (host : Ipv4Host) (mac : Mac) (source destination : FixedBytes 4)
  (sourcePort destinationPort : BitVec 16) (protocol : UInt8) (payload : Bytes)

/-- `parse_udp`. -/
def parseUdp : Option UdpPacket :=
  if payload.length < 8 then none
  else
    let len := beNat (range payload 4 6)
    if len < 8 ∨ payload.length < len then none
    else some ⟨BitVec.ofNat 16 (beNat (range payload 0 2)),
      BitVec.ofNat 16 (beNat (range payload 2 4)), range payload 8 len⟩

/-- `tcp_options_valid`. -/
def tcpOptionsValid : Bytes → Bool
  | [] => true
  | 0 :: rest => rest.all (· == 0)
  | 1 :: rest => tcpOptionsValid rest
  | _ :: [] => false
  | kind :: length :: rest =>
    if length.toNat < 2 ∨ rest.length + 2 < length.toNat ∨ (kind = 2 ∧ length.toNat ≠ 4) then
      false
    else tcpOptionsValid (rest.drop (length.toNat - 2))
  termination_by options => options.length
  decreasing_by all_goals simp only [List.length_cons, List.length_drop]; omega

/-- `parse_tcp`. -/
def parseTcp : Option TcpPacket :=
  if payload.length < 20 then none
  else
    let headerLen := (byteAt payload 12 >>> 4).toNat * 4
    if headerLen < 20 ∨ payload.length < headerLen
        ∨ tcpOptionsValid (range payload 20 headerLen) = false then none
    else some
      { sourcePort := BitVec.ofNat 16 (beNat (range payload 0 2))
        destinationPort := BitVec.ofNat 16 (beNat (range payload 2 4))
        sequence := BitVec.ofNat 32 (beNat (range payload 4 8))
        acknowledgment := BitVec.ofNat 32 (beNat (range payload 8 12))
        flags := byteAt payload 13
        window := BitVec.ofNat 16 (beNat (range payload 14 16))
        payload := payload.drop headerLen }

/-! ## §2. Building. -/

/-- `MAX_FRAME`. -/
def maxFrame : Nat := 1518

/-- The fields of the stack that a frame is built from. -/
structure Ipv4Host where
  mac : Mac
  address : FixedBytes 4
  ipId : BitVec 16

/-- `u32::to_be_bytes`. -/
def beBytes32 : Bytes := beBytes16 (n.toNat / 65536) ++ beBytes16 n.toNat

/-- The IPv4 header with a value in its checksum field. -/
def ipv4Header (total : Nat) (ipId : BitVec 16) (protocol : UInt8)
    (source destination : FixedBytes 4) (sum : Nat) : Bytes :=
  [0x45, 0] ++ beBytes16 total ++ beBytes16 ipId.toNat ++ [0x40, 0, 64, protocol]
    ++ beBytes16 sum ++ (source.val ++ destination.val)

/-- `send_ipv4_from`: the stack afterwards and the frame handed to the device. -/
def sendIpv4From : Ipv4Host × Option Bytes :=
  let total := 20 + payload.length
  if maxFrame < 14 + total ∨ 65535 < total then (host, none)
  else
    let header := ipv4Header total host.ipId protocol source destination
    ({ host with ipId := host.ipId + 1 },
      some (mac.val ++ host.mac.val ++ [0x08, 0x00] ++ header (checksum (header 0)) ++ payload))

/-- `send_udp_raw`. -/
def sendUdpRaw : Ipv4Host × Option Bytes :=
  let len := 8 + payload.length
  if 1400 < len then (host, none)
  else
    sendIpv4From host mac source destination 17 (beBytes16 sourcePort.toNat
      ++ beBytes16 destinationPort.toNat ++ beBytes16 len ++ [0, 0] ++ payload)

/-- `transport_checksum`. -/
def transportChecksum (bytes : Bytes) : Nat :=
  checksum (source.val ++ destination.val ++ [0, protocol] ++ beBytes16 bytes.length ++ bytes)

/-- The TCP segment with a value in its checksum field. -/
def tcpSegment (sequence acknowledgment : BitVec 32) (flags : UInt8) (payload : Bytes)
    (window : BitVec 16) (sum : Nat) : Bytes :=
  beBytes16 sourcePort.toNat ++ beBytes16 destinationPort.toNat ++ beBytes32 sequence
    ++ beBytes32 acknowledgment ++ [0x50, flags] ++ beBytes16 window.toNat ++ beBytes16 sum
    ++ (0 :: 0 :: payload)

/-- `send_tcp_with_window`. -/
def sendTcpWithWindow (destination : FixedBytes 4) (sourcePort destinationPort : BitVec 16)
    (sequence acknowledgment : BitVec 32) (flags : UInt8) (payload : Bytes) (window : BitVec 16) :
    Ipv4Host × Option Bytes :=
  if 1400 < 20 + payload.length then (host, none)
  else
    let segment := tcpSegment sourcePort destinationPort sequence acknowledgment flags payload
      window
    let sum := transportChecksum host.address destination 6 (segment 0)
    sendIpv4From host mac host.address destination 6 (segment sum)

/-! ## §3. Words and checksum fields. -/

theorem beNat_beBytes16 (n : Nat) : beNat (beBytes16 n) = n % 65536 := by
  simp only [beNat, beBytes16, foldl_cons, foldl_nil, UInt8.toNat_ofNat']
  omega

theorem beNat_beBytes32 : beNat (beBytes32 n) = n.toNat := by
  have hn := n.isLt
  simp only [beNat, beBytes32, beBytes16, cons_append, nil_append, foldl_cons,
    foldl_nil, UInt8.toNat_ofNat']
  omega

theorem ofNat_beBytes16 (n : BitVec 16) : BitVec.ofNat 16 (beNat (beBytes16 n.toNat)) = n := by
  rw [beNat_beBytes16, Nat.mod_eq_of_lt n.isLt, BitVec.ofNat_toNat, BitVec.setWidth_eq]

theorem ofNat_beBytes32 : BitVec.ofNat 32 (beNat (beBytes32 n)) = n := by
  rw [beNat_beBytes32, BitVec.ofNat_toNat, BitVec.setWidth_eq]

theorem wordSum_beBytes16 (n : Nat) : wordSum (beBytes16 n) = n % 65536 := by
  simp only [wordSum, beBytes16, UInt8.toNat_ofNat']
  omega

variable {a : Bytes}

/-- A field at an even offset adds its value. -/
theorem wordSum_field (heven : a.length % 2 = 0) (n : Nat) (b : Bytes) :
    wordSum (a ++ beBytes16 n ++ b) = wordSum a + n % 65536 + wordSum b := by
  have hfield : (a ++ beBytes16 n).length % 2 = 0 := by
    rw [length_append, beBytes16_length]
    omega
  rw [wordSum_append hfield, wordSum_append heven, wordSum_beBytes16]

/-- The checksum of a short byte string. -/
theorem checksum_eq {bytes : Bytes} (hlen : bytes.length ≤ 65535) :
    checksum bytes = 65535 - foldCarry (wordSum bytes) := by
  have hbound := wordSum_bound bytes
  rw [checksum, addWords_of_lt (by omega), Nat.zero_add]

/-- **Inserting the checksum makes the checksum zero.** -/
theorem checksum_complete {b : Bytes} (heven : a.length % 2 = 0)
    (hlen : a.length + b.length + 2 ≤ 65535) :
    checksum (a ++ beBytes16 (checksum (a ++ beBytes16 0 ++ b)) ++ b) = 0 := by
  have hfield : ∀ n, (a ++ beBytes16 n ++ b).length ≤ 65535 := by
    intro n
    simp only [length_append, beBytes16_length]
    omega
  rw [checksum_eq (hfield _), checksum_eq (hfield 0), wordSum_field heven, wordSum_field heven]
  rw [Nat.zero_mod, Nat.add_zero, Nat.mod_eq_of_lt (Nat.lt_succ_of_le (Nat.sub_le _ _)),
    Nat.add_right_comm, foldCarry_complete]

/-- The same for a segment under its pseudo header. -/
theorem transportChecksum_complete {b : Bytes} (heven : a.length % 2 = 0)
    (hlen : a.length + b.length + 2 ≤ 1400) (source destination : FixedBytes 4) :
    transportChecksumValid source destination 6
      (a ++ beBytes16 (transportChecksum source destination 6 (a ++ beBytes16 0 ++ b)) ++ b)
        = true := by
  have hfield : ∀ n, (a ++ beBytes16 n ++ b).length = a.length + b.length + 2 := by
    intro n
    simp only [length_append, beBytes16_length]
    omega
  have hpseudo : transportChecksum source destination 6 (a ++ beBytes16 0 ++ b)
      = 65535 - foldCarry (transportSum source destination 6 (a ++ beBytes16 0 ++ b)) := by
    have hhead : (source.val ++ destination.val ++ [0, 6]).length % 2 = 0 := by
      simp only [length_append, length_val, length_cons, length_nil]
    have haddresses : (source.val ++ destination.val).length % 2 = 0 := by
      simp only [length_append, length_val]
    have hprotocol : wordSum [0, 6] = (6 : UInt8).toNat := by decide
    rw [transportChecksum, checksum_eq, wordSum_field hhead, wordSum_append haddresses,
      wordSum_append (by rw [length_val]), hprotocol, hfield,
      Nat.mod_eq_of_lt (by omega), transportSum, hfield]
    simp only [length_append, length_val, length_cons, length_nil,
      beBytes16_length]
    omega
  rw [transportChecksumValid_iff (by rw [hfield]; omega) (fun h => by cases h.1), hpseudo]
  have hcomplete := foldCarry_complete
    (transportSum source destination 6 (a ++ beBytes16 0 ++ b))
  simp only [transportSum, hfield, wordSum_field heven] at hcomplete ⊢
  rw [Nat.mod_eq_of_lt (Nat.lt_succ_of_le (Nat.sub_le _ _))]
  convert hcomplete using 2
  omega

/-! ## §4. Round trips. -/

/-- The parser reads the header that was built. -/
theorem parseIpv4Frame_build (mac deviceMac : Mac) (source destination : FixedBytes 4)
    (protocol : UInt8) (ipId : BitVec 16) {payload : Bytes} (hlen : 20 + payload.length ≤ 65535) :
    let header := ipv4Header (20 + payload.length) ipId protocol source destination
    parseIpv4Frame
        (mac.val ++ deviceMac.val ++ [0x08, 0x00] ++ header (checksum (header 0)) ++ payload)
      = some ⟨deviceMac, source, destination, protocol, payload⟩ := by
  intro header
  have hsum : checksum (header (checksum (header 0))) = 0 := by
    refine checksum_complete (a := [0x45, 0] ++ beBytes16 (20 + payload.length)
      ++ beBytes16 ipId.toNat ++ [0x40, 0, 64, protocol]) (by simp) ?_
    simp
  have hheader : ∀ n, (header n).length = 20 := by
    intro n
    simp only [header, ipv4Header, length_append, length_val, length_cons,
      length_nil, beBytes16_length]
  generalize checksum (header 0) = sum at hsum ⊢
  have hfront : (mac.val ++ deviceMac.val ++ [0x08, 0x00]).length = 14 := by simp
  have htotal : beNat (range (header sum ++ payload) 2 4) = 20 + payload.length := by
    have hrange : range (header sum ++ payload) 2 4 = beBytes16 (20 + payload.length) := rfl
    rw [hrange, beNat_beBytes16]
    omega
  have htype : range (mac.val ++ deviceMac.val ++ [0x08, 0x00] ++ header sum ++ payload) 12 14
      = [0x08, 0x00] := by
    refine range_of_append (a := mac.val ++ deviceMac.val) (c := header sum ++ payload) ?_
      (by simp) (by simp)
    simp only [append_assoc]
  have hmac : range (mac.val ++ deviceMac.val ++ [0x08, 0x00] ++ header sum ++ payload) 6 12
      = deviceMac.val := by
    refine range_of_append (a := mac.val) (c := [0x08, 0x00] ++ header sum ++ payload) ?_
      (by simp) (by simp)
    simp only [append_assoc]
  have hip : (mac.val ++ deviceMac.val ++ [0x08, 0x00] ++ header sum ++ payload).drop 14
      = header sum ++ payload := by
    rw [append_assoc _ (header sum) payload, drop_left' hfront]
  have hlast : range (header sum ++ payload) 20 (20 + payload.length) = payload :=
    range_of_append (c := []) (append_nil _).symm (hheader sum) rfl
  have htake : (header sum ++ payload).take 20 = header sum := take_left' (hheader sum)
  have hlength : (header sum ++ payload).length = 20 + payload.length := by
    rw [length_append, hheader]
  have hsource : range (header sum ++ payload) 12 16 = source.val :=
    range_of_append (a := [0x45, 0] ++ beBytes16 (20 + payload.length)
      ++ beBytes16 ipId.toNat ++ [0x40, 0, 64, protocol] ++ beBytes16 sum)
      (c := destination.val ++ payload) (by simp [header, ipv4Header]) (by simp) (by simp)
  have hdestination : range (header sum ++ payload) 16 20 = destination.val :=
    range_of_append (a := [0x45, 0] ++ beBytes16 (20 + payload.length)
      ++ beBytes16 ipId.toNat ++ [0x40, 0, 64, protocol] ++ beBytes16 sum ++ source.val)
      (c := payload) (by simp [header, ipv4Header]) (by simp) (by simp)
  have hfirst : byteAt (header sum ++ payload) 0 = 0x45 := rfl
  have hprotocol : byteAt (header sum ++ payload) 9 = protocol := rfl
  have hfragment : range (header sum ++ payload) 6 8 = [0x40, 0] := rfl
  have hheaderLen : ((0x45 : UInt8) &&& 0x0f).toNat * 4 = 20 := by decide
  unfold parseIpv4Frame
  rw [if_neg (by
    rw [htype]
    simp only [length_append, length_val, hheader, length_cons,
      length_nil]
    exact not_or.mpr ⟨by omega, by decide⟩)]
  dsimp only
  rw [hip, hfirst, if_neg (by decide), hheaderLen, htotal, htake, hsum, hlength,
    if_neg (by omega), hfragment, if_neg (by decide), hmac, hsource, hdestination, hlast, hprotocol]
  simp only [ofBytes_val, Option.bind_eq_bind, Option.bind_some]

/-- What `send_ipv4_from` sends is parsed to what it was given. -/
theorem sendIpv4From_parse (hlen : payload.length ≤ 1400) :
    ∃ frame, (sendIpv4From host mac source destination protocol payload).2 = some frame
      ∧ parseIpv4Frame frame = some ⟨host.mac, source, destination, protocol, payload⟩ := by
  unfold sendIpv4From maxFrame
  dsimp only
  rw [if_neg (by omega)]
  exact ⟨_, rfl, parseIpv4Frame_build mac host.mac source destination protocol host.ipId
    (by omega)⟩

theorem parseUdp_build {payload : Bytes} (hlen : payload.length ≤ 1392) :
    parseUdp (beBytes16 sourcePort.toNat ++ beBytes16 destinationPort.toNat
        ++ beBytes16 (8 + payload.length) ++ [0, 0] ++ payload)
      = some ⟨sourcePort, destinationPort, payload⟩ := by
  generalize hdatagram : beBytes16 sourcePort.toNat ++ beBytes16 destinationPort.toNat
    ++ beBytes16 (8 + payload.length) ++ [0, 0] ++ payload = datagram
  have hlength : datagram.length = 8 + payload.length := by
    simp [← hdatagram]
    omega
  have hsource : range datagram 0 2 = beBytes16 sourcePort.toNat := by rw [← hdatagram]; rfl
  have hdestination : range datagram 2 4 = beBytes16 destinationPort.toNat := by
    rw [← hdatagram]; rfl
  have hfield : beNat (range datagram 4 6) = 8 + payload.length := by
    have hrange : range datagram 4 6 = beBytes16 (8 + payload.length) := by rw [← hdatagram]; rfl
    rw [hrange, beNat_beBytes16]
    omega
  have hpayload : range datagram 8 (8 + payload.length) = payload :=
    range_of_append (c := []) (by rw [append_nil, hdatagram]) (by simp) rfl
  unfold parseUdp
  rw [if_neg (by omega)]
  dsimp only
  rw [hfield, if_neg (by omega), hsource, hdestination, hpayload, ofNat_beBytes16,
    ofNat_beBytes16]

theorem parseTcp_build (sequence acknowledgment : BitVec 32) (flags : UInt8) (payload : Bytes)
    (window : BitVec 16) (sum : Nat) :
    parseTcp (tcpSegment sourcePort destinationPort sequence acknowledgment flags payload window
        sum)
      = some ⟨sourcePort, destinationPort, sequence, acknowledgment, flags, window, payload⟩ := by
  generalize hsegment : tcpSegment sourcePort destinationPort sequence acknowledgment flags
    payload window sum = segment
  have hlength : segment.length = 20 + payload.length := by
    simp [← hsegment, tcpSegment, beBytes32]
    omega
  have hoffset : byteAt segment 12 = 0x50 := by rw [← hsegment]; rfl
  have hflags : byteAt segment 13 = flags := by rw [← hsegment]; rfl
  have hheaderLen : ((0x50 : UInt8) >>> 4).toNat * 4 = 20 := by decide
  have hoptions : range segment 20 20 = [] := by rw [← hsegment]; rfl
  have hpayload : segment.drop 20 = payload := by rw [← hsegment]; rfl
  have hsource : range segment 0 2 = beBytes16 sourcePort.toNat := by rw [← hsegment]; rfl
  have hdestination : range segment 2 4 = beBytes16 destinationPort.toNat := by
    rw [← hsegment]; rfl
  have hsequence : range segment 4 8 = beBytes32 sequence := by rw [← hsegment]; rfl
  have hack : range segment 8 12 = beBytes32 acknowledgment := by rw [← hsegment]; rfl
  have hwindow : range segment 14 16 = beBytes16 window.toNat := by rw [← hsegment]; rfl
  unfold parseTcp
  rw [if_neg (by omega)]
  dsimp only
  rw [hoffset, hheaderLen, hoptions, if_neg (by simp [tcpOptionsValid, hlength]), hsource,
    hdestination, hsequence, hack, hwindow, hflags, hpayload]
  simp only [ofNat_beBytes16, ofNat_beBytes32]

/-- **IPv4 transport frames are parsed to what they were built from.** -/
theorem ipv4_transport_round_trip (host : Ipv4Host) (mac : Mac) (destination : FixedBytes 4)
    (sourcePort destinationPort : BitVec 16) (payload : Bytes) :
    (payload.length ≤ 1380 → ∀ (sequence acknowledgment : BitVec 32) (flags : UInt8)
      (window : BitVec 16), ∃ frame segment,
        (sendTcpWithWindow host mac destination sourcePort destinationPort sequence
          acknowledgment flags payload window).2 = some frame
        ∧ parseIpv4Frame frame = some ⟨host.mac, host.address, destination, 6, segment⟩
        ∧ transportChecksumValid host.address destination 6 segment = true
        ∧ parseTcp segment = some
          ⟨sourcePort, destinationPort, sequence, acknowledgment, flags, window, payload⟩)
    ∧ (payload.length ≤ 1392 → ∀ source : FixedBytes 4, ∃ frame datagram,
        (sendUdpRaw host mac source destination sourcePort destinationPort payload).2 = some frame
        ∧ parseIpv4Frame frame = some ⟨host.mac, source, destination, 17, datagram⟩
        ∧ parseUdp datagram = some ⟨sourcePort, destinationPort, payload⟩) := by
  constructor
  · intro hlen sequence acknowledgment flags window
    let segment := tcpSegment sourcePort destinationPort sequence acknowledgment flags payload
      window
    let sum := transportChecksum host.address destination 6 (segment 0)
    have hlength : (segment sum).length ≤ 1400 := by
      simp [segment, tcpSegment, beBytes32]
      omega
    obtain ⟨frame, hframe, hparse⟩ :=
      sendIpv4From_parse host mac host.address destination 6 (segment sum) hlength
    refine ⟨frame, segment sum, ?_, hparse, ?_, ?_⟩
    · unfold sendTcpWithWindow
      rw [if_neg (by omega)]
      exact hframe
    · refine transportChecksum_complete (a := beBytes16 sourcePort.toNat
        ++ beBytes16 destinationPort.toNat ++ beBytes32 sequence ++ beBytes32 acknowledgment
        ++ [0x50, flags] ++ beBytes16 window.toNat) (by simp [beBytes32]) ?_ host.address
        destination
      simp [beBytes32]
      omega
    · exact parseTcp_build sourcePort destinationPort sequence acknowledgment flags payload window
        sum
  · intro hlen source
    obtain ⟨frame, hframe, hparse⟩ := sendIpv4From_parse host mac source destination 17
      (beBytes16 sourcePort.toNat ++ beBytes16 destinationPort.toNat
        ++ beBytes16 (8 + payload.length) ++ [0, 0] ++ payload) (by simp; omega)
    refine ⟨frame, _, ?_, hparse, parseUdp_build sourcePort destinationPort hlen⟩
    unfold sendUdpRaw
    dsimp only
    rw [if_neg (by omega)]
    exact hframe

/-! ## §5. TCP options. -/

/-- An option that takes part in the list: a NOP, or kind, length and body. -/
inductive TcpOption : Bytes → Prop
  | nop : TcpOption [1]
  | sized {kind length : UInt8} {body : Bytes} (hkind : kind ≠ 0 ∧ kind ≠ 1)
      (hlength : length.toNat = body.length + 2) (hmss : kind = 2 → length = 4) :
      TcpOption (kind :: length :: body)

/-- Options one after the other, and the padding behind an end of list. -/
def TcpOptions (bytes : Bytes) : Prop :=
  ∃ options : List Bytes, (∀ option ∈ options, TcpOption option)
    ∧ (bytes = options.flatten ∨ ∃ n, bytes = options.flatten ++ 0 :: List.replicate n 0)

namespace TcpOptions

variable {option rest : Bytes}

theorem cons (h : TcpOption option) (hrest : TcpOptions rest) : TcpOptions (option ++ rest) := by
  obtain ⟨options, hoptions, hbytes⟩ := hrest
  refine ⟨option :: options, ?_, ?_⟩
  · intro o ho
    rcases mem_cons.mp ho with rfl | ho
    · exact h
    · exact hoptions o ho
  · rw [flatten_cons]
    rcases hbytes with rfl | ⟨n, rfl⟩
    · exact .inl rfl
    · exact .inr ⟨n, (append_assoc _ _ _).symm⟩

/-- What is accepted is a list of options. -/
theorem of_valid (bytes : Bytes) (h : tcpOptionsValid bytes = true) : TcpOptions bytes := by
  fun_induction tcpOptionsValid bytes with
  | case1 => exact ⟨[], nofun, .inl rfl⟩
  | case2 rest =>
    have hzero : ∀ b ∈ rest, b = 0 := by simpa using h
    refine ⟨[], nofun, .inr ⟨rest.length, ?_⟩⟩
    rw [← eq_replicate_of_mem hzero]
    rfl
  | case3 rest ih => exact cons .nop (ih h)
  | case4 => cases h
  | case5 => cases h
  | case6 kind length rest hzero hone hbad ih =>
    simp only [not_or, Nat.not_lt, not_and, not_not] at hbad
    obtain ⟨hlow, hfits, hmss⟩ := hbad
    -- the body is what the length counts beyond itself and the kind
    have hsplit : kind :: length :: rest
        = (kind :: length :: rest.take (length.toNat - 2)) ++ rest.drop (length.toNat - 2) := by
      rw [cons_append, cons_append, take_append_drop]
    rw [hsplit]
    refine cons (.sized ⟨hzero, hone⟩ ?_ fun hkind => ?_) (ih h)
    · rw [length_take]
      omega
    · exact UInt8.toNat_inj.mp (hmss hkind)

/-- An option is skipped. -/
theorem valid_skip (h : TcpOption option) (rest : Bytes) :
    tcpOptionsValid (option ++ rest) = tcpOptionsValid rest := by
  cases h with
  | nop => rw [singleton_append, tcpOptionsValid]
  | @sized kind length body hkind hlength hmss =>
    have hgood : ¬ (length.toNat < 2 ∨ (body ++ rest).length + 2 < length.toNat
        ∨ (kind = 2 ∧ length.toNat ≠ 4)) := by
      rw [length_append]
      rintro (hlow | hlong | ⟨hkind, hother⟩)
      · omega
      · omega
      · exact hother (congrArg UInt8.toNat (hmss hkind))
    have hbody : length.toNat - 2 = body.length := by omega
    rw [cons_append, cons_append, tcpOptionsValid, if_neg hgood, hbody, drop_left]
    · exact hkind.1
    · exact hkind.2

theorem valid_flatten {options : List Bytes} (h : ∀ option ∈ options, TcpOption option)
    (rest : Bytes) : tcpOptionsValid (options.flatten ++ rest) = tcpOptionsValid rest := by
  induction options with
  | nil => rfl
  | cons option options ih =>
    rw [flatten_cons, append_assoc, valid_skip (h option mem_cons_self),
      ih fun o ho => h o (mem_cons_of_mem option ho)]

end TcpOptions

/-- **The options that are accepted are exactly the well-formed lists.** -/
theorem tcp_options_valid_iff (bytes : Bytes) :
    tcpOptionsValid bytes = true ↔ TcpOptions bytes := by
  constructor
  · exact TcpOptions.of_valid bytes
  rintro ⟨options, hoptions, rfl | ⟨n, rfl⟩⟩
  · rw [← List.append_nil options.flatten, TcpOptions.valid_flatten hoptions, tcpOptionsValid]
  · rw [TcpOptions.valid_flatten hoptions, tcpOptionsValid]
    simp

end GenOS.Network
