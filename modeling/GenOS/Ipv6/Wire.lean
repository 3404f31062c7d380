/-
  GenOS.Ipv6.Wire — what `write_icmp` builds, `parse_frame` reads back.

  The checksum that is inserted completes the sum over the pseudo header, so the
  receiver's sum over the whole message is all ones (`transportChecksum_complete`).
  The other fields are read back from where they were written.
-/
import GenOS.Network.Ipv4Frame

namespace GenOS.Ipv6

open GenOS.Lib FixedBytes List

variable {source destination : Address}

/-- The checksum field at an even offset completes the transport sum. -/
theorem transportChecksum_complete {a b : Bytes} (heven : a.length % 2 = 0) (protocol : UInt8) :
    transportChecksum source destination protocol (a ++ beBytes16
      (transportChecksum source destination protocol (a ++ beBytes16 0 ++ b)) ++ b) = 0 := by
  have hlen : ∀ n, (a ++ beBytes16 n ++ b).length = a.length + 2 + b.length := by
    intro n
    simp only [length_append, beBytes16_length]
  unfold transportChecksum
  dsimp only
  simp only [hlen, Network.wordSum_field heven, Nat.zero_mod, Nat.add_zero]
  generalize (a.length + 2 + b.length) % 65536 + (a.length + 2 + b.length) / 65536 % 65536
    + protocol.toNat = tail
  have hcomplete := Network.foldCarry_complete
    (wordSum source.val + wordSum destination.val + (wordSum a + wordSum b) + tail)
  rw [Nat.mod_eq_of_lt (Nat.lt_succ_of_le (Nat.sub_le _ _))]
  refine Nat.sub_eq_zero_of_le (Nat.le_of_eq ?_)
  convert hcomplete.symm using 2
  omega

/-- A frame without extension headers is parsed into its fields. -/
theorem parseFrame_plain (sourceMac destinationMac : Mac) {hopLimit : UInt8} {body : Bytes}
    (hlow : 0 < body.length) (hhigh : body.length ≤ 1464) (hhop : hopLimit ≠ 0)
    (hsource : isMulticast source = false) (hdestination : destination ≠ unspecified) :
    parseFrame (destinationMac.val ++ sourceMac.val ++ [0x86, 0xdd, 0x60, 0, 0, 0]
        ++ beBytes16 body.length ++ [58, hopLimit] ++ source.val ++ destination.val ++ body)
      = some ⟨sourceMac, source, destination, 58, hopLimit, body⟩ := by
  let header := [0x60, 0, 0, 0] ++ beBytes16 body.length ++ [58, hopLimit]
  let ip := header ++ source.val ++ destination.val ++ body
  let frame := destinationMac.val ++ sourceMac.val ++ [0x86, 0xdd] ++ ip
  have hframe : destinationMac.val ++ sourceMac.val ++ [0x86, 0xdd, 0x60, 0, 0, 0]
      ++ beBytes16 body.length ++ [58, hopLimit] ++ source.val ++ destination.val ++ body
        = frame := by
    simp [frame, ip, header]
  have hip : frame.drop 14 = ip := drop_left' (by simp)
  have hheader : header.length = 8 := rfl
  have hlength : ip.length = 40 + body.length := by
    simp only [ip, length_append, length_val, hheader]
  have hsize : frame.length = 54 + body.length := by
    simp only [frame, length_append, length_val, hlength, length_cons,
      length_nil]
    omega
  have htype : range frame 12 14 = [0x86, 0xdd] :=
    range_of_append (a := destinationMac.val ++ sourceMac.val) rfl (by simp) (by simp)
  have hmac : range frame 6 12 = sourceMac.val :=
    range_of_append (a := destinationMac.val) (c := [0x86, 0xdd] ++ ip) (by simp [frame]) (by simp)
      (by simp)
  have hdeclared : beNat (range ip 4 6) = body.length := by
    have hfield : range ip 4 6 = beBytes16 body.length := rfl
    rw [hfield, Network.beNat_beBytes16, Nat.mod_eq_of_lt (by omega)]
  have hfrom : range ip 8 24 = source.val :=
    range_of_append (a := header) (c := destination.val ++ body) (by simp [ip]) hheader (by simp)
  have hto : range ip 24 40 = destination.val :=
    range_of_append (a := header ++ source.val) rfl (by simp [hheader]) (by simp)
  have hbody : range ip 40 (40 + body.length) = body :=
    range_of_append (a := header ++ source.val ++ destination.val) (c := [])
      (append_nil _).symm (by simp [hheader]) rfl
  have hversion : byteAt ip 0 = 0x60 := rfl
  have hnext : byteAt ip 6 = 58 := rfl
  have hlimit : byteAt ip 7 = hopLimit := rfl
  have hstop : skipExtensions false false 58 body = some (58, body) := by
    rw [skipExtensions, if_neg (by decide)]
  rw [hframe, parseFrame, if_neg]
  · dsimp only
    rw [hip, hdeclared, hversion, hlimit, hnext, hfrom, hto, hbody, hmac, hstop, if_neg,
      ofBytes_val, ofBytes_val, ofBytes_val]
    · simp [hsource, hdestination]
    rw [hlength]
    simp only [hhop, ne_eq, (by decide : (0x60 : UInt8) >>> 4 = 6), not_true_eq_false, false_or]
    omega
  · rw [htype, hsize]
    simp only [headerLen, frameCapacity, ne_eq, not_true_eq_false, or_false]
    omega

/-- **What `write_icmp` builds is accepted and read back.**  Only the two bytes
of the checksum differ from the message. -/

theorem write_icmp_parses {capacity : Nat} (sourceMac destinationMac : Mac) {hopLimit : UInt8}
    {message : Bytes} (hlow : 4 ≤ message.length) (hhigh : message.length ≤ 1464)
    (hcapacity : headerLen + message.length ≤ capacity) (hhop : hopLimit ≠ 0)
    (hsource : isMulticast source = false) (hdestination : destination ≠ unspecified) :
    ∃ frame payload, writeIcmp capacity sourceMac destinationMac source destination hopLimit message
        = some frame
      ∧ parseFrame frame = some ⟨sourceMac, source, destination, 58, hopLimit, payload⟩
      ∧ validTransport ⟨sourceMac, source, destination, 58, hopLimit, payload⟩ = true
      ∧ payload.length = message.length ∧ payload.take 2 = message.take 2
      ∧ payload.drop 4 = message.drop 4 := by
  have htwo : (message.take 2).length = 2 := List.length_take_of_le (by omega)
  let sum := transportChecksum source destination 58 (message.take 2 ++ [0, 0] ++ message.drop 4)
  let payload := message.take 2 ++ beBytes16 sum ++ message.drop 4
  have hlength : payload.length = message.length := by
    simp only [payload, List.length_append, htwo, beBytes16_length, List.length_drop]
    omega
  have hsum : transportChecksum source destination 58 payload = 0 :=
    transportChecksum_complete (by rw [htwo]) 58
  have hwritten : writeIcmp capacity sourceMac destinationMac source destination hopLimit message
      = some (destinationMac.val ++ sourceMac.val ++ [0x86, 0xdd, 0x60, 0, 0, 0]
        ++ beBytes16 payload.length ++ [58, hopLimit] ++ source.val ++ destination.val
        ++ payload) := by
    rw [hlength, writeIcmp, if_neg]
    simp only [hhop, false_or, frameCapacity, headerLen] at hcapacity ⊢
    omega
  refine ⟨_, payload, hwritten, ?_, ?_, hlength, ?_, ?_⟩
  · exact parseFrame_plain sourceMac destinationMac (by omega) (by omega) hhop hsource hdestination
  · have hminimum : transportMinimum 58 = some 4 := rfl
    simp only [validTransport, hminimum]
    rw [if_neg (by omega), if_neg (fun h => by cases h.1), hsum]
    rfl
  · simp only [payload, List.append_assoc, List.take_left' htwo]
  · exact List.drop_left' (by simp [htwo])

theorem write_icmp_parses_echo :
    ∃ frame payload, writeIcmp 1518 .zero .zero unspecified allNodes 255 [128, 0, 0, 0, 7]
        = some frame
      ∧ parseFrame frame = some ⟨.zero, unspecified, allNodes, 58, 255, payload⟩
      ∧ validTransport ⟨.zero, unspecified, allNodes, 58, 255, payload⟩ = true
      ∧ payload.length = 5 ∧ payload.take 2 = [128, 0] ∧ payload.drop 4 = [7] :=
  write_icmp_parses .zero .zero (by decide) (by decide) (by decide) (by decide) (by decide)
    (by decide)

end GenOS.Ipv6
