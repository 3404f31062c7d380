/-
  GenOS.Ipv6.Control — the IPv6 control path of the network stack.

  `NetworkStack::advance_control` polls the host and hands its frame to the
  device; if the device refuses the frame, the stack itself makes the host
  unavailable and drops its route.  `receive_ipv4` gives IPv6 frames to the
  host and hands the reply to the device.  Whether the device takes a frame
  is an input.

  A host that was made unavailable stays so, and never probes an address
  again.  It never uses a global address, but the state does not stop it from
  answering solicitations for its link-local address, also when it was the
  probe of that address which the device refused.
-/
import GenOS.Ipv6.DadSafety

namespace GenOS.Ipv6

open GenOS.Lib List

/-! ## §1. The control path. -/

/-- The fields of `NetworkStack` that the control path uses. -/
structure ControlStack where
  ipv6 : Option Host
  controlTick : Nat

/-- A tick of the control path, or a frame that the device received, with the
answer of the device to the frame that the stack hands to it, if any. -/
inductive ControlInput where
  | advance (tick : Nat) (accepted : Bool)
  | receive (frame : Bytes) (accepted : Bool)

def ControlInput.accepted : ControlInput → Bool
  | .advance _ accepted => accepted
  | .receive _ accepted => accepted

namespace ControlStack

/-- The stack after `init` on a card with this address. -/
def booted (mac : Mac) (controlTick : Nat) : ControlStack := ⟨some (Host.new mac 0), controlTick⟩

variable (s : ControlStack)

/-- `advance_control`, with the frame that it hands to the device. -/
def advanceControl (tick : Nat) (accepted : Bool) : ControlStack × Option Bytes :=
  match s.ipv6 with
  | none => ({ s with controlTick := tick }, none)
  | some host =>
    match host.poll tick frameCapacity with
    | (host, none) => (⟨some host, tick⟩, none)
    | (host, some frame) =>
      if accepted then (⟨some host, tick⟩, some frame)
      else (⟨some { host with state := .unavailable, route := none }, tick⟩, some frame)

/-- `self.rx.len >= 14 && self.rx.bytes[12..14] == [0x86, 0xdd]`. -/
def isIpv6 (frame : Bytes) : Bool := 14 ≤ frame.length && range frame 12 14 == [0x86, 0xdd]

/-- The IPv6 part of `receive_ipv4`, with the reply that it hands to the device. -/
def receiveIpv6 (frame : Bytes) : ControlStack × Option Bytes :=
  if isIpv6 frame then
    match s.ipv6 with
    | none => (s, none)
    | some host =>
      let (host, reply) := host.receive frame s.controlTick frameCapacity
      ({ s with ipv6 := some host }, reply)
  else (s, none)

def step : ControlInput → ControlStack × Option Bytes
  | .advance tick accepted => s.advanceControl tick accepted
  | .receive frame _ => s.receiveIpv6 frame

/-- The frames that the device takes in a run. -/
def transmitted (s : ControlStack) : List ControlInput → List Bytes
  | [] => []
  | input :: rest =>
    (if input.accepted then (s.step input).2.toList else [])
      ++ (s.step input).1.transmitted rest

/-- At this tick the stack hands the device a probe of `A`, which the device refuses. -/
def Refuses (tick : Nat) (A : Address) : Prop :=
  ∃ frame, (s.advanceControl tick false).2 = some frame ∧ IsDadSolicitation frame A

end ControlStack

/-! ## §2. A host that the stack made unavailable. -/

/-- The frame passes the checks of `receive` as a neighbor solicitation for the
link-local address, sent to that address or to its solicited-node group. -/
def Host.Solicited (own : Host) (frame : Bytes) : Prop :=
  ControlStack.isIpv6 frame = true ∧ ∃ packet, own.accept frame = some packet
    ∧ byteAt packet.payload 0 = 135
    ∧ { own with route := none }.neighborTarget packet = some own.linkLocal
    ∧ (packet.destination = own.linkLocal ∨ packet.destination = solicitedNode own.linkLocal)

open Host

/-- `host` is what is left of `own` after a refused frame. -/
structure Host.Down (own host : Host) : Prop where
  state : host.state = .unavailable
  route : host.route = none
  mac : host.mac = own.mac
  linkLocal : host.linkLocal = own.linkLocal

section Down

variable {own host : Host} {frame : Bytes} {tick capacity : Nat}

/-- A poll keeps the addresses of the card. -/
theorem poll_keeps (host : Host) (tick capacity : Nat) :
    (host.poll tick capacity).1.mac = host.mac
      ∧ (host.poll tick capacity).1.linkLocal = host.linkLocal := by
  have hpass : (host.passDeadline tick).mac = host.mac
      ∧ (host.passDeadline tick).linkLocal = host.linkLocal := by
    unfold passDeadline
    repeat' split
    all_goals exact ⟨rfl, rfl⟩
  have hdrop : ∀ h : Host, (h.dropExpiredRoute tick).mac = h.mac
      ∧ (h.dropExpiredRoute tick).linkLocal = h.linkLocal := by
    intro h
    unfold dropExpiredRoute
    repeat' split
    all_goals exact ⟨rfl, rfl⟩
  have hecho : ∀ h : Host, (h.sendEcho capacity).1.mac = h.mac
      ∧ (h.sendEcho capacity).1.linkLocal = h.linkLocal := by
    intro h
    unfold sendEcho
    repeat' split
    all_goals exact ⟨rfl, rfl⟩
  unfold poll
  split
  · exact ⟨rfl, rfl⟩
  have htimers := And.intro ((hdrop _).1.trans hpass.1) ((hdrop _).2.trans hpass.2)
  generalize (host.passDeadline tick).dropExpiredRoute tick = h at htimers ⊢
  rcases emit_cases h tick capacity with ⟨_, heq⟩ | ⟨_, _, _, heq⟩ | ⟨_, heq⟩ | ⟨p, _, heq⟩
  · rw [heq]
    exact htimers
  · rw [heq]
    exact htimers
  · rw [heq]
    exact htimers
  · rw [heq, (hecho _).1, (hecho _).2]
    exact htimers

section

variable (h : own.Down host)

include h

theorem Host.Down.poll (tick : Nat) :
    own.Down (host.poll tick capacity).1 ∧ (host.poll tick capacity).2 = none := by
  obtain ⟨p, heq⟩ : ∃ p, host.poll tick capacity = ({ host with pending := p }, none) :=
    poll_stopped (.inr h.state)
  rw [heq]
  exact ⟨⟨h.state, h.route, h.mac, h.linkLocal⟩, rfl⟩

theorem Host.Down.accept : host.accept frame = own.accept frame := by
  unfold Host.accept
  rw [h.mac]

theorem Host.Down.neighborTarget (packet : Packet) :
    host.neighborTarget packet = { own with route := none }.neighborTarget packet := by
  unfold Host.neighborTarget
  rw [h.linkLocal, h.route]

/-- Such a host owns its link-local address and no other. -/
theorem Host.Down.ownsTarget (target : Address) :
    host.ownsTarget target = true ↔ target = own.linkLocal := by
  unfold Host.ownsTarget
  rw [h.state, h.linkLocal]
  simp

/-- It does not change with what it receives, and answers the solicitations for
its link-local address only. -/
theorem Host.Down.receive (hframe : ControlStack.isIpv6 frame = true) (tick capacity : Nat) :
    (own.Solicited frame ∧ ∃ packet, host.receive frame tick capacity
        = (host, host.advertise packet own.linkLocal capacity))
      ∨ (¬ own.Solicited frame ∧ host.receive frame tick capacity = (host, none)) := by
  have hecho : ∀ packet, host.receiveEcho packet capacity = (host, none) := by
    intro packet
    unfold receiveEcho
    exact if_neg (fun hready => absurd (h.state.symm.trans hready) (by decide))
  unfold Host.receive Host.Solicited
  rw [h.accept]
  cases own.accept frame with
  | none => exact .inr ⟨fun ⟨_, _, hnone, _⟩ => (nomatch hnone), rfl⟩
  | some packet =>
    have hroute : host.advertisedRoute packet tick = none :=
      if_neg (fun hstate => absurd (h.state.symm.trans hstate) (by decide))
    simp only [hroute, Option.some.injEq, exists_eq_left', hframe, true_and]
    unfold receiveControl receiveNeighbor isNeighbor
    by_cases hneighbor : (byteAt packet.payload 0 == 135 || byteAt packet.payload 0 == 136) = true
    · rw [if_pos hneighbor, h.neighborTarget]
      cases { own with route := none }.neighborTarget packet with
      | none => exact .inr ⟨fun ⟨_, hnone, _⟩ => (nomatch hnone), rfl⟩
      | some target =>
        have hquiet : host.conflicting packet target = false := by
          unfold conflicting tentative
          rw [h.state]
          rfl
        simp only [hquiet, Bool.false_eq_true, if_false, h.ownsTarget, hecho]
        split
        · rename_i hanswer
          obtain ⟨hkind, rfl, hdestination⟩ := hanswer
          exact .inl ⟨⟨hkind, rfl, hdestination⟩, packet, rfl⟩
        · rename_i hother
          refine .inr ⟨fun ⟨hkind, htarget, hdestination⟩ => hother ?_, rfl⟩
          cases htarget
          exact ⟨hkind, rfl, hdestination⟩
    · rw [if_neg hneighbor, hecho]
      refine .inr ⟨fun ⟨hkind, _⟩ => hneighbor ?_, rfl⟩
      rw [hkind]
      rfl

end

/-- The advertisement is written, is no probe, and uses its target only. -/
theorem advertise_frame (host : Host) (packet : Packet) (target : Address) :
    ∃ frame, host.advertise packet target frameCapacity = some frame
      ∧ (∀ A, ¬ IsDadSolicitation frame A) ∧ ∀ A, Uses frame A ↔ A = target := by
  have hwritten : ∃ frame, host.advertise packet target frameCapacity = some frame := by
    refine writeIcmp_isSome (Nat.le_refl _) ?_ ?_ (by decide) <;> simp
  obtain ⟨frame, hframe⟩ := hwritten
  have hkind : messageType frame = 136 := messageType_writeIcmp hframe
  have hsource := sourceOf_writeIcmp hframe
  refine ⟨frame, hframe, fun A hA => absurd (hkind.symm.trans hA.2.1) (by decide), fun A => ?_⟩
  exact ⟨fun huses => (advertise_uses hframe huses).symm, fun hA => .inl (hA ▸ hsource)⟩

end Down

/-! ## §3. Runs after a refusal. -/

namespace ControlStack

variable {s : ControlStack} {own host : Host} {tick : Nat} {A : Address} {frame : Bytes}

/-- After a refused probe the host is down. -/
theorem Refuses.down (h : s.Refuses tick A) (hhost : s.ipv6 = some own) :
    ∃ host, (s.advanceControl tick false).1.ipv6 = some host ∧ own.Down host := by
  obtain ⟨frame, hframe, -⟩ := h
  have hkeeps := poll_keeps own tick frameCapacity
  unfold advanceControl at hframe ⊢
  rw [hhost] at hframe ⊢
  dsimp only at hframe ⊢
  generalize own.poll tick frameCapacity = polled at hframe hkeeps ⊢
  obtain ⟨host, _ | sent⟩ := polled
  · cases hframe
  · exact ⟨_, rfl, rfl, rfl, hkeeps.1, hkeeps.2⟩

/-- One input: the host stays down, and the stack hands the device an
advertisement of the link-local address if that is solicited, else nothing. -/
theorem step_down (hhost : s.ipv6 = some host) (h : own.Down host) (input : ControlInput) :
    (∃ host', (s.step input).1.ipv6 = some host' ∧ own.Down host')
      ∧ ((∃ frame accepted packet, input = .receive frame accepted ∧ own.Solicited frame
          ∧ (s.step input).2 = host.advertise packet own.linkLocal frameCapacity)
        ∨ ((∀ frame accepted, input = .receive frame accepted → ¬ own.Solicited frame)
          ∧ (s.step input).2 = none)) := by
  cases input with
  | advance t accepted =>
    have ⟨hdown, hnone⟩ : own.Down (host.poll t frameCapacity).1
        ∧ (host.poll t frameCapacity).2 = none := h.poll t
    unfold step advanceControl
    rw [hhost]
    dsimp only
    generalize host.poll t frameCapacity = polled at hdown hnone ⊢
    obtain ⟨host', _ | frame⟩ := polled
    · exact ⟨⟨host', rfl, hdown⟩, .inr ⟨nofun, rfl⟩⟩
    · cases hnone
  | receive frame accepted =>
    unfold step receiveIpv6
    dsimp only
    split
    · rename_i hipv6
      rw [hhost]
      dsimp only
      rcases h.receive hipv6 s.controlTick frameCapacity with ⟨hsolicited, packet, heq⟩ | ⟨hother, heq⟩
      · rw [heq]
        exact ⟨⟨host, rfl, h⟩, .inl ⟨frame, accepted, packet, rfl, hsolicited, rfl⟩⟩
      · rw [heq]
        refine ⟨⟨host, rfl, h⟩, .inr ⟨fun f a hinput => ?_, rfl⟩⟩
        cases hinput
        exact hother
    · rename_i hother
      refine ⟨⟨host, hhost, h⟩, .inr ⟨fun f a hinput hsolicited => hother ?_, rfl⟩⟩
      cases hinput
      exact hsolicited.1

/-- A whole run: no probe is transmitted, and the addresses in use are the
link-local one if a reply to a solicitation for it gets out, and no other. -/
theorem transmitted_down (hhost : s.ipv6 = some host) (h : own.Down host)
    (inputs : List ControlInput) :
    (∀ frame ∈ s.transmitted inputs, ∀ A, ¬ IsDadSolicitation frame A)
      ∧ ∀ A, (∃ frame ∈ s.transmitted inputs, Uses frame A) ↔
        A = own.linkLocal ∧ ∃ frame, .receive frame true ∈ inputs ∧ own.Solicited frame := by
  induction inputs generalizing s host with
  | nil =>
    refine ⟨fun _ hmem => (nomatch hmem), fun A => ⟨fun ⟨_, hmem, _⟩ => (nomatch hmem), ?_⟩⟩
    exact fun ⟨_, _, hmem, _⟩ => (nomatch hmem)
  | cons input rest ih =>
    obtain ⟨⟨host', hhost', h'⟩, hout⟩ := step_down hhost h input
    obtain ⟨hprobes, huses⟩ := ih hhost' h'
    unfold transmitted
    rcases hout with ⟨frame, accepted, packet, rfl, hsolicited, hreply⟩ | ⟨hother, hnone⟩
    · obtain ⟨reply, hwritten, hprobe, hreplies⟩ := advertise_frame host packet own.linkLocal
      rw [hreply, hwritten]
      cases accepted with
      | false =>
        refine ⟨hprobes, fun A => (huses A).trans (and_congr_right fun _ => ?_)⟩
        simp
      | true =>
        refine ⟨fun f hmem A => ?_, fun A => ?_⟩
        · rcases mem_cons.mp hmem with rfl | hmem
          · exact hprobe A
          · exact hprobes f hmem A
        · constructor
          · rintro ⟨f, hmem, hf⟩
            refine ⟨?_, frame, mem_cons_self, hsolicited⟩
            rcases mem_cons.mp hmem with rfl | hmem
            · exact (hreplies A).mp hf
            · exact ((huses A).mp ⟨f, hmem, hf⟩).1
          · rintro ⟨hA, -⟩
            exact ⟨reply, mem_cons_self, (hreplies A).mpr hA⟩
    · rw [hnone, Option.toList_none, ite_self, nil_append]
      refine ⟨hprobes, fun A => (huses A).trans (and_congr_right fun _ => ?_)⟩
      constructor
      · rintro ⟨f, hmem, hf⟩
        exact ⟨f, mem_cons_of_mem _ hmem, hf⟩
      · rintro ⟨f, hmem, hf⟩
        rcases mem_cons.mp hmem with heq | hmem
        · exact absurd hf (hother f true heq.symm)
        · exact ⟨f, hmem, hf⟩

/-- **A refused probe validates no address but the link-local one**: after the
device refused a probe of `A`, and with no later probe of `A` transmitted, no
transmitted frame uses `A`, exactly if `A` is not the link-local address of the
host, or no reply to a solicitation for that address is handed to a device that
takes it. -/
theorem refused_probe_exact (s : ControlStack) (own : Host) (tick : Nat) (A : Address)
    (later : List ControlInput) (hhost : s.ipv6 = some own) (hrefused : s.Refuses tick A) :
    ((∀ frame ∈ (s.advanceControl tick false).1.transmitted later, ¬ IsDadSolicitation frame A) →
        ∀ frame ∈ (s.advanceControl tick false).1.transmitted later, ¬ Uses frame A)
      ↔ A ≠ own.linkLocal ∨ ∀ frame, .receive frame true ∈ later → ¬ own.Solicited frame := by
  obtain ⟨host, hdown, h⟩ := hrefused.down hhost
  obtain ⟨hprobes, huses⟩ := transmitted_down hdown h later
  have hquiet : (∀ frame ∈ (s.advanceControl tick false).1.transmitted later, ¬ Uses frame A)
      ↔ ¬ ∃ frame ∈ (s.advanceControl tick false).1.transmitted later, Uses frame A := by
    simp only [not_exists, not_and]
  rw [forall_prop_of_true fun frame hmem => hprobes frame hmem A, hquiet, huses A, not_and_or]
  simp only [not_exists, not_and]

/-- The stack of a card with address zero, after the device refused its first probe. -/
theorem booted_refuses : (booted .zero 0).Refuses 0 (linkLocal .zero) := by
  have hprobe : (((booted .zero 0).advanceControl 0 false).2.any fun frame =>
      protocolOf frame = 58 ∧ messageType frame = 135 ∧ sourceOf frame = unspecified.val
        ∧ destinationOf frame = (solicitedNode (linkLocal .zero)).val
        ∧ targetOf frame = (linkLocal .zero).val) = true := by decide +kernel
  obtain ⟨frame, hframe, hdad⟩ := exists_of_any hprobe
  have hdad := of_decide_eq_true hdad
  exact ⟨frame, hframe, hdad⟩

/-- Ticks alone, whatever the device does then. -/
theorem refused_probe_exact_ticks :
    (booted .zero 0).Refuses 0 (linkLocal .zero)
      ∧ ∀ frame ∈ ((booted .zero 0).advanceControl 0 false).1.transmitted
        [.advance 100 true, .advance 200 true], ¬ Uses frame (linkLocal .zero) := by
  have h := refused_probe_exact (booted .zero 0) (Host.new .zero 0) 0 (linkLocal .zero)
    [.advance 100 true, .advance 200 true] rfl booted_refuses
  refine ⟨booted_refuses, h.mpr (Or.inr fun frame hmem => ?_) ?_⟩
  · simp at hmem
  have hnone : ((booted .zero 0).advanceControl 0 false).1.transmitted
      [.advance 100 true, .advance 200 true] = [] := by decide +kernel
  rw [hnone]
  exact fun _ hmem => (nomatch hmem)

theorem neighborMac_length : ([0x52, 0x55, 0, 0, 0, 2] : Bytes).length = 6 := rfl

/-- A neighbor's solicitation for the link-local address of the card with address zero. -/
def neighborSolicitation : Bytes :=
  let neighborMac : Mac := ⟨[0x52, 0x55, 0, 0, 0, 2], neighborMac_length⟩
  let group := solicitedNode (linkLocal .zero)
  (writeIcmp frameCapacity neighborMac (multicastMac group) (linkLocal neighborMac) group 255
    ([135, 0, 0, 0, 0, 0, 0, 0] ++ (linkLocal .zero).val)).getD []

/-- The probe of the link-local address is refused, nothing is sent that probes
it again, and the next solicitation is answered with an advertisement of it. -/
theorem refused_probe_advertised :
    (booted .zero 0).Refuses 0 (linkLocal .zero)
      ∧ ∃ frame, ((booted .zero 0).advanceControl 0 false).1.transmitted
          [.receive neighborSolicitation true] = [frame]
        ∧ messageType frame = 136 ∧ sourceOf frame = (linkLocal .zero).val
        ∧ targetOf frame = (linkLocal .zero).val := by
  refine ⟨booted_refuses, ?_⟩
  have hany : (((booted .zero 0).advanceControl 0 false).1.receiveIpv6
      neighborSolicitation).2.any (fun frame => messageType frame = 136
        ∧ sourceOf frame = (linkLocal .zero).val ∧ targetOf frame = (linkLocal .zero).val) = true := by
    decide +kernel
  obtain ⟨frame, hframe, hreply⟩ := exists_of_any hany
  refine ⟨frame, ?_, of_decide_eq_true hreply⟩
  show (((booted .zero 0).advanceControl 0 false).1.receiveIpv6 neighborSolicitation).2.toList ++ []
    = [frame]
  rw [hframe]
  rfl

end ControlStack

end GenOS.Ipv6
