/-
  GenOS.Ipv6.DadSafety — duplicate address detection over whole runs.

  A run records every call: the host before it, its tick, the frame that came
  in and the frame that went out.  `SolicitedAt log A t` says that the log
  holds a probe of `A` made at tick `t` and no conflicting neighbor message
  since; the invariant `DadInv` ties the six states of the host to these
  entries of the log.  Its pending flag and its deadline mean something only
  together with the state, which is what the two `…probing` fields say.
-/
import GenOS.Ipv6.Host
import GenOS.Lib.Prior

namespace GenOS.Ipv6

open GenOS.Lib

/-! ## §1. Routes from advertisements. -/

/-- What every visit keeps, the whole option list keeps. -/
theorem ndOptions_keeps {σ : Type} {visit : σ → UInt8 → Bytes → Option σ} {I : σ → Prop}
    (hvisit : ∀ s kind option s', I s → visit s kind option = some s' → I s') {state : σ}
    {bytes : Bytes} {result : σ} (hstart : I state)
    (h : ndOptions visit state bytes = some result) : I result := by
  fun_induction ndOptions visit state bytes with
  | case1 state bytes _ => exact Option.some.inj h ▸ hstart
  | case2 | case3 | case4 | case5 => cases h
  | case6 state bytes _ units _ len _ _ next hnext ih => exact ih (hvisit _ _ _ _ hstart hnext) h

/-- A prefix that may be taken: neither link-local nor zero in its first half. -/
def Advertised.Usable (seen : Advertised) : Prop :=
  ∀ info, seen.prefixInfo = some info →
    isLinkLocal info.1 = false ∧ info.1.slice 0 8 ≠ List.replicate 8 0

theorem visitAdvertised_usable {packet : Packet} {seen seen' : Advertised} {kind : UInt8}
    {option : Bytes} (hseen : seen.Usable)
    (h : visitAdvertised packet seen kind option = some seen') : seen'.Usable := by
  unfold visitAdvertised at h
  split at h
  · -- the link-layer address leaves the prefix alone
    split at h
    · cases h
    cases haddr : FixedBytes.ofBytes 6 (range option 2 8) with
    | none => rw [haddr] at h; cases h
    | some address =>
      rw [haddr] at h
      dsimp only [Option.bind_eq_bind, Option.bind_some] at h
      split at h
      · cases h
      · exact Option.some.inj h ▸ hseen
  · split at h
    · split at h
      · cases h
      cases haddr : FixedBytes.ofBytes 16 (range option 16 32) with
      | none => rw [haddr] at h; cases h
      | some address =>
        rw [haddr] at h
        dsimp only [Option.bind_eq_bind, Option.bind_some] at h
        split at h
        · cases h
        split at h
        · rename_i hok
          obtain rfl := Option.some.inj h
          intro info hinfo
          obtain rfl := Option.some.inj hinfo
          exact ⟨by simpa using hok.2.2.2.2.1, hok.2.2.2.2.2.2.1⟩
        · exact Option.some.inj h ▸ hseen
    · split at h
      · split at h
        · cases h
        obtain rfl := Option.some.inj h
        split
        · exact hseen
        · exact hseen
      · exact Option.some.inj h ▸ hseen

/-- The address of a route is not link-local and not unspecified. -/
def Route.Global (route : Route) : Prop :=
  isLinkLocal route.address = false ∧ route.address ≠ unspecified

/-- Writing the interface half leaves the prefix half. -/
theorem slice_interface (a own : Address) : (a.patch 8 (own.val.drop 8)).slice 0 8 = a.slice 0 8 :=
  FixedBytes.slice_patch_of_disjoint (.inl (Nat.le_refl 8))

theorem byte_interface (a own : Address) {i : Nat} (hi : i < 8) :
    (a.patch 8 (own.val.drop 8)).byte i = a.byte i :=
  FixedBytes.byte_patch_of_notMem (.inl hi)

variable {tick now : Nat} {log : List Record} {A : Address} {record : Record} {frame : Bytes}

theorem routerAdvertisement_global {packet : Packet} {own : Address} {route : Route}
    (h : routerAdvertisement packet own tick = some route) : route.Global := by
  unfold routerAdvertisement at h
  dsimp only at h
  split at h
  · cases h
  split at h
  · cases h
  cases hseen : ndOptions (visitAdvertised packet) ⟨none, none, 1280⟩
      (packet.payload.drop 16) with
  | none => rw [hseen] at h; cases h
  | some seen =>
    have husable : seen.Usable := by
      refine ndOptions_keeps (fun s kind option s' => visitAdvertised_usable) ?_ hseen
      intro info hinfo
      cases hinfo
    rw [hseen] at h
    dsimp only [Option.bind_eq_bind, Option.bind_some] at h
    cases hinfo : seen.prefixInfo with
    | none => rw [hinfo] at h; cases h
    | some info =>
      have ⟨hlocal, hprefix⟩ := husable info hinfo
      cases hmac : seen.mac with
      | none => rw [hinfo, hmac] at h; cases h
      | some mac =>
        rw [hinfo, hmac] at h
        obtain rfl := Option.some.inj h
        constructor
        · show isLinkLocal (info.1.patch 8 (own.val.drop 8)) = false
          unfold isLinkLocal at hlocal ⊢
          rw [byte_interface _ _ (by omega), byte_interface _ _ (by omega)]
          exact hlocal
        · intro hzero
          apply hprefix
          have hslice := slice_interface info.1 own
          rw [show info.1.patch 8 (own.val.drop 8) = unspecified from hzero] at hslice
          rw [← hslice]
          rfl

/-! ## §2. Runs. -/

/-- One call: the host it was made on, its tick, the frame it got and the frame it produced. -/
structure Record where
  host : Host
  tick : Nat
  received : Option Bytes
  emitted : Option Bytes

/-- The call accepted a neighbor message that conflicts with the tentative address `A`. -/
def Record.Conflicts (record : Record) (A : Address) : Prop :=
  ∃ frame packet, record.received = some frame ∧ record.host.accept frame = some packet
    ∧ Host.isNeighbor packet = true ∧ record.host.neighborTarget packet = some A
    ∧ record.host.conflicting packet A = true

/-- A neighbor solicitation that probes `A`. -/
def IsDadSolicitation (frame : Bytes) (A : Address) : Prop :=
  protocolOf frame = 58 ∧ messageType frame = 135 ∧ sourceOf frame = unspecified.val
    ∧ destinationOf frame = (solicitedNode A).val ∧ targetOf frame = A.val

/-- The frame has `A` as its source, or is a neighbor advertisement for `A`. -/
def Uses (frame : Bytes) (A : Address) : Prop :=
  sourceOf frame = A.val ∨ (messageType frame = 136 ∧ targetOf frame = A.val)

/-- The runs of a host: polls with a full-size buffer and a clock that does not
go back, and incoming frames that are handled at the tick of the latest poll. -/
inductive HostRun (mac : Mac) : List Record → Host → Nat → Prop where
  | start (tick now : Nat) (hnow : now ≤ lastTick) : HostRun mac [] (Host.new mac tick) now
  | poll {log : List Record} {host : Host} {now : Nat} (tick capacity : Nat)
      (run : HostRun mac log host now) (hclock : now ≤ tick) (htick : tick ≤ lastTick)
      (hfull : frameCapacity ≤ capacity) :
      HostRun mac (log ++ [⟨host, tick, none, (host.poll tick capacity).2⟩])
        (host.poll tick capacity).1 tick
  | receive {log : List Record} {host : Host} {now : Nat} (frame : Bytes) (capacity : Nat)
      (run : HostRun mac log host now) :
      HostRun mac (log ++ [⟨host, now, some frame, (host.receive frame now capacity).2⟩])
        (host.receive frame now capacity).1 now

/-- The log holds a probe of `A` at tick `t₀`, and no conflict with `A` since. -/
def SolicitedAt (log : List Record) (A : Address) (t₀ : Nat) : Prop :=
  ∃ before record after frame, log = before ++ record :: after ∧ record.tick = t₀
    ∧ record.emitted = some frame ∧ IsDadSolicitation frame A
    ∧ ∀ later ∈ after, ¬ later.Conflicts A

theorem SolicitedAt.append {t₀ : Nat} (h : SolicitedAt log A t₀) (hc : ¬ record.Conflicts A) :
    SolicitedAt (log ++ [record]) A t₀ := by
  obtain ⟨before, probe, after, frame, hlog, htick, hout, hdad, hafter⟩ := h
  refine ⟨before, probe, after ++ [record], frame, by simp [hlog], htick, hout, hdad, ?_⟩
  intro later hlater
  rw [List.mem_append, List.mem_singleton] at hlater
  cases hlater with
  | inl hmem => exact hafter later hmem
  | inr heq => exact heq ▸ hc

theorem SolicitedAt.last (log : List Record) (hout : record.emitted = some frame)
    (hdad : IsDadSolicitation frame A) :
    SolicitedAt (log ++ [record]) A record.tick :=
  ⟨log, record, [], frame, rfl, rfl, hout, hdad, fun _ h => nomatch h⟩

/-- The probe of `A` has been out for the whole waiting time. -/
def Probed (log : List Record) (A : Address) (tick : Nat) : Prop :=
  ∃ t₀, SolicitedAt log A t₀ ∧ saturatingAdd t₀ dadTicks ≤ tick

theorem Probed.mono (h : Probed log A now) (hle : now ≤ tick) : Probed log A tick := by
  obtain ⟨t₀, hprobe, hwait⟩ := h
  exact ⟨t₀, hprobe, Nat.le_trans hwait hle⟩

/-- The probe of `A` is due, or it is out and the deadline is the end of its waiting time. -/
def Probing (log : List Record) (host : Host) (A : Address) : Prop :=
  host.pending = true ∨ ∃ t₀, SolicitedAt log A t₀ ∧ host.deadline = saturatingAdd t₀ dadTicks

/-! ## §3. The invariant. -/

structure DadInv (log : List Record) (host : Host) (now : Nat) : Prop where
  isLocal : isLinkLocal host.linkLocal = true
  global : ∀ route, host.route = some route → route.Global
  localProbing : host.state = .linkLocalDad → Probing log host host.linkLocal
  localProbed : host.state ≠ .linkLocalDad → host.state ≠ .duplicate →
    Probed log host.linkLocal now
  globalProbing : host.state = .globalDad → ∀ route, host.route = some route →
    Probing log host route.address
  globalProbed : host.state = .ready → ∀ route, host.route = some route →
    Probed log route.address now
  stopped : (∃ record ∈ log, ∃ A, record.Conflicts A) → host.state = .duplicate

/-- The route of a ready host is neither past its valid nor past its router deadline. -/
def Live (host : Host) (now : Nat) : Prop :=
  host.state = .ready → ∀ route, host.route = some route →
    now < route.validUntil ∧ now < route.routerUntil

/-- What allows the host to send a frame: each address it uses has been probed,
and is the link-local address or that of a route that is still live. -/
def Backed (log : List Record) (host : Host) (tick : Nat) (frame : Bytes) : Prop :=
  ∀ A, A ≠ unspecified → Uses frame A → Probed log A tick ∧ (A = host.linkLocal ∨
    ∃ route, host.route = some route ∧ route.address = A
      ∧ tick < route.validUntil ∧ tick < route.routerUntil)

theorem DadInv.append {host : Host} (inv : DadInv log host now) (hc : ∀ A, ¬ record.Conflicts A) :
    DadInv (log ++ [record]) host now := by
  have hprobed : ∀ {A}, Probed log A now → Probed (log ++ [record]) A now :=
    fun ⟨t₀, h, hwait⟩ => ⟨t₀, h.append (hc _), hwait⟩
  have hprobing : ∀ {A}, Probing log host A → Probing (log ++ [record]) host A := by
    intro A h
    cases h with
    | inl hpending => exact .inl hpending
    | inr hout =>
      obtain ⟨t₀, h, hdeadline⟩ := hout
      exact .inr ⟨t₀, h.append (hc _), hdeadline⟩
  exact {
    isLocal := inv.isLocal
    global := inv.global
    localProbing := fun hs => hprobing (inv.localProbing hs)
    localProbed := fun hs hd => hprobed (inv.localProbed hs hd)
    globalProbing := fun hs route hroute => hprobing (inv.globalProbing hs route hroute)
    globalProbed := fun hs route hroute => hprobed (inv.globalProbed hs route hroute)
    stopped := by
      intro ⟨r, hr, A, hA⟩
      rw [List.mem_append, List.mem_singleton] at hr
      cases hr with
      | inl hmem => exact inv.stopped ⟨r, hmem, A, hA⟩
      | inr heq => exact absurd (heq ▸ hA) (hc A) }

theorem DadInv.new (mac : Mac) (tick now : Nat) : DadInv [] (.new mac tick) now where
  isLocal := isLinkLocal_linkLocal mac
  global := fun _ h => nomatch h
  localProbing := fun _ => .inl rfl
  localProbed := fun h => absurd rfl h
  globalProbing := fun h => nomatch h
  globalProbed := fun h => nomatch h
  stopped := fun ⟨_, h, _⟩ => nomatch h

/-! ## §4. Polling. -/

section Poll

variable {log : List Record} {host : Host} {now tick capacity : Nat}

theorem DadInv.mono (inv : DadInv log host now) (hle : now ≤ tick) : DadInv log host tick :=
  { inv with
    localProbed := fun hs hd => (inv.localProbed hs hd).mono hle
    globalProbed := fun hs route hroute => (inv.globalProbed hs route hroute).mono hle }

/-- A deadline that passes while a probe is out ends the waiting time of that probe. -/
theorem Probing.probed (h : Probing log host A)
    (hpast : host.pending = false ∧ host.deadline ≤ tick) : Probed log A tick := by
  cases h with
  | inl hpending => exact absurd (hpending.symm.trans hpast.1) (by decide)
  | inr hout =>
    obtain ⟨t₀, hprobe, hdeadline⟩ := hout
    exact ⟨t₀, hprobe, hdeadline ▸ hpast.2⟩

/-- A host with a probed link-local address that neither probes nor is ready. -/
theorem DadInv.idle {host' : Host} (inv : DadInv log host tick) (hstate : host.state ≠ .duplicate)
    (hprobed : Probed log host.linkLocal tick) (hlocal : host'.linkLocal = host.linkLocal)
    (hroute : host'.route = host.route ∨ host'.route = none)
    (hidle : host'.state = .routerSolicitation ∨ host'.state = .unavailable) :
    DadInv log host' tick := by
  have hne : ∀ s, s ≠ .routerSolicitation → s ≠ .unavailable → host'.state ≠ s := by
    intro s hs hs' heq
    cases hidle with
    | inl h => exact hs (heq.symm.trans h)
    | inr h => exact hs' (heq.symm.trans h)
  exact {
    isLocal := hlocal ▸ inv.isLocal
    global := by
      intro route h
      cases hroute with
      | inl hsame => exact inv.global route (hsame.symm.trans h)
      | inr hnone => exact nomatch hnone.symm.trans h
    localProbing := fun h => absurd h (hne _ (by decide) (by decide))
    localProbed := fun _ _ => hlocal ▸ hprobed
    globalProbing := fun h => absurd h (hne _ (by decide) (by decide))
    globalProbed := fun h => absurd h (hne _ (by decide) (by decide))
    stopped := fun h => absurd (inv.stopped h) hstate }

/-- The timers keep the link-local address and may drop the route, but set none. -/
theorem timers_keep (host : Host) (tick : Nat) :
    ((host.passDeadline tick).dropExpiredRoute tick).linkLocal = host.linkLocal
      ∧ ∀ route, ((host.passDeadline tick).dropExpiredRoute tick).route = some route →
        host.route = some route := by
  have hpass : (host.passDeadline tick).linkLocal = host.linkLocal
      ∧ (host.passDeadline tick).route = host.route := by
    unfold Host.passDeadline
    repeat' split
    all_goals exact ⟨rfl, rfl⟩
  rw [← hpass.1, ← hpass.2]
  unfold Host.dropExpiredRoute
  split
  · exact ⟨rfl, fun _ h => h⟩
  split
  · exact ⟨rfl, fun _ h => nomatch h⟩
  · exact ⟨rfl, fun _ h => h⟩

/-- Past a deadline the state says which probe has been answered by nobody. -/
theorem DadInv.passDeadline (inv : DadInv log host tick) :
    DadInv log (host.passDeadline tick) tick := by
  unfold Host.passDeadline
  split
  · rename_i hpast
    cases hstate : host.state with
    | linkLocalDad =>
      exact inv.idle (by rw [hstate]; decide) ((inv.localProbing hstate).probed hpast) rfl
        (.inl rfl) (.inl rfl)
    | globalDad =>
      have hstopped := inv.stopped
      exact { inv with
        localProbing := fun h => nomatch h
        localProbed := fun _ _ => inv.localProbed (by rw [hstate]; decide) (by rw [hstate]; decide)
        globalProbing := fun h => nomatch h
        globalProbed := fun _ route hroute => (inv.globalProbing hstate route hroute).probed hpast
        stopped := fun h => absurd ((hstopped h).symm.trans hstate) (by decide) }
    | routerSolicitation =>
      have hlocal := inv.localProbed (by rw [hstate]; decide) (by rw [hstate]; decide)
      dsimp only
      split
      · exact inv.idle (by rw [hstate]; decide) hlocal rfl (.inl rfl) (.inr rfl)
      · exact inv.idle (by rw [hstate]; decide) hlocal rfl (.inl rfl) (.inl rfl)
    | ready => exact inv
    | duplicate => exact inv
    | unavailable => exact inv
  · exact inv

theorem DadInv.dropExpiredRoute (inv : DadInv log host tick) :
    DadInv log (host.dropExpiredRoute tick) tick ∧ Live (host.dropExpiredRoute tick) tick := by
  unfold Host.dropExpiredRoute
  split
  · rename_i hnone
    exact ⟨inv, fun _ route hroute => nomatch hnone.symm.trans hroute⟩
  · rename_i route hroute
    split
    · rename_i hexpired
      have hlocal := inv.localProbed (by rw [hexpired.1]; decide) (by rw [hexpired.1]; decide)
      exact ⟨inv.idle (by rw [hexpired.1]; decide) hlocal rfl (.inr rfl) (.inl rfl),
        fun h => nomatch h⟩
    · rename_i hvalid
      refine ⟨inv, ?_⟩
      intro hready route' hroute'
      obtain rfl := Option.some.inj (hroute.symm.trans hroute')
      have : ¬ (route.validUntil ≤ tick ∨ route.routerUntil ≤ tick) := fun h => hvalid ⟨hready, h⟩
      omega

/-- A frame that is no advertisement uses its source only. -/
theorem Backed.of_write {sourceMac destinationMac : Mac} {destination : Address}
    {hopLimit kind : UInt8} {message : Bytes}
    (hframe : writeIcmp capacity sourceMac destinationMac A destination hopLimit (kind :: message)
      = some frame) (hkind : kind ≠ 136) (hprobed : A ≠ unspecified → Probed log A tick)
    (hown : A ≠ unspecified → A = host.linkLocal ∨ ∃ route, host.route = some route
      ∧ route.address = A ∧ tick < route.validUntil ∧ tick < route.routerUntil) :
    Backed log host tick frame := by
  intro B hB huses
  cases huses with
  | inl hsource =>
    have hAB : A = B := FixedBytes.ext ((sourceOf_writeIcmp hframe).symm.trans hsource)
    subst hAB
    exact ⟨hprobed hB, hown hB⟩
  | inr hadvertised => exact absurd ((messageType_writeIcmp hframe).symm.trans hadvertised.1) hkind

/-- The probe: it is written, it is what it should be, and it uses no address. -/
theorem solicitTarget_frame (host : Host) (tick : Nat) (hfull : frameCapacity ≤ capacity)
    (target : Address) : ∃ frame, (host.solicitTarget tick capacity target).2 = some frame
      ∧ IsDadSolicitation frame target := by
  have hlen : ([135, 0, 0, 0, 0, 0, 0, 0] ++ target.val).length = 24 := by simp
  have hwritten : ∃ frame, (host.solicitTarget tick capacity target).2 = some frame :=
    writeIcmp_isSome hfull (by rw [hlen]; omega) (by rw [hlen]; omega) (by decide)
  obtain ⟨frame, hframe⟩ := hwritten
  refine ⟨frame, hframe, protocolOf_writeIcmp hframe, messageType_writeIcmp hframe,
    sourceOf_writeIcmp hframe, destinationOf_writeIcmp hframe, ?_⟩
  rw [targetOf_writeIcmp hframe]
  exact range_of_append (a := [135, 0, 0, 0, 0, 0, 0, 0]) (c := []) (by simp) rfl (by simp)

/-- The host with its probe of `A` just written at the end of the log. -/
theorem probing_solicited (htick : record.tick = tick) (hout : record.emitted = some frame)
    (hdad : IsDadSolicitation frame A) (hdeadline : host.deadline = saturatingAdd tick dadTicks) : Probing (log ++ [record]) host A :=
  .inr ⟨tick, htick ▸ SolicitedAt.last log hout hdad, hdeadline⟩

/-- The four things a poll does after its timers: probe one of the two addresses,
solicit a router, or send the echo request if it is due. -/
theorem emit_cases (host : Host) (tick capacity : Nat) :
    (host.state = .linkLocalDad ∧ host.emit tick capacity
      = { host with pending := false }.solicitTarget tick capacity host.linkLocal)
    ∨ (∃ route, host.state = .globalDad ∧ host.route = some route ∧ host.emit tick capacity
      = { host with pending := false }.solicitTarget tick capacity route.address)
    ∨ (host.state = .routerSolicitation ∧ host.emit tick capacity
      = { host with pending := false }.solicitRouter tick capacity)
    ∨ (∃ p, (p = host.pending ∨ host.tentative = none) ∧ host.emit tick capacity
      = { host with pending := p }.sendEcho capacity) := by
  unfold Host.emit Host.tentative
  by_cases hpending : host.pending = true
  · rw [if_pos hpending]
    dsimp only
    split
    · rename_i hstate
      exact .inl ⟨hstate, rfl⟩
    · rename_i hstate
      split
      · rename_i hroute
        -- without a route there is nothing to probe, and no echo request either
        refine .inr (.inr (.inr ⟨false, .inr (by rw [hstate, hroute]; rfl), ?_⟩))
        unfold Host.sendEcho
        rw [if_neg (fun h => absurd (hstate.symm.trans h.1) (by decide))]
      · rename_i route hroute
        exact .inr (.inl ⟨route, hstate, hroute, rfl⟩)
    · rename_i hstate
      exact .inr (.inr (.inl ⟨hstate, rfl⟩))
    · rename_i hlocal hglobal _
      refine .inr (.inr (.inr ⟨false, .inr ?_, rfl⟩))
      split
      · exact absurd ‹_› hlocal
      · exact absurd ‹_› hglobal
      · rfl
  · rw [if_neg hpending]
    exact .inr (.inr (.inr ⟨host.pending, .inl rfl, rfl⟩))

section

variable (inv : DadInv log host tick)

include inv

/-- The pending flag matters only while an address is tentative. -/
theorem DadInv.setPending {p : Bool} (hp : p = host.pending ∨ host.tentative = none) :
    DadInv log { host with pending := p } tick := by
  cases hp with
  | inl hsame => exact hsame ▸ inv
  | inr hnone =>
    unfold Host.tentative at hnone
    exact { inv with
      localProbing := by
        intro h
        rw [show host.state = .linkLocalDad from h] at hnone
        cases hnone
      globalProbing := by
        intro h route hroute
        rw [show host.state = .globalDad from h, show host.route = some route from hroute] at hnone
        cases hnone }

theorem DadInv.sendEcho (live : Live host tick) :
    DadInv log (host.sendEcho capacity).1 tick ∧ Live (host.sendEcho capacity).1 tick := by
  unfold Host.sendEcho
  split
  · split
    · exact ⟨inv, live⟩
    exact ⟨{ inv with
      localProbing := inv.localProbing
      globalProbing := inv.globalProbing }, live⟩
  · exact ⟨inv, live⟩

/-- What a call of `emit` does to the invariant, with its record at the end of the log. -/
theorem DadInv.emit (live : Live host tick) (hfull : frameCapacity ≤ capacity)
    (hpoll : record.received = none) (htick : record.tick = tick)
    (hout : record.emitted = (host.emit tick capacity).2) :
    DadInv (log ++ [record]) (host.emit tick capacity).1 tick
      ∧ Live (host.emit tick capacity).1 tick := by
  have hquiet : ∀ A, ¬ record.Conflicts A := by
    intro A ⟨_, _, hreceived, _⟩
    exact nomatch hpoll.symm.trans hreceived
  have inv' := inv.append hquiet
  rcases emit_cases host tick capacity with
    ⟨hstate, heq⟩ | ⟨route, hstate, hroute, heq⟩ | ⟨hstate, heq⟩ | ⟨p, hp, heq⟩
  · rw [heq] at hout ⊢
    obtain ⟨frame, hframe, hdad⟩ := solicitTarget_frame { host with pending := false } tick hfull
      host.linkLocal
    refine ⟨?_, fun h => absurd (hstate.symm.trans h) (by decide)⟩
    exact { inv' with
      localProbing := fun _ => probing_solicited htick (hout.trans hframe) hdad rfl
      globalProbing := fun h => absurd (hstate.symm.trans h) (by decide) }
  · rw [heq] at hout ⊢
    obtain ⟨frame, hframe, hdad⟩ := solicitTarget_frame { host with pending := false } tick hfull
      route.address
    refine ⟨?_, fun h => absurd (hstate.symm.trans h) (by decide)⟩
    exact { inv' with
      localProbing := fun h => absurd (hstate.symm.trans h) (by decide)
      globalProbing := by
        intro _ route' h
        obtain rfl := Option.some.inj (hroute.symm.trans h)
        exact probing_solicited htick (hout.trans hframe) hdad rfl }
  · rw [heq]
    have hlocal := inv'.localProbed (by rw [hstate]; decide) (by rw [hstate]; decide)
    exact ⟨inv'.idle (by rw [hstate]; decide) hlocal rfl (.inl rfl) (.inl hstate),
      fun h => absurd (hstate.symm.trans h) (by decide)⟩
  · rw [heq]
    exact (inv'.setPending hp).sendEcho live

/-- Every frame that `emit` writes is backed. -/
theorem DadInv.emit_backed (live : Live host tick) (hout : (host.emit tick capacity).2 = some frame)
    : Backed log host tick frame := by
  rcases emit_cases host tick capacity with
    ⟨_, heq⟩ | ⟨route, _, _, heq⟩ | ⟨hstate, heq⟩ | ⟨p, _, heq⟩
  · -- a probe has no source address
    rw [heq] at hout
    exact .of_write hout (by decide) (absurd rfl) (absurd rfl)
  · rw [heq] at hout
    exact .of_write hout (by decide) (absurd rfl) (absurd rfl)
  · rw [heq] at hout
    have hlocal := inv.localProbed (by rw [hstate]; decide) (by rw [hstate]; decide)
    exact .of_write hout (by decide) (fun _ => hlocal) (fun _ => .inl rfl)
  · rw [heq] at hout
    unfold Host.sendEcho at hout
    split at hout
    · rename_i hready
      split at hout
      · cases hout
      rename_i route hroute
      exact .of_write hout (by decide) (fun _ => inv.globalProbed hready.1 route hroute)
        (fun _ => .inr ⟨route, hroute, rfl, live hready.1 route hroute⟩)
    · cases hout

end

/-- A host that has given up sends nothing, and only its pending flag may change. -/
theorem poll_stopped (h : host.state = .duplicate ∨ host.state = .unavailable) :
    ∃ p, host.poll tick capacity = ({ host with pending := p }, none) := by
  have hne : ∀ state, state ≠ .duplicate → state ≠ .unavailable → host.state ≠ state := by
    intro state hd hu heq
    rcases h with h | h
    · exact hd (heq.symm.trans h)
    · exact hu (heq.symm.trans h)
  have hpass : host.passDeadline tick = host := by
    unfold Host.passDeadline
    rcases h with h | h <;> rw [h] <;> exact ite_self _
  have hdrop : host.dropExpiredRoute tick = host := by
    unfold Host.dropExpiredRoute
    split
    · rfl
    · exact if_neg (fun hready => hne _ (by decide) (by decide) hready.1)
  unfold Host.poll
  split
  · exact ⟨host.pending, rfl⟩
  rw [hpass, hdrop]
  rcases emit_cases host tick capacity with
    ⟨hstate, _⟩ | ⟨_, hstate, _, _⟩ | ⟨hstate, _⟩ | ⟨p, _, heq⟩
  · exact absurd hstate (hne _ (by decide) (by decide))
  · exact absurd hstate (hne _ (by decide) (by decide))
  · exact absurd hstate (hne _ (by decide) (by decide))
  refine ⟨p, heq.trans ?_⟩
  unfold Host.sendEcho
  exact if_neg (fun hready => hne _ (by decide) (by decide) hready.1)

end Poll

/-! ## §5. Receiving. -/

section Receive

variable {log : List Record} {host : Host} {now capacity : Nat} {packet : Packet}

/-- A frame on which `accept`, the neighbor checks and the conflict test agree. -/
theorem receive_conflict (hhost : record.host = host) (hframe : record.received = some frame)
    (h : record.Conflicts A) :
    host.receive frame now capacity = ({ host with state := .duplicate, route := none }, none) := by
  obtain ⟨frame', packet, hreceived, haccept, hneighbor, htarget, hconflict⟩ := h
  obtain rfl := Option.some.inj (hframe.symm.trans hreceived)
  rw [hhost] at haccept htarget hconflict
  -- a host that solicits a router has no tentative address
  have hroute : host.advertisedRoute packet now = none := by
    unfold Host.advertisedRoute
    rw [if_neg]
    intro hstate
    unfold Host.conflicting Host.tentative at hconflict
    rw [hstate] at hconflict
    simp at hconflict
  unfold Host.receive
  rw [haccept]
  dsimp only
  rw [hroute]
  dsimp only
  unfold Host.receiveControl
  rw [if_pos hneighbor, htarget]
  dsimp only
  unfold Host.receiveNeighbor
  rw [if_pos hconflict]

/-- The advertisement uses its target only. -/
theorem advertise_uses {target : Address} (hframe : host.advertise packet target capacity = some frame)
    (huses : Uses frame A) : target = A := by
  unfold Host.advertise at hframe
  apply FixedBytes.ext
  cases huses with
  | inl hsource => exact (sourceOf_writeIcmp hframe).symm.trans hsource
  | inr hadvertised =>
    rw [← hadvertised.2, targetOf_writeIcmp hframe]
    exact (range_of_append (a := [136, 0, 0, 0, _, 0, 0, 0]) (c := [2, 1] ++ host.mac.val)
      (List.append_assoc _ _ _) rfl (by simp)).symm

theorem noteReply_eq (host : Host) (packet : Packet) (route : Route) :
    ∃ noted, host.noteReply packet route = { host with echoReply := noted } := by
  unfold Host.noteReply
  dsimp only
  split
  · exact ⟨true, rfl⟩
  · exact ⟨host.echoReply, rfl⟩

/-- The echo part changes at most the note of the router's reply, and answers
from an address of a ready host. -/
theorem DadInv.receiveEcho (inv : DadInv log host now) (live : Live host now) :
    DadInv log (host.receiveEcho packet capacity).1 now
      ∧ Live (host.receiveEcho packet capacity).1 now
      ∧ ∀ frame, (host.receiveEcho packet capacity).2 = some frame → Backed log host now frame := by
  unfold Host.receiveEcho
  dsimp only
  split
  · rename_i hready
    split
    · exact ⟨inv, live, fun _ h => nomatch h⟩
    rename_i route hroute
    obtain ⟨noted, hnoted⟩ := noteReply_eq host packet route
    rw [hnoted]
    have inv' : DadInv log { host with echoReply := noted } now :=
      { inv with
        localProbing := inv.localProbing
        globalProbing := inv.globalProbing }
    split
    · rename_i hrequest
      refine ⟨inv', live, ?_⟩
      intro frame hframe
      -- the request came to the global or to the link-local address
      apply Backed.of_write hframe (by decide)
      · intro _
        cases hrequest.2.2.2.2.2.2 with
        | inl hglobal => exact hglobal ▸ inv.globalProbed hready route hroute
        | inr hlocal =>
          exact hlocal ▸ inv.localProbed (by rw [hready]; decide) (by rw [hready]; decide)
      · intro _
        cases hrequest.2.2.2.2.2.2 with
        | inl hglobal => exact .inr ⟨route, hroute, hglobal.symm, live hready route hroute⟩
        | inr hlocal => exact .inl hlocal
    · exact ⟨inv', live, fun _ h => nomatch h⟩
  · exact ⟨inv, live, fun _ h => nomatch h⟩

/-- An address that is owned has been probed, and its route is live. -/
theorem DadInv.owned (inv : DadInv log host now) (live : Live host now) {target : Address}
    (h : host.ownsTarget target = true) : Probed log target now ∧ (target = host.linkLocal ∨
      ∃ route, host.route = some route ∧ route.address = target
        ∧ now < route.validUntil ∧ now < route.routerUntil) := by
  unfold Host.ownsTarget at h
  simp only [ne_eq, decide_not, Bool.and_eq_true, Bool.not_eq_true', decide_eq_false_iff_not,
    Bool.or_eq_true, decide_eq_true_eq] at h
  cases h.2 with
  | inl hlocal => exact ⟨hlocal ▸ inv.localProbed h.1.1 h.1.2, .inl hlocal⟩
  | inr hglobal =>
    cases hroute : host.route with
    | none => rw [hroute] at hglobal; cases hglobal.2
    | some route =>
      have htarget : route.address = target := by simpa [hroute] using hglobal.2
      exact ⟨htarget ▸ inv.globalProbed hglobal.1 route hroute,
        .inr ⟨route, rfl, htarget, live hglobal.1 route hroute⟩⟩

/-- What an incoming frame does when it is no accepted conflict. -/
theorem DadInv.receive (frame : Bytes) (capacity : Nat) (inv : DadInv log host now)
    (live : Live host now)
    (hquiet : ∀ packet target, host.accept frame = some packet → Host.isNeighbor packet = true →
      host.neighborTarget packet = some target → host.conflicting packet target = false) :
    DadInv log (host.receive frame now capacity).1 now
      ∧ Live (host.receive frame now capacity).1 now
      ∧ ∀ out, (host.receive frame now capacity).2 = some out → Backed log host now out := by
  unfold Host.receive
  split
  · exact ⟨inv, live, fun _ h => nomatch h⟩
  rename_i packet haccept
  split
  · rename_i route hroute
    unfold Host.advertisedRoute at hroute
    split at hroute
    · rename_i hstate
      -- the probe of the new global address is due
      refine ⟨?_, (fun h => nomatch h), fun _ h => nomatch h⟩
      have hlocal := inv.localProbed (by rw [hstate]; decide) (by rw [hstate]; decide)
      have hstopped := inv.stopped
      exact { inv with
        global := by
          intro route' h
          obtain rfl := Option.some.inj h
          exact routerAdvertisement_global hroute
        localProbing := fun h => nomatch h
        localProbed := fun _ _ => hlocal
        globalProbing := fun _ _ _ => .inl rfl
        globalProbed := fun h => nomatch h
        stopped := fun h => absurd ((hstopped h).symm.trans hstate) (by decide) }
    · cases hroute
  · unfold Host.receiveControl
    split
    · rename_i hneighbor
      split
      · exact ⟨inv, live, fun _ h => nomatch h⟩
      rename_i target htarget
      unfold Host.receiveNeighbor
      rw [hquiet packet target haccept hneighbor htarget, if_neg (by decide)]
      split
      · rename_i hanswer
        refine ⟨inv, live, ?_⟩
        intro out hout B _ huses
        obtain rfl := advertise_uses hout huses
        exact inv.owned live hanswer.2.1
      · exact inv.receiveEcho live
    · exact inv.receiveEcho live

/-- The same holds of a frame that comes in. -/
theorem receive_duplicate (h : host.state = .duplicate) :
    (host.receive frame now capacity).2 = none := by
  have hecho : ∀ packet, (host.receiveEcho packet capacity).2 = none := by
    intro packet
    unfold Host.receiveEcho
    dsimp only
    rw [if_neg (fun hready => absurd (h.symm.trans hready) (by decide))]
  unfold Host.receive
  split
  · rfl
  split
  · rfl
  unfold Host.receiveControl
  split
  · split
    · rfl
    unfold Host.receiveNeighbor
    split
    · rfl
    split
    · rename_i hanswer
      have howns := hanswer.2.1
      unfold Host.ownsTarget at howns
      rw [h] at howns
      simp at howns
    · exact hecho _
  · exact hecho _

end Receive

/-! ## §6. Whole runs. -/

/-- The guarantees of a call that comes after the calls of `log`. -/
structure DadSafe (log : List Record) (record : Record) : Prop where
  /-- Every address in use was probed at least a second ago, with no conflict since.  (At the
  last tick of the clock, where deadlines saturate, the second may not be over.) -/
  probed : ∀ frame A, record.emitted = some frame → A ≠ unspecified → Uses frame A →
    ∃ t₀, SolicitedAt log A t₀ ∧ (t₀ + 100 ≤ record.tick ∨ record.tick = lastTick)
  /-- The addresses in use are the link-local address and that of the route. -/
  own : ∀ frame A, record.emitted = some frame → A ≠ unspecified → Uses frame A →
    A = record.host.linkLocal ∨ ∃ route, record.host.route = some route ∧ route.address = A
  /-- The global address is not in use at or after the deadlines of its route. -/
  live : ∀ frame route, record.emitted = some frame → record.host.route = some route →
    Uses frame route.address → record.tick < route.validUntil ∧ record.tick < route.routerUntil
  /-- After a conflict nothing is sent. -/
  silent : (∃ earlier ∈ log, ∃ A, earlier.Conflicts A) → record.emitted = none

/-- A call is safe if what it sends is backed for the host after its timers. -/
theorem DadSafe.of_backed {host : Host} (inv : DadInv log record.host now)
    (htick : record.tick ≤ lastTick) (hlocal : host.linkLocal = record.host.linkLocal)
    (hroute : ∀ route, host.route = some route → record.host.route = some route)
    (hbacked : ∀ frame, record.emitted = some frame → Backed log host record.tick frame)
    (hsilent : record.host.state = .duplicate → record.emitted = none) : DadSafe log record where
  probed := by
    intro frame A hframe hA huses
    obtain ⟨t₀, hprobe, hwait⟩ := (hbacked frame hframe A hA huses).1
    exact ⟨t₀, hprobe, le_of_saturatingAdd_le hwait htick⟩
  own := by
    intro frame A hframe hA huses
    cases (hbacked frame hframe A hA huses).2 with
    | inl h => exact .inl (h.trans hlocal)
    | inr h =>
      obtain ⟨route, hr, haddress, _⟩ := h
      exact .inr ⟨route, hroute route hr, haddress⟩
  live := by
    intro frame route hframe hr huses
    have hglobal := inv.global route hr
    cases (hbacked frame hframe route.address hglobal.2 huses).2 with
    | inl h =>
      -- the address of a route is not link-local
      have := inv.isLocal
      rw [← hlocal, ← h, hglobal.1] at this
      exact absurd this (by decide)
    | inr h =>
      obtain ⟨route', hr', _, hlive⟩ := h
      obtain rfl := Option.some.inj (hr.symm.trans (hroute route' hr'))
      exact hlive
  silent := fun h => hsilent (inv.stopped h)

section Runs

variable {mac : Mac} {log : List Record} {host : Host} {now : Nat}

theorem DadInv.poll {capacity : Nat} (inv : DadInv log host now) (hclock : now ≤ tick)
    (htick : tick ≤ lastTick) (hfull : frameCapacity ≤ capacity) :
    let record : Record := ⟨host, tick, none, (host.poll tick capacity).2⟩
    (DadInv (log ++ [record]) (host.poll tick capacity).1 tick
      ∧ Live (host.poll tick capacity).1 tick) ∧ DadSafe log record := by
  intro record
  have hpoll : host.poll tick capacity
      = ((host.passDeadline tick).dropExpiredRoute tick).emit tick capacity := by
    unfold Host.poll
    rw [if_neg (by omega)]
  have ⟨inv', live⟩ := ((inv.mono hclock).passDeadline).dropExpiredRoute
  have ⟨hlocal, hroute⟩ := timers_keep host tick
  have hout : record.emitted
      = (((host.passDeadline tick).dropExpiredRoute tick).emit tick capacity).2 :=
    congrArg Prod.snd hpoll
  constructor
  · rw [hpoll]
    exact inv'.emit live hfull rfl rfl hout
  · refine .of_backed (inv.mono hclock) htick hlocal hroute ?_ ?_
    · intro frame hframe
      exact inv'.emit_backed live (hout.symm.trans hframe)
    · intro hstate
      obtain ⟨p, hstopped⟩ := poll_stopped (.inl hstate)
      exact congrArg Prod.snd hstopped

theorem DadInv.receiveFrame (inv : DadInv log host now) (live : Live host now)
    (hnow : now ≤ lastTick) (frame : Bytes) (capacity : Nat) :
    let record : Record := ⟨host, now, some frame, (host.receive frame now capacity).2⟩
    (DadInv (log ++ [record]) (host.receive frame now capacity).1 now
      ∧ Live (host.receive frame now capacity).1 now) ∧ DadSafe log record := by
  intro record
  by_cases hconflict : ∃ A, record.Conflicts A
  · obtain ⟨A, hA⟩ := hconflict
    have heq : host.receive frame now capacity
        = ({ host with state := .duplicate, route := none }, none) := receive_conflict rfl rfl hA
    constructor
    · rw [heq]
      -- a host that stopped has nothing left to keep but its address
      refine ⟨?_, fun h => nomatch h⟩
      exact {
        isLocal := inv.isLocal
        global := fun _ h => nomatch h
        localProbing := fun h => nomatch h
        localProbed := fun _ h => absurd rfl h
        globalProbing := fun h => nomatch h
        globalProbed := fun h => nomatch h
        stopped := fun _ => rfl }
    · have hnone : record.emitted = none := congrArg Prod.snd heq
      exact .of_backed inv hnow rfl (fun _ h => h)
        (fun _ h => nomatch hnone.symm.trans h) (fun _ => hnone)
  · have hquiet : ∀ A, ¬ record.Conflicts A := fun A hA => hconflict ⟨A, hA⟩
    have hsteps := DadInv.receive frame capacity inv live (by
      intro packet target haccept hneighbor htarget
      apply Bool.eq_false_iff.mpr
      intro htrue
      exact hquiet target ⟨frame, packet, rfl, haccept, hneighbor, htarget, htrue⟩)
    exact ⟨⟨hsteps.1.append hquiet, hsteps.2.1⟩,
      DadSafe.of_backed inv hnow rfl (fun _ h => h) hsteps.2.2 receive_duplicate⟩

theorem HostRun.inv (run : HostRun mac log host now) :
    DadInv log host now ∧ Live host now ∧ now ≤ lastTick := by
  induction run with
  | start tick now hnow => exact ⟨.new mac tick now, (fun h => nomatch h), hnow⟩
  | poll tick capacity _ hclock htick hfull ih =>
    have hstep := (ih.1.poll hclock htick hfull).1
    exact ⟨hstep.1, hstep.2, htick⟩
  | receive frame capacity _ ih =>
    have hstep := (ih.1.receiveFrame ih.2.1 ih.2.2 frame capacity).1
    exact ⟨hstep.1, hstep.2, ih.2.2⟩

/-- **Duplicate address detection is safe**: in every run each call is safe with
respect to the calls before it. -/
theorem host_dad_safety (run : HostRun mac log host now) : AllPrior DadSafe [] log := by
  induction run with
  | start tick now hnow => trivial
  | poll tick capacity run hclock htick hfull ih =>
    rw [allPrior_append, allPrior_singleton]
    exact ⟨ih, (run.inv.1.poll hclock htick hfull).2⟩
  | receive frame capacity run ih =>
    have inv := run.inv
    rw [allPrior_append, allPrior_singleton]
    exact ⟨ih, (inv.1.receiveFrame inv.2.1 inv.2.2 frame capacity).2⟩

end Runs

/-- What a computed output says of the frame. -/
theorem exists_of_any {out : Option Bytes} {P : Bytes → Bool} (h : out.any P = true) :
    ∃ frame, out = some frame ∧ P frame = true := by
  cases out with
  | none => cases h
  | some frame => exact ⟨frame, rfl, h⟩

/-- A host probes its link-local address at tick 0 and solicits a router from it at tick 100. -/
theorem host_dad_safety_solicitation : ∃ log host, HostRun .zero log host 100
    ∧ (∃ record ∈ log, ∃ frame, record.emitted = some frame
      ∧ sourceOf frame = (linkLocal .zero).val) ∧ AllPrior DadSafe [] log := by
  have start : HostRun .zero [] (Host.new .zero 0) 0 := .start 0 0 (by decide)
  have run := (start.poll 0 1518 (by decide) (by decide) (by decide)).poll 100 1518 (by decide)
    (by decide) (by decide)
  refine ⟨_, _, run, ⟨_, List.mem_append_right _ (List.mem_singleton.mpr rfl), ?_⟩,
    host_dad_safety run⟩
  have hany : ((((Host.new .zero 0).poll 0 1518).1.poll 100 1518).2.any
      (fun frame => sourceOf frame = (linkLocal .zero).val)) = true := by decide +kernel
  obtain ⟨frame, hframe, hsource⟩ := exists_of_any hany
  exact ⟨frame, hframe, of_decide_eq_true hsource⟩

/-! ## §7. Two limits. -/

/-- A router's advertisement of a prefix that is valid for one second. -/
def shortAdvertisement : Bytes :=
  let routerMac : Mac := ⟨[0x52, 0x55, 0, 0, 0, 2], rfl⟩
  let router : Address := ⟨[0xfe, 0x80, 0, 0, 0, 0, 0, 0, 0, 0, 0, 0, 0, 0, 0, 2], rfl⟩
  (writeIcmp frameCapacity routerMac (multicastMac allNodes) router allNodes 255
    ([134, 0, 0, 0, 64, 0, 7, 8] ++ List.replicate 8 0 ++ [1, 1] ++ routerMac.val
      ++ [3, 4, 64, 0xc0, 0, 0, 0, 1, 0, 0, 0, 1, 0, 0, 0, 0, 0xfd, 0x42, 0x12, 0x34]
      ++ List.replicate 12 0)).getD []

/-- At the end of the clock the waiting time is cut short: a probe at tick `u64::MAX - 5` is
over at tick `u64::MAX`.  And a probe itself knows no route deadline: one whose prefix was valid
until tick 200 is sent at tick 300, with the global address as its target. -/
theorem host_dad_limits :
    (∃ log record host frame, HostRun .zero (log ++ [record]) host lastTick
      ∧ record.emitted = some frame ∧ sourceOf frame = (linkLocal .zero).val
      ∧ ∀ t₀, SolicitedAt log (linkLocal .zero) t₀ → record.tick < t₀ + 100)
    ∧ ∃ log record host frame route, HostRun .zero (log ++ [record]) host 300
      ∧ record.host.route = some route ∧ record.emitted = some frame
      ∧ messageType frame = 135 ∧ targetOf frame = route.address.val
      ∧ route.validUntil ≤ record.tick := by
  have start : HostRun .zero [] (Host.new .zero 0) 0 := .start 0 0 (by decide)
  constructor
  · have run := (start.poll (lastTick - 5) 1518 (by decide) (by decide) (by decide)).poll lastTick
      1518 (by decide) (by decide) (by decide)
    have hany : ((((Host.new .zero 0).poll (lastTick - 5) 1518).1.poll lastTick 1518).2.any
        (fun frame => sourceOf frame = (linkLocal .zero).val)) = true := by decide +kernel
    obtain ⟨frame, hframe, hsource⟩ := exists_of_any hany
    refine ⟨_, _, _, frame, run, hframe, of_decide_eq_true hsource, ?_⟩
    -- the only probe in the log is the one five ticks ago
    intro t₀ ⟨before, probe, after, _, hlog, htick, _⟩
    have hmem : probe ∈ before ++ probe :: after := List.mem_append_right _ List.mem_cons_self
    rw [← hlog, List.nil_append, List.mem_singleton] at hmem
    rw [← htick, hmem]
    decide
  · let waiting := (((Host.new .zero 0).poll 0 1518).1.poll 100 1518).1
    let probing := (waiting.receive shortAdvertisement 100 1518).1
    have run := ((start.poll 0 1518 (by decide) (by decide) (by decide)).poll 100 1518 (by decide)
      (by decide) (by decide)).receive shortAdvertisement 1518
    have run' := run.poll 300 1518 (by decide) (by decide) (by decide)
    have hany : (probing.poll 300 1518).2.any (fun frame => messageType frame = 135
        ∧ probing.route.any (fun route => targetOf frame = route.address.val
          ∧ route.validUntil ≤ 300)) = true := by decide +kernel
    obtain ⟨frame, hframe, hprobe⟩ := exists_of_any hany
    have ⟨htype, hroute⟩ := of_decide_eq_true hprobe
    cases hr : probing.route with
    | none => rw [hr] at hroute; cases hroute
    | some route =>
      rw [hr] at hroute
      have ⟨htarget, hexpired⟩ := of_decide_eq_true hroute
      exact ⟨_, _, _, frame, route, run', hr, hframe, htype, htarget, hexpired⟩

end GenOS.Ipv6
