/-
  GenOS.Process.Holdings — endpoint capabilities and the registry.

  A capability as `allocate` makes it (`EndpointOk`) has a handle from which its
  slot is read back, so it is found by that handle, and a table of such
  capabilities that are all registered passes the kernel's own test
  `registry_is_consistent`.
-/
import GenOS.Process.ManagedProcess
import GenOS.Lib.Packed

namespace GenOS.Process

open GenOS.Lib GenOS.Vfs GenOS.Socket Packed

def endpointEntry (c : EndpointCapability) : HandleEntry := ⟨c.handle, c.role.kind, handleRightUse⟩

namespace Holdings

/-- An endpoint capability as `allocate` makes it. -/
structure EndpointOk (pid : BitVec 8) (index : Fin endpointHandleCapacity)
    (c : EndpointCapability) : Prop where
  slot : c.slot = index
  ownerPid : c.ownerPid = pid
  handle : c.handle = endpointHandle c.ownerPid c.generation index
  generation : c.generation ≤ endpointGenerationMax

end Holdings

variable (ownerPid : BitVec 8)

/-- The parts of an endpoint handle between its tag and its slot. -/
def endpointMiddle (generation : BitVec 64) : BitVec 64 :=
  (ownerPid.setWidth 64 <<< 40) ||| (generation <<< 8)

theorem middle_endpointMiddle {generation : BitVec 64} (hgen : generation ≤ endpointGenerationMax) :
    Middle (endpointMiddle ownerPid generation) := by
  have hpid : (ownerPid.setWidth 64).toNat < 2 ^ 8 := by
    rw [BitVec.toNat_setWidth]
    exact Nat.lt_of_le_of_lt (Nat.mod_le ..) ownerPid.isLt
  have hgeneration : generation.toNat < 2 ^ 32 := Nat.lt_of_le_of_lt hgen (by decide)
  exact middle_or (middle_shiftLeft hpid (by decide) (by decide))
    (middle_shiftLeft hgeneration (by decide) (by decide))

theorem endpointHandle_packed (generation : BitVec 64) (slot : Nat) :
    endpointHandle ownerPid generation slot
      = packed 0xe9#64 (endpointMiddle ownerPid generation) (slot + 1) := by
  unfold endpointHandle packed endpointMiddle
  simp only [BitVec.or_assoc]

theorem endpoint_slot_lt (slot : Fin endpointHandleCapacity) : slot.val + 1 < 256 := by
  have := slot.isLt
  unfold endpointHandleCapacity at this
  omega

theorem endpointHandleSlot_endpointHandle {generation : BitVec 64}
    (hgen : generation ≤ endpointGenerationMax) (slot : Fin endpointHandleCapacity) :
    endpointHandleSlot (endpointHandle ownerPid generation slot) = some slot := by
  have hslot := endpoint_slot_lt slot
  have hmiddle := middle_endpointMiddle ownerPid hgen
  have htag := tag_packed 0xe9#64 hmiddle hslot
  have hnumber := number_packed 0xe9#64 hmiddle hslot
  unfold endpointHandleSlot
  rw [endpointHandle_packed, if_neg (fun h => h htag)]
  simp only [hnumber]
  rw [dif_pos ⟨Nat.le_add_left 1 _, slot.isLt⟩]
  simp

/-- A registered endpoint capability is found by its handle. -/
theorem EndpointState.capability_of_mem {n : Nat} {s : EndpointState} {handles : HandleTable n}
    {slot : Fin endpointHandleCapacity} {c : EndpointCapability} (hc : s.handles slot = some c)
    (hok : Holdings.EndpointOk s.ownerPid slot c) (hmem : endpointEntry c ∈ handles.bag) :
    s.capability handles c.handle = some c := by
  have hslot : endpointHandleSlot c.handle = some slot := by
    rw [hok.handle]
    exact endpointHandleSlot_endpointHandle c.ownerPid hok.generation slot
  have hallowed : handles.allows c.handle c.role.kind handleRightUse = true :=
    HandleTable.allows_of_mem (e := endpointEntry c) hmem (BitVec.and_self ..)
  unfold capability
  rw [hslot]
  dsimp only
  rw [hc]
  exact if_pos ⟨rfl, hok.ownerPid, hok.slot, hok.handle.symm, hallowed⟩

/-- Capabilities that are registered pass `registry_is_consistent`. -/
theorem EndpointState.consistent_of_registered {n : Nat} {s : EndpointState}
    {handles : HandleTable n} (hdistinct : handles.Distinct)
    (hok : ∀ slot c, s.handles slot = some c → Holdings.EndpointOk s.ownerPid slot c)
    (hmem : ∀ slot c, s.handles slot = some c → endpointEntry c ∈ handles.bag) :
    s.registryIsConsistent handles = true := by
  unfold registryIsConsistent
  rw [List.all_eq_true]
  intro c hc
  obtain ⟨slot, hslot⟩ := Slots.mem_values.mp hc
  have hkind : (endpointEntry c).kind ≠ .file := by
    show c.role.kind ≠ .file
    cases c.role <;> nofun
  have hfile : handles.allows c.handle .file 0 = false :=
    HandleTable.Distinct.not_allows hdistinct (hmem slot c hslot) hkind
  rw [capability_of_mem hslot (hok slot c hslot) (hmem slot c hslot), hfile]
  simp

end GenOS.Process
