/-
  GenOS.Storage.Disk — a device that may lose or fail anything the
  `BlockIo` contract does not promise.

  Sector writes are atomic.  A successful flush makes the earlier writes
  durable; until then they may persist in any subset and order.  A failing
  write or flush may or may not have taken effect.  Which commands fail, and
  how, is up to an oracle, and no result below restricts it.

  `history` records the medium after every write and flush, so that a crash
  in the middle of an operation is a crash of one of the recorded states.
-/
import GenOS.Storage.BlockCache
import GenOS.Lib.Medium

namespace GenOS.Storage

open GenOS.Lib

/-- The answer to a write or a flush. -/
inductive Answer where
  | ok
  | failed (effect : Bool)

/-- The device's behaviour at its n-th command. -/
structure Oracle where
  change : Nat → Answer
  readOk : Nat → Bool

structure Disk where
  media : Media Sector
  oracle : Oracle
  commands : Nat
  history : List (Media Sector)

namespace Disk

variable (d : Disk)

/-- Carry out a write or flush whose effect on the medium is `effect`. -/
def command (effect : Media Sector) : Disk × Except StorageError Unit :=
  let finish (media : Media Sector) : Disk :=
    { d with media := media, commands := d.commands + 1, history := d.history ++ [media] }
  match d.oracle.change d.commands with
  | .ok => (finish effect, .ok ())
  | .failed true => (finish effect, .error .device)
  | .failed false => (finish d.media, .error .device)

def write (lba : Nat) (data : Sector) : Disk × Except StorageError Unit :=
  d.command (d.media.push lba data)

/-- A flush that fails after making some of the writes durable is covered by
the failure without effect, because the writes are then still pending. -/
def flush : Disk × Except StorageError Unit := d.command d.media.settle

def read (lba : Nat) : Disk × Except StorageError Sector :=
  let d' := { d with commands := d.commands + 1 }
  if d.oracle.readOk d.commands then (d', .ok (d.media.visible lba)) else (d', .error .device)

instance : BlockIo Disk where
  read := read
  write := write
  flush := flush

/-- The device after a power cycle, with the given content. -/
def boot (image : Nat → Sector) (oracle : Oracle) : Disk := ⟨⟨image, []⟩, oracle, 0, []⟩

/-- What a write or flush does: a success has its effect, a failure has it or
changes nothing, and the new state is recorded. -/
theorem command_cases (effect : Media Sector) :
    (d.command effect).1.history = d.history ++ [(d.command effect).1.media]
      ∧ ((d.command effect).2 = .ok () ∧ (d.command effect).1.media = effect
        ∨ (d.command effect).2 = .error .device
          ∧ ((d.command effect).1.media = effect ∨ (d.command effect).1.media = d.media)) := by
  unfold command
  cases d.oracle.change d.commands with
  | ok => exact ⟨rfl, .inl ⟨rfl, rfl⟩⟩
  | failed e =>
    cases e with
    | true => exact ⟨rfl, .inr ⟨rfl, .inl rfl⟩⟩
    | false => exact ⟨rfl, .inr ⟨rfl, .inr rfl⟩⟩

theorem read_cases (lba : Nat) :
    (d.read lba).1.media = d.media ∧ (d.read lba).1.history = d.history
      ∧ ((d.read lba).2 = .ok (d.media.visible lba) ∨ (d.read lba).2 = .error .device) := by
  unfold read
  split
  · exact ⟨rfl, rfl, .inl rfl⟩
  · exact ⟨rfl, rfl, .inr rfl⟩

end Disk

end GenOS.Storage
