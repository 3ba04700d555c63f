import Lfdk.AccessEffects
import Lfdk.MappingCache
import Lfdk.Runs

/-!
# What every request leaves alone

Each operation saves and restores the address port in its own copy of the code,
and has two methods that must not mix. Whatever state a request starts in, the
address port ends as it began, a port request leaves the mapping alone, an MMIO
request leaves the ports alone, and a read leaves every device byte alone and
writes at most the bulk buffer of its own request.
-/

namespace Lfdk

open Runs

universe u
variable {σ : Type u} (platform : Platform σ)

/-- The mapping phase touches neither the device nor the address port, and makes
no access. -/
theorem mapBlock_frame (pci : LfddPcix) (block : BitVec 32) (machine : Machine σ) :
    ∃ recorded,
      (mapBlock platform pci block machine).events = machine.events ++ recorded ∧
      (∀ event ∈ recorded, ¬ event.IsPort) ∧
      (mapBlock platform pci block machine).device = machine.device ∧
      (mapBlock platform pci block machine).configAddress = machine.configAddress := by
  have remapped : ∀ before : Machine σ, ∃ mapping,
      (remap platform block before).events = before.events ++ [.ioremap block.toNat mapping] ∧
      (remap platform block before).device = before.device ∧
      (remap platform block before).configAddress = before.configAddress := by
    intro before
    by_cases success : platform.ioremapSucceeds before.ioremapCalls
    · exact ⟨some before.ioremapCalls, by simp [remap, ioremap, success]⟩
    · exact ⟨none, by simp [remap, ioremap, success]⟩
  unfold mapBlock
  split
  · exact ⟨[], by simp⟩
  · split
    · obtain ⟨mapping, events, device, address⟩ := remapped machine
      exact ⟨_, events, by simp [Event.IsPort], device, address⟩
    · rename_i old pointer
      split
      · obtain ⟨mapping, events, device, address⟩ := remapped (iounmap old machine)
        refine ⟨[.iounmap old, .ioremap block.toNat mapping], ?_, by simp [Event.IsPort],
          device, address⟩
        rw [events]
        simp [iounmap]
      · exact ⟨[], by simp⟩

/-- A read changes nothing in its request but the bulk buffer, and that only in
the bulk read. -/
theorem access_reply (request : Request) (machine : Machine σ)
    (read : request.operation.isRead = true) :
    let reply := (request.access platform machine).1
    reply.request = { request.pci with massBuf := reply.request.massBuf } ∧
      (request.operation ≠ .read256byte → reply.request = request.pci) := by
  obtain ⟨operation, pci⟩ := request
  cases operation with
  | readByte | readWord | readDword => exact ⟨rfl, fun _ => rfl⟩
  | writeByte | writeWord | writeDword => cases read
  | read256byte =>
    refine ⟨?_, fun other => absurd rfl other⟩
    by_cases ports : pci.phyBase = 0
    · simp only [Request.access, bulkAccess_ports platform pci machine ports]
    · simp only [Request.access, bulkAccess_mmio platform pci machine ports]

/-- What one request may change, said of the states before and after it. -/
structure Framed (stage : Stage Request (Machine σ) Reply) : Prop where
  /-- the address port holds what it held before -/
  latch : stage.after.configAddress = stage.before.configAddress
  /-- the port method leaves the mapping alone -/
  portsKeepMapping : stage.input.pci.phyBase = 0 →
    stage.after.phy2virtMem = stage.before.phy2virtMem ∧
      stage.after.phyMapStartAddr = stage.before.phyMapStartAddr
  /-- the MMIO method makes no port access -/
  mmioAvoidsPorts : stage.input.pci.phyBase ≠ 0 → ∀ event ∈ stage.after.events, ¬ event.IsPort
  /-- a read changes no configuration or memory byte -/
  readsKeepDevice : stage.input.operation.isRead = true → stage.after.device = stage.before.device
  /-- a read changes nothing in its request but the bulk buffer -/
  readsKeepRequest : stage.input.operation.isRead = true →
    stage.output.request = { stage.input.pci with massBuf := stage.output.request.massBuf } ∧
      (stage.input.operation ≠ .read256byte → stage.output.request = stage.input.pci)

/-- One request is framed, from any state whatsoever: a refused request touches nothing, and an
accepted one is its mapping phase followed by accesses to the window it was given. -/
theorem serve_framed (request : Request) (machine : Machine σ) :
    Framed ⟨request, machine, (serve platform request machine).1,
      (serve platform request machine).2⟩ := by
  cases refused : request.refused platform with
  | true =>
    have idle := serve_refused platform request machine refused
    rw [idle]
    have kept : request.refusal.request = request.pci := by
      obtain ⟨operation, pci⟩ := request
      cases operation <;> rfl
    refine ⟨rfl, fun _ => ⟨rfl, rfl⟩, by simp, fun _ => rfl, fun _ => ⟨?_, fun _ => kept⟩⟩
    rw [kept]
  | false =>
    obtain ⟨mapRecord, mapEvents, mapQuiet, mapDevice, mapAddress⟩ :=
      mapBlock_frame platform request.pci request.block machine.cleared
    have accepted := serve_accepted platform request machine refused
    have reply := access_reply platform request
      (mapBlock platform request.pci request.block machine.cleared)
    rw [← accepted] at reply
    by_cases ports : request.pci.phyBase = 0
    · have unmapped : mapBlock platform request.pci request.block machine.cleared =
          machine.cleared := by
        rw [mapBlock, if_pos ports]
      obtain ⟨device, recorded, accessed, read, _⟩ :=
        access_ports platform machine.cleared request ports
      rw [accepted, unmapped] at reply ⊢
      refine ⟨?_, fun _ => ?_, fun mmio => absurd ports mmio, fun isRead => ?_, reply⟩
      · rw [accessed]
        rfl
      · rw [accessed]
        exact ⟨rfl, rfl⟩
      · rw [accessed]
        exact read isRead
    · obtain ⟨device, recorded, accessed, read, memory, _⟩ :=
        access_mmio platform (mapBlock platform request.pci request.block machine.cleared)
          request ports
      rw [accepted] at reply ⊢
      refine ⟨?_, fun zero => absurd zero ports, fun _ => ?_, fun isRead => ?_, reply⟩
      · rw [accessed]
        exact mapAddress
      · rw [accessed, Machine.logged_events]
        simp only [mapEvents, Machine.cleared_events, List.nil_append]
        intro event member
        rcases List.mem_append.mp member with mapped | touched
        · exact mapQuiet event mapped
        · have isMemory := memory event touched
          cases event <;> simp_all [Event.IsPort, Event.IsMemory]
      · rw [accessed]
        exact (read isRead).trans mapDevice

/-- In every run from every state, each request restores the address port, keeps
the other method's side untouched, and if it is a read leaves all device bytes
and all of its request but the bulk buffer as they were. -/
theorem requests_framed (requests : List Request) (machine : Machine σ) :
    ∀ stage ∈ stages (serve platform) requests machine, Framed stage := by
  intro stage member
  obtain ⟨_, ran⟩ := stages_are_steps (serve platform) requests machine stage member
  have framed := serve_framed platform stage.input stage.before
  rw [ran] at framed
  exact framed

/-- A bulk read through the ports after another tool left its own address in the
address port. -/
theorem bulk_read_framed :
    let platform := Platform.constant 0x12345678 0x80000000 fun _ => true
    let request : Request := ⟨.read256byte, .atRegister 0 0 0⟩
    let machine := Machine.loaded () 0x80001004
    Framed ⟨request, machine, (serve platform request machine).1,
      (serve platform request machine).2⟩ :=
  requests_framed (Platform.constant 0x12345678 0x80000000 fun _ => true)
    [⟨.read256byte, .atRegister 0 0 0⟩] (Machine.loaded () 0x80001004) _ List.mem_cons_self

end Lfdk
