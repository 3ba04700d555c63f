import Lfdk.CountedLoops
import Lfdk.DriverCalls
import Lfdk.PciNames

/-!
# Scanning the buses

`ScanPCIDevice` of `lib_pci_scan.c` goes through all functions of the buses below the
maximum with three nested loops over 8-bit counters. For each function that answers it
fills the next record of `lfdd_pci_list`; the loops end early when the list is full.
All requests are made in one global structure, which the walk through a device's
capabilities changes as well.

What a scan records is a survey of the functions and the name database alone. The scan
refines it: the record of each surveyed function holds its numbers and names, and keeps
from the record before only what it does not find.
-/

namespace Lfdk.PciScan

open CountedLoops PciNames

universe u
variable {δ : Type u}

/-- `LFDK_MAX_PCIBUF` -/
def maxPcibuf : Nat := 200

/-- `LFDK_MAX_PCIBUS` -/
def maxPcibus : Int := 256

/-- `PCIData` -/
structure PciData where
  venid : BitVec 16
  devid : BitVec 16
  bus : BitVec 8
  dev : BitVec 8
  func : BitVec 8
  ventxt : Text
  devtxt : Text
  phyBase : BitVec 64
deriving DecidableEq, Repr

/-- A record of the list before anything was stored in it. -/
def PciData.zero : PciData := ⟨0, 0, 0, 0, 0, Vector.replicate 76 0, Vector.replicate 76 0, 0⟩

/-- The globals of the scanner, and the driver behind it. -/
structure Scan (δ : Type u) where
  driver : δ
  lfddPciData : LfddPcix
  lfddPciList : Vector PciData 200
  pciListLen : Nat

/-- How a scan ends. -/
inductive Ending where
  /-- at the end of the loops -/
  | completed
  /-- with a full list -/
  | full
  /-- the program, after an `ioctl` that failed -/
  | exited
  /-- an access outside the list -/
  | undefined
  /-- in a lookup that does not return -/
  | lookup (fault : Fault)
  /-- more iterations are needed than were given -/
  | unfinished
deriving DecidableEq, Repr

variable (ioctl : Ioctl LfddPcix δ) (pcixMmioBase : BitVec 64) (database : NameDatabase)

/-- The loop of `AssignMMIOBase` over the list of capabilities, which tells whether all
its calls succeeded, and the last capability. -/
def walkCapabilities : Nat → BitVec 8 → BitVec 8 → LfddPcix → δ → Bool × BitVec 8 × LfddPcix × δ
  | 0, capId, _, target, driver => (true, capId, target, driver)
  | walkLimit + 1, capId, capNext, target, driver =>
    if capNext ≠ 0 ∧ capId ≠ 0x10 then
      let (success, target, driver) :=
        ioctl .readWord { target with reg := capNext.setWidth 16 } driver
      if success = false then (false, capId, target, driver)
      else walkCapabilities walkLimit (target.buf.setWidth 8) ((target.buf >>> 8).setWidth 8)
        target driver
    else (true, capId, target, driver)

/-- The end of `AssignMMIOBase`: a base is assigned when the first dword of the device is
the same through the ports and through the window, and not zero. -/
def compareDwords (target : LfddPcix) (driver : δ) : BitVec 64 × LfddPcix × δ :=
  let (success, target, driver) :=
    ioctl .readDword { target with reg := 0, phyBase := 0, buf := 0 } driver
  let tmpBuf := target.buf
  if success = false ∨ tmpBuf = 0 then (0, target, driver)
  else
    let (success, target, driver) :=
      ioctl .readDword { target with reg := 0, phyBase := pcixMmioBase, buf := 0 } driver
    if success = true ∧ tmpBuf = target.buf then (pcixMmioBase, target, driver)
    else (0, target, driver)

/-- What `AssignMMIOBase` stores as the base of a device when there is a window: zero at
first, and at every return but the last. -/
def findBase (target : LfddPcix) (driver : δ) : BitVec 64 × LfddPcix × δ :=
  let (success, target, driver) := ioctl .readWord { target with reg := 0x34 } driver
  if success = false then (0, target, driver)
  else
    let (success, target, driver) :=
      ioctl .readWord { target with reg := (target.buf &&& 0xff).setWidth 16 } driver
    if success = false then (0, target, driver)
    else
      let (success, capId, target, driver) := walkCapabilities ioctl 64 (target.buf.setWidth 8)
        ((target.buf >>> 8).setWidth 8) target driver
      if success = true ∧ capId = 0x10 then compareDwords ioctl pcixMmioBase target driver
      else (0, target, driver)

/-- `AssignMMIOBase` -/
def assignMMIOBase (target : LfddPcix) (record : PciData) (driver : δ) : LfddPcix × PciData × δ :=
  if pcixMmioBase = 0 then (target, record, driver)
  else
    let (phyBase, target, driver) := findBase ioctl pcixMmioBase target driver
    (target, { record with phyBase := phyBase }, driver)

/-- `LFDD_IOCTL` on the global request, which ends the program on failure. -/
def callDriver (operation : Operation) (scan : Scan δ) : Except (Ending × Scan δ) (Scan δ) :=
  let (success, request, driver) := ioctl operation scan.lfddPciData scan.driver
  let scan := { scan with lfddPciData := request, driver := driver }
  if success = true then .ok scan else .error (.exited, scan)

/-- Store into the record `lfdd_pci_list[pci_list_len]`. -/
def store (change : PciData → PciData) (scan : Scan δ) : Except (Ending × Scan δ) (Scan δ) :=
  if inside : scan.pciListLen < 200 then
    .ok { scan with lfddPciList :=
      scan.lfddPciList.set scan.pciListLen (change scan.lfddPciList[scan.pciListLen]) }
  else .error (.undefined, scan)

/-- The call of `GetVendorAndDeviceTexts` on the texts of the record. -/
def storeTexts (scan : Scan δ) : Except (Ending × Scan δ) (Scan δ) :=
  if inside : scan.pciListLen < 200 then
    let record := scan.lfddPciList[scan.pciListLen]
    match getVendorAndDeviceTexts database record.venid record.devid record.ventxt
        record.devtxt with
    | .error fault => .error (.lookup fault, scan)
    | .ok (ventxt, devtxt) =>
      store (fun record => { record with ventxt := ventxt, devtxt := devtxt }) scan
  else .error (.undefined, scan)

/-- The call of `AssignMMIOBase` on the record, made only with a window. -/
def storeBase (scan : Scan δ) : Except (Ending × Scan δ) (Scan δ) :=
  if pcixMmioBase = 0 then .ok scan
  else if inside : scan.pciListLen < 200 then
    let (request, record, driver) := assignMMIOBase ioctl pcixMmioBase scan.lfddPciData
      scan.lfddPciList[scan.pciListLen] scan.driver
    .ok { scan with
      lfddPciData := request
      driver := driver
      lfddPciList := scan.lfddPciList.set scan.pciListLen record }
  else .error (.undefined, scan)

/-- Move to the next record, and return from the scan when there is none. -/
def nextRecord (scan : Scan δ) : Except (Ending × Scan δ) (Scan δ) :=
  let scan := { scan with pciListLen := scan.pciListLen + 1 }
  if maxPcibuf ≤ scan.pciListLen then .error (.full, scan) else .ok scan

/-- The place of a PCI function. -/
structure Place where
  bus : BitVec 8
  dev : BitVec 8
  func : BitVec 8
deriving DecidableEq, Repr

/-- Record a function whose vendor id has just been read. -/
def recordDevice (place : Place) (scan : Scan δ) : Except (Ending × Scan δ) (Scan δ) := do
  let venid := scan.lfddPciData.buf.setWidth 16
  let scan ← store (fun record => { record with
    bus := place.bus, dev := place.dev, func := place.func, venid := venid }) scan
  let request := { scan.lfddPciData with reg := scan.lfddPciData.reg + 0x02 }
  let scan ← callDriver ioctl .readWord { scan with lfddPciData := request }
  let devid := scan.lfddPciData.buf.setWidth 16
  let scan ← store (fun record => { record with devid := devid }) scan
  let scan ← storeTexts database scan
  let scan ← storeBase ioctl pcixMmioBase scan
  nextRecord scan

/-- The body of the loops. -/
def probe (place : Place) (scan : Scan δ) : Except (Ending × Scan δ) (Scan δ) := do
  let request := { scan.lfddPciData with
    bus := place.bus, dev := place.dev, func := place.func, reg := 0, phyBase := 0 }
  let scan ← callDriver ioctl .readWord { scan with lfddPciData := request }
  if scan.lfddPciData.buf &&& 0xffff = 0xffff then .ok scan
  else recordDevice ioctl pcixMmioBase database place scan

/-- `ScanPCIDevice`, with each loop given at most `fuel` iterations. -/
def scanPCIDevice (fuel : Nat) (maxpcibus : Int) (scan : Scan δ) : Ending × Scan δ :=
  let unfinished := fun scan => (Ending.unfinished, scan)
  let ran :=
    forLoop unfinished (fun bus : BitVec 8 => (bus.toNat : Int) < maxpcibus)
      (fun bus =>
        forLoop unfinished (fun dev : BitVec 8 => dev ≤ 0x1f)
          (fun dev =>
            forLoop unfinished (fun func : BitVec 8 => func ≤ 0x07)
              (fun func => probe ioctl pcixMmioBase database ⟨bus, dev, func⟩) fuel 0) fuel 0)
      fuel 0 { scan with pciListLen := 0 }
  match ran with
  | .ok scan => (.completed, scan)
  | .error ended => ended

end Lfdk.PciScan
