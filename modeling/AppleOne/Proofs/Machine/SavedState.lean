import AppleOne.Machine.SaveState
import AppleOne.Proofs.Cpu.Snapshot

/-!
What a save state must look like to be read, and that the one a machine writes does: reading it gives
back registers, counter, line, RAM and key.
-/

namespace AppleOne.Machine

namespace SavedState

/-- What JSON stands for a saved state. A key that is missing counts as null. -/
structure WrittenAs (saved : SavedState) (value : Json) : Prop where
  version : value.member "version" = .natural 1
  system : value.member "system" = .string "apple1"
  cycles : value.member "cycles" = .natural saved.cycles.toNat
  irqLine : value.member "irq" = .bool saved.irqLine
  registers : saved.registers.WrittenAs (value.member "cpu")
  ram : value.member "ram" = .array (saved.ram.toList.map fun byte => .natural byte.toNat)
  key : value.member "key" = saved.key.elim .null fun code => .natural code.toNat

theorem part_eq_ok_iff {α : Type} {decoded : Json.Decoded α} {value : α} :
    part decoded = .ok value ↔ decoded = .ok value := by
  cases decoded with
  | ok fits =>
      constructor
      · rintro ⟨⟩
        rfl
      · rintro ⟨⟩
        rfl
  | error cause =>
      constructor
      · rintro ⟨⟩
      · rintro ⟨⟩

/-! ### Its members -/

section

variable {value : Json}

theorem versionOf_eq_iff :
    versionOf value = stateVersion ↔ value.member "version" = .natural 1 := by
  unfold versionOf stateVersion
  generalize value.member "version" = version
  cases version with
  | number x =>
      cases x with
      | integer n =>
          simp only [Json.natural, Json.number.injEq, Json.Number.integer.injEq]
          omega
      | real => simp [Json.natural]
  | null | bool | string | array | object => simp [Json.natural]

theorem systemOf_eq_iff :
    systemOf value = stateSystem ↔ value.member "system" = .string "apple1" := by
  unfold systemOf stateSystem
  generalize value.member "system" = system
  cases system with
  | string name => rw [Json.string.injEq]
  | null | bool | number | array | object => exact ⟨by simp, nofun⟩

theorem cycles_eq_ok_iff {cycles : UInt64} :
    (∃ n, value.toUnsigned .quad = .ok n ∧ n.toUInt64 = cycles) ↔ value = .natural cycles.toNat := by
  constructor
  · rintro ⟨n, read, rfl⟩
    obtain ⟨rfl, small⟩ := Json.toUnsigned_eq_ok_iff.mp read
    rw [show n.toUInt64.toNat = n from UInt64.toNat_ofNat_of_lt' small]
  · rintro rfl
    exact ⟨cycles.toNat, Json.toUnsigned_natural cycles.toNat_lt, UInt64.ofNat_toNat⟩

theorem byteOf_eq_ok_iff (value : Json) (byte : UInt8) :
    byteOf value = .ok byte ↔ value = .natural byte.toNat := by
  rw [byteOf, map_eq_pure_bind, bind_eq_ok]
  constructor
  · rintro ⟨n, read, ⟨⟩⟩
    obtain ⟨rfl, small⟩ := Json.toUnsigned_eq_ok_iff.mp read
    rw [show n.toUInt8.toNat = n from UInt8.toNat_ofNat_of_lt' small]
  · rintro rfl
    exact ⟨byte.toNat, Json.toUnsigned_natural byte.toNat_lt, congrArg Except.ok UInt8.ofNat_toNat⟩

theorem ram_eq_ok_iff {bytes : List UInt8} :
    value.toList byteOf = .ok bytes ↔
      value = .array (bytes.map fun byte => .natural byte.toNat) :=
  Json.toList_eq_ok_iff byteOf_eq_ok_iff

theorem key_eq_ok_iff {key : Option UInt8} :
    value.toOption byteOf = .ok key ↔ value = key.elim .null fun code => .natural code.toNat := by
  rw [Json.toOption_eq_ok_iff]
  cases key with
  | none => simp
  | some code =>
      simp only [reduceCtorEq, and_false, false_or, byteOf_eq_ok_iff, Option.some.injEq,
        exists_eq_right', Option.elim_some]
      constructor
      · exact And.right
      · rintro rfl
        exact ⟨nofun, rfl⟩

end

/-- A state is read from the values that stand for it, if the RAM has the right size. -/
theorem ofJson_eq_ok_iff {ramSize : Nat} {value : Json} {saved : SavedState} :
    ofJson ramSize value = .ok saved ↔ saved.WrittenAs value ∧ saved.ram.size = ramSize := by
  simp only [ofJson, check_eq_ok, bind_eq_ok, part_eq_ok_iff, Decidable.not_not]
  constructor
  · rintro ⟨version, system, cycles, readCycles, irqLine, readIrq, registers, readRegisters, ram,
      readRam, size, key, readKey, ⟨⟩⟩
    exact ⟨{
      version := versionOf_eq_iff.mp version
      system := systemOf_eq_iff.mp system
      cycles := cycles_eq_ok_iff.mp ⟨cycles, readCycles, rfl⟩
      irqLine := Json.toBoolean_eq_ok_iff.mp readIrq
      registers := Registers.ofJson_eq_ok_iff.mp readRegisters
      ram := ram_eq_ok_iff.mp readRam
      key := key_eq_ok_iff.mp readKey }, size⟩
  · rintro ⟨written, size⟩
    obtain ⟨cycles, readCycles, same⟩ := cycles_eq_ok_iff.mpr written.cycles
    exact ⟨versionOf_eq_iff.mpr written.version, systemOf_eq_iff.mpr written.system, cycles, readCycles,
      _, Json.toBoolean_eq_ok_iff.mpr written.irqLine, _,
      Registers.ofJson_eq_ok_iff.mpr written.registers, _, ram_eq_ok_iff.mpr written.ram, size, _,
      key_eq_ok_iff.mpr written.key, same ▸ rfl⟩

end SavedState

/-! ### What is written can be read -/

/-- What of a machine a save state holds. -/
def saved (machine : Machine) : SavedState where
  cycles := machine.cpu.cycles
  irqLine := machine.cpu.irqLine
  registers := machine.cpu.registers
  ram := machine.board.ram
  key := machine.board.pia.key

theorem saveState_congr {a b : Machine} (h : a.saved = b.saved) : a.saveState = b.saveState := by
  obtain ⟨cycles, irqLine, registers, ram, key⟩ := SavedState.mk.inj h
  dsimp only [saveState]
  rw [cycles, irqLine, registers, ram, key]

theorem writtenAs_saveState (machine : Machine) : machine.saved.WrittenAs machine.saveState where
  version := rfl
  system := rfl
  cycles := rfl
  irqLine := rfl
  registers := machine.cpu.registers.writtenAs_toJson
  ram := rfl
  key := by
    simp only [saveState, saved]
    cases machine.board.pia.key <;> rfl

theorem ofJson_saveState (machine : Machine) :
    SavedState.ofJson machine.ramSize machine.saveState = .ok machine.saved :=
  SavedState.ofJson_eq_ok_iff.mpr ⟨machine.writtenAs_saveState, rfl⟩

theorem loadState_eq_restore {machine origin : Machine} (size : machine.ramSize = origin.ramSize) :
    machine.loadState origin.saveState = .ok (machine.restore origin.saved) := by
  rw [loadState, size, ofJson_saveState]
  rfl

end AppleOne.Machine
