import AppleOne.Proofs.Machine.Command
import AppleOne.Proofs.Machine.SavedState

/-!
Which save states a machine takes over. The parts of a state are looked at in a fixed order; the first
one that does not fit decides the complaint, and only a state that fits in all of them changes the
machine (`run_loadState`).
-/

namespace AppleOne

namespace Machine

open SavedState

/-- What is looked at in a save state. -/
inductive Part where
  | version
  | system
  | cycles
  | irq
  | cpu
  | ram
  | ramSize
  | key
  deriving DecidableEq

namespace Part

/-- The parts in the order in which they are looked at. -/
def order : List Part := [.version, .system, .cycles, .irq, .cpu, .ram, .ramSize, .key]

def before (part : Part) : List Part := order.takeWhile (· ≠ part)

section

variable (ramSize : Nat) (value : Json)

/-- What a machine with `ramSize` bytes of RAM needs to find. -/
def Fits : Part → Prop
  | .version => value.member "version" = .natural 1
  | .system => value.member "system" = .string "apple1"
  | .cycles => ∃ count : UInt64, value.member "cycles" = .natural count.toNat
  | .irq => ∃ level, value.member "irq" = .bool level
  | .cpu => ∃ registers : Registers, registers.WrittenAs (value.member "cpu")
  | .ram => ∃ bytes : List UInt8,
    value.member "ram" = .array (bytes.map fun byte => .natural byte.toNat)
  | .ramSize => ∃ items, value.member "ram" = .array items ∧ items.length = ramSize
  | .key => value.member "key" = .null ∨
    ∃ code : UInt8, value.member "key" = .natural code.toNat

/-- The reasons that are given where a part does not fit. -/
def Complains (reason : String) : Part → Prop
  | .version => reason = s!"unsupported version {versionOf value}"
  | .system => reason = s!"state is for system '{systemOf value}'"
  | .cycles => ∃ cause, (value.member "cycles").toUnsigned .quad = .error cause ∧
    reason = cause.message
  | .irq => ∃ cause, (value.member "irq").toBoolean = .error cause ∧ reason = cause.message
  | .cpu => ∃ cause, Registers.ofJson (value.member "cpu") = .error cause ∧ reason = cause.message
  | .ram => ∃ cause, (value.member "ram").toList byteOf = .error cause ∧ reason = cause.message
  | .ramSize => ∃ items, value.member "ram" = .array items ∧
    reason = s!"RAM size {Hex.size items.length} does not match machine ({Hex.size ramSize})"
  | .key => ∃ cause, (value.member "key").toOption byteOf = .error cause ∧ reason = cause.message

end

variable {ramSize : Nat} {value : Json}

/-! ### A part fits if it is read -/

theorem fits_cycles_iff :
    Fits ramSize value .cycles ↔ ∃ n, (value.member "cycles").toUnsigned .quad = .ok n := by
  constructor
  · rintro ⟨count, written⟩
    obtain ⟨n, read, -⟩ := cycles_eq_ok_iff.mpr written
    exact ⟨n, read⟩
  · rintro ⟨n, read⟩
    exact ⟨n.toUInt64, cycles_eq_ok_iff.mp ⟨n, read, rfl⟩⟩

theorem fits_irq_iff : Fits ramSize value .irq ↔ ∃ level, (value.member "irq").toBoolean = .ok level :=
  exists_congr fun _ => Json.toBoolean_eq_ok_iff.symm

theorem fits_cpu_iff :
    Fits ramSize value .cpu ↔ ∃ registers, Registers.ofJson (value.member "cpu") = .ok registers :=
  exists_congr fun _ => Registers.ofJson_eq_ok_iff.symm

theorem fits_ram_iff :
    Fits ramSize value .ram ↔ ∃ bytes, (value.member "ram").toList byteOf = .ok bytes :=
  exists_congr fun _ => ram_eq_ok_iff.symm

theorem fits_ramSize_iff {bytes : List UInt8}
    (ram : value.member "ram" = .array (bytes.map fun byte => .natural byte.toNat)) :
    bytes.toArray.size = ramSize ↔ Fits ramSize value .ramSize := by
  constructor
  · intro size
    exact ⟨_, ram, by rw [List.length_map]; exact size⟩
  · rintro ⟨items, same, length⟩
    rw [ram, Json.array.injEq] at same
    rw [← length, ← same, List.length_map]
    rfl

theorem fits_key_iff :
    Fits ramSize value .key ↔ ∃ key, (value.member "key").toOption byteOf = .ok key := by
  simp only [key_eq_ok_iff, Option.exists, Option.elim_none, Option.elim_some]
  rfl

/-- A part that does not fit, while those looked at before do. -/
def FirstUnfit (ramSize : Nat) (value : Json) (part : Part) : Prop :=
  (∀ earlier ∈ part.before, earlier.Fits ramSize value) ∧ ¬part.Fits ramSize value

/-! ### The first part that does not fit is complained about -/

/-- The parts are looked at in order, and the outcome is a complaint about the first one that does not
fit. If all of them fit, the outcome is left open. -/
def Reports (ramSize : Nat) (value : Json) (outcome : Except Error SavedState) : List Part → Prop
  | [] => True
  | part :: rest =>
    part.Fits ramSize value ∧ Reports ramSize value outcome rest ∨
    ¬part.Fits ramSize value ∧ ∃ reason, part.Complains ramSize value reason ∧
      outcome = .error (.invalidState reason)

namespace Reports

variable {rest : List Part}

/-- A part that is compared with what it has to be. -/
theorem check (part : Part) {p : Prop} [Decidable p] {reason : String}
    {next : Unit → Except Error SavedState}
    (unfit : p ↔ ¬part.Fits ramSize value) (complains : part.Complains ramSize value reason)
    (later : part.Fits ramSize value → Reports ramSize value (next ()) rest) :
    Reports ramSize value
      (if p then (do let done ← throw (.invalidState reason); next done) else next ())
      (part :: rest) := by
  by_cases fits : part.Fits ramSize value
  · rw [if_neg fun h => unfit.mp h fits]
    exact .inl ⟨fits, later fits⟩
  · rw [if_pos (unfit.mpr fits)]
    exact .inr ⟨fits, reason, complains, rfl⟩

/-- A part that is decoded. -/
theorem decode (part : Part) {α : Type} {decoded : Json.Decoded α} {next : α → Except Error SavedState}
    (fits_iff : part.Fits ramSize value ↔ ∃ result, decoded = .ok result)
    (complains : ∀ cause, decoded = .error cause → part.Complains ramSize value cause.message)
    (later : ∀ result, decoded = .ok result → Reports ramSize value (next result) rest) :
    Reports ramSize value (SavedState.part decoded >>= next) (part :: rest) := by
  cases decoded with
  | ok result => exact .inl ⟨fits_iff.mpr ⟨result, rfl⟩, later result rfl⟩
  | error cause =>
      refine .inr ⟨fun fits => ?_, cause.message, complains cause rfl, rfl⟩
      obtain ⟨result, ⟨⟩⟩ := fits_iff.mp fits

theorem exists_first {outcome : Except Error SavedState} {parts : List Part}
    (reports : Reports ramSize value outcome parts) :
    (∀ part ∈ parts, part.Fits ramSize value) ∨
    ∃ part reason, (∀ earlier ∈ parts.takeWhile (· ≠ part), earlier.Fits ramSize value) ∧
      ¬part.Fits ramSize value ∧ part.Complains ramSize value reason ∧
      outcome = .error (.invalidState reason) := by
  induction parts with
  | nil => exact .inl nofun
  | cons part rest ih =>
      obtain ⟨fits, later⟩ | ⟨unfit, reason, complains, refused⟩ := reports
      · obtain all | ⟨first, reason, before, unfit, complains, refused⟩ := ih later
        · exact .inl (List.forall_mem_cons.mpr ⟨fits, all⟩)
        · have other : part ≠ first := by
            rintro rfl
            exact unfit fits
          refine .inr ⟨first, reason, ?_, unfit, complains, refused⟩
          rw [List.takeWhile_cons, if_pos (decide_eq_true other)]
          exact List.forall_mem_cons.mpr ⟨fits, before⟩
      · exact .inr ⟨part, reason, by simp, unfit, complains, refused⟩

end Reports

/-- The statements of `ofJson` look at the parts one by one, so each is one step. -/
theorem reports_ofJson (ramSize : Nat) (value : Json) :
    Reports ramSize value (ofJson ramSize value) order := by
  unfold ofJson
  refine .check .version (not_congr versionOf_eq_iff) rfl fun _ => ?_
  refine .check .system (not_congr systemOf_eq_iff) rfl fun _ => ?_
  refine .decode .cycles fits_cycles_iff (fun cause refused => ⟨cause, refused, rfl⟩) fun _ _ => ?_
  refine .decode .irq fits_irq_iff (fun cause refused => ⟨cause, refused, rfl⟩) fun _ _ => ?_
  refine .decode .cpu fits_cpu_iff (fun cause refused => ⟨cause, refused, rfl⟩) fun _ _ => ?_
  refine .decode .ram fits_ram_iff (fun cause refused => ⟨cause, refused, rfl⟩) fun bytes read => ?_
  have items := ram_eq_ok_iff.mp read
  refine .check .ramSize (not_congr (fits_ramSize_iff items)) ⟨_, items, ?_⟩ fun _ => ?_
  · rw [List.length_map]
    rfl
  refine .decode .key fits_key_iff (fun cause refused => ⟨cause, refused, rfl⟩) fun _ _ => ?_
  trivial

theorem exists_complaint (unfit : ¬∀ part, Fits ramSize value part) :
    ∃ (part : Part) (reason : String), part.FirstUnfit ramSize value ∧
      part.Complains ramSize value reason ∧ ofJson ramSize value = .error (.invalidState reason) := by
  obtain all | ⟨part, reason, before, unfit, complains, refused⟩ :=
    (reports_ofJson ramSize value).exists_first
  · refine absurd (fun part => all part ?_) unfit
    cases part <;> decide
  · exact ⟨part, reason, ⟨before, unfit⟩, complains, refused⟩

/-- The parts fit exactly if they are those of a saved state of the right size. -/
theorem fits_iff :
    (∀ part, Fits ramSize value part) ↔
      ∃ saved : SavedState, saved.WrittenAs value ∧ saved.ram.size = ramSize := by
  constructor
  · intro fits
    obtain ⟨count, cycles⟩ := fits .cycles
    obtain ⟨level, irqLine⟩ := fits .irq
    obtain ⟨registers, cpu⟩ := fits .cpu
    obtain ⟨bytes, ram⟩ := fits .ram
    obtain ⟨key, readKey⟩ := fits_key_iff.mp (fits .key)
    exact ⟨⟨count, level, registers, bytes.toArray, key⟩,
      ⟨fits .version, fits .system, cycles, irqLine, cpu, ram, key_eq_ok_iff.mp readKey⟩,
      (fits_ramSize_iff ram).mpr (fits .ramSize)⟩
  · rintro ⟨saved, written, size⟩ part
    cases part with
    | version => exact written.version
    | system => exact written.system
    | cycles => exact ⟨saved.cycles, written.cycles⟩
    | irq => exact ⟨saved.irqLine, written.irqLine⟩
    | cpu => exact ⟨saved.registers, written.registers⟩
    | ram => exact ⟨saved.ram.toList, written.ram⟩
    | ramSize => exact ⟨_, written.ram, by rw [List.length_map]; exact size⟩
    | key => exact fits_key_iff.mpr ⟨saved.key, key_eq_ok_iff.mpr written.key⟩

end Part

/-- A state is taken over exactly if all its parts fit, and then registers, counter, line, RAM and key are
those it gives, with bit 5 of the status on and the key cut to seven bits. Otherwise the machine stays
as it is, and the first part that does not fit is complained about. -/
theorem run_loadState (machine : Machine) (value : Json) :
    ((∃ after, (Command.loadState value).run machine = .ok .done after) ↔
      ∀ part, Part.Fits machine.ramSize value part) ∧
    ((∃ saved : SavedState, saved.WrittenAs value ∧
      (Command.loadState value).run machine = .ok .done { machine with
        cpu := { machine.cpu with
          toRegisters := { saved.registers with
            status := { saved.registers.status with bit5 := true } }
          cycles := saved.cycles
          irqLine := saved.irqLine }
        board := { machine.board with
          ram := saved.ram
          pia := { machine.board.pia with key := saved.key.map (· &&& 0x7F) } } }) ∨
    ∃ part reason, Part.FirstUnfit machine.ramSize value part ∧
      part.Complains machine.ramSize value reason ∧
      (Command.loadState value).run machine = .ok (.refused (.invalidState reason)) machine) := by
  by_cases fits : ∀ part, Part.Fits machine.ramSize value part
  · obtain ⟨saved, written, size⟩ := Part.fits_iff.mp fits
    have done : (Command.loadState value).run machine = .ok .done (machine.restore saved) := by
      rw [Command.run, request, loadState, ofJson_eq_ok_iff.mpr ⟨written, size⟩]
      rfl
    exact ⟨⟨fun _ => fits, fun _ => ⟨_, done⟩⟩, .inl ⟨saved, written, done⟩⟩
  · obtain ⟨part, reason, first, complains, refused⟩ := Part.exists_complaint fits
    have refused : (Command.loadState value).run machine =
        .ok (.refused (.invalidState reason)) machine := by
      rw [Command.run, request, loadState, refused]
      rfl
    refine ⟨⟨?_, fun all => absurd all fits⟩, .inr ⟨part, reason, first, complains, refused⟩⟩
    rintro ⟨after, done⟩
    rw [refused] at done
    cases done

end Machine

end AppleOne
