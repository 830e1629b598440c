import AppleOne.Proofs.Cpu.Snapshot
import AppleOne.Proofs.Json.Spelling
import AppleOne.Proofs.Machine.SavedState

/-!
Save states as text. Every number of a state is an integer of at most 64 bits, and the members stand in
the order of their names; so a state is read back from its text as it was.
-/

namespace AppleOne

open Json (Plain)

theorem plain_byte {depth : Nat} (byte : UInt8) : Plain depth (.natural byte.toNat) :=
  Json.plain_natural (Nat.lt_trans byte.toNat_lt (by decide))

theorem Registers.plain_toJson {depth : Nat} (r : Registers) : Plain (depth + 1) r.toJson := by
  rw [toJson_eq]
  refine .object ?members ?sorted
  case sorted =>
    simp only [List.pairwise_cons, List.mem_cons, List.not_mem_nil, or_false, forall_eq_or_imp,
      String.reduceLT, forall_eq, and_self, false_implies, implies_true, List.Pairwise.nil]
  intro member inside
  simp only [List.mem_cons, List.not_mem_nil, or_false] at inside
  obtain rfl | rfl | rfl | rfl | rfl | rfl := inside
  · exact plain_byte r.a
  · exact Json.plain_natural (Nat.lt_trans r.pc.toNat_lt (by decide))
  · exact plain_byte r.sp
  · exact plain_byte r.status.toByte
  · exact plain_byte r.x
  · exact plain_byte r.y

namespace Machine

theorem plain_saveState (depth : Nat) (machine : Machine) : Plain (depth + 2) machine.saveState := by
  refine .object ?members ?sorted
  case sorted =>
    simp only [List.pairwise_cons, List.mem_cons, List.not_mem_nil, or_false, forall_eq_or_imp,
      String.reduceLT, forall_eq, and_self, false_implies, implies_true, List.Pairwise.nil]
  intro member inside
  simp only [List.mem_cons, List.not_mem_nil, or_false] at inside
  obtain rfl | rfl | rfl | rfl | rfl | rfl | rfl := inside
  · exact machine.cpu.registers.plain_toJson
  · exact Json.plain_natural machine.cpu.cycles.toNat_lt
  · exact .bool _
  · cases machine.board.pia.key with
    | none => exact .null
    | some code => exact plain_byte code
  · refine .array ?_
    intro item inside
    obtain ⟨byte, -, rfl⟩ := List.mem_map.mp inside
    exact plain_byte byte
  · exact .string _
  · exact Json.plain_natural (by decide)

/-- A saved state is the same value when its text is read, and so has the same outcome when it is loaded. -/
theorem saveState_read_back (machine : Machine) :
    Json.parse machine.saveState.compact = .ok machine.saveState ∧
    Json.parse machine.saveState.pretty = .ok machine.saveState ∧
    ∀ target : Machine, target.loadState <$> Json.parse machine.saveState.compact =
      .ok (target.loadState machine.saveState) := by
  have plain : Plain Json.maxDepth machine.saveState := machine.plain_saveState 125
  have compact := Json.parse_compact plain
  refine ⟨compact, Json.parse_pretty plain, fun target => ?_⟩
  rw [compact]
  rfl

end Machine

end AppleOne
