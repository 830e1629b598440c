import AppleOne.Cpu.Snapshot
import AppleOne.Proofs.Json.Acceptance

/-!
Register snapshots in JSON: which values stand for registers, and that the ones the processor writes do.
-/

namespace AppleOne.Registers

open Json (named)

/-- What JSON stands for registers: an object with one member for each, or an array of them in order. -/
def WrittenAs (r : Registers) (value : Json) : Prop :=
  (∃ members, value = .object members ∧
    ∀ name item, (name, item) ∈ r.members → named name members = [(name, item)]) ∨
  value = .array (r.members.map Prod.snd)

def columns : List (Json.Column Registers) := [
  ⟨"a", .byte, fun n r => { r with a := n.toUInt8 }, (·.a.toNat)⟩,
  ⟨"x", .byte, fun n r => { r with x := n.toUInt8 }, (·.x.toNat)⟩,
  ⟨"y", .byte, fun n r => { r with y := n.toUInt8 }, (·.y.toNat)⟩,
  ⟨"sp", .byte, fun n r => { r with sp := n.toUInt8 }, (·.sp.toNat)⟩,
  ⟨"status", .byte, fun n r => { r with status := .ofByte n.toUInt8 }, (·.status.toByte.toNat)⟩,
  ⟨"pc", .word, fun n r => { r with pc := n.toUInt16 }, (·.pc.toNat)⟩]

theorem members_eq (r : Registers) :
    r.members = columns.map fun column => (column.name, column.value r) := rfl

theorem eq_of_columns {r s : Registers} (h : ∀ column ∈ columns, column.get r = column.get s) :
    r = s := by
  simp only [columns, List.forall_mem_cons, UInt8.toNat_inj, UInt16.toNat_inj] at h
  obtain ⟨a, x, y, sp, status, pc, -⟩ := h
  have status : r.status = s.status := by
    rw [← Status.ofByte_toByte r.status, status, Status.ofByte_toByte]
  cases r
  cases s
  exact (mk.injEq ..).mpr ⟨a, x, y, sp, status, pc⟩

theorem get_lt : ∀ column ∈ columns, ∀ r, column.get r < column.width.limit := by
  simp only [columns, List.forall_mem_cons]
  exact ⟨fun r => r.a.toNat_lt, fun r => r.x.toNat_lt, fun r => r.y.toNat_lt, fun r => r.sp.toNat_lt,
    fun r => r.status.toByte.toNat_lt, fun r => r.pc.toNat_lt, nofun⟩

theorem get_put : ∀ column ∈ columns, ∀ other ∈ columns, ∀ n r, n < column.width.limit →
    other.get (column.put n r) = if other.name = column.name then n else other.get r := by
  have byte : ∀ (n : Nat) (_ : Registers), n < Json.Width.byte.limit → n.toUInt8.toNat = n :=
    fun n _ small => UInt8.toNat_ofNat_of_lt' small
  have word : ∀ (n : Nat) (_ : Registers), n < Json.Width.word.limit → n.toUInt16.toNat = n :=
    fun n _ small => UInt16.toNat_ofNat_of_lt' small
  simp only [columns, List.forall_mem_cons, Status.toByte_ofByte, String.reduceEq, if_true, if_false,
    List.not_mem_nil, false_imp_iff, implies_true, and_true, true_and]
  exact ⟨byte, byte, byte, byte, byte, word⟩

theorem tabular : shape.Tabular columns where
  fields := rfl
  required := rfl
  distinct := by decide
  get_lt := get_lt
  get_put := get_put
  ext _ _ := eq_of_columns

theorem ofJson_eq_ok_iff {value : Json} {r : Registers} : ofJson value = .ok r ↔ r.WrittenAs value := by
  rw [ofJson, tabular.ofValue_eq_ok_iff, WrittenAs, members_eq, List.map_map]
  refine or_congr (exists_congr fun members => and_congr_right fun _ => ?_) Iff.rfl
  constructor
  · intro each name item mem
    obtain ⟨column, mem', ⟨⟩⟩ := List.mem_map.mp mem
    exact each column mem'
  · intro each column mem
    exact each _ _ (List.mem_map_of_mem mem)

theorem toJson_eq (r : Registers) :
    r.toJson = .object [
      ("a", .natural r.a.toNat),
      ("pc", .natural r.pc.toNat),
      ("sp", .natural r.sp.toNat),
      ("status", .natural r.status.toByte.toNat),
      ("x", .natural r.x.toNat),
      ("y", .natural r.y.toNat)] := by
  simp only [toJson, members, List.foldl_cons, List.foldl_nil, Json.insert, String.reduceLT,
    String.reduceEq, if_true, if_false]

theorem writtenAs_toJson (r : Registers) : r.WrittenAs r.toJson := by
  refine .inl ⟨_, r.toJson_eq, ?_⟩
  intro name item mem
  simp only [members, List.mem_cons, List.not_mem_nil, or_false, Prod.mk.injEq] at mem
  rcases mem with ⟨rfl, rfl⟩ | ⟨rfl, rfl⟩ | ⟨rfl, rfl⟩ | ⟨rfl, rfl⟩ | ⟨rfl, rfl⟩ | ⟨rfl, rfl⟩ <;> rfl

end AppleOne.Registers
