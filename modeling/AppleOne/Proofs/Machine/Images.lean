import AppleOne.Proofs.Machine.AddressSpace

/-!
Images of RAM. An image that fits replaces the bytes of its region and nothing else; a region that is saved
has the bytes that the bus would show, and loading it again changes nothing but the log.
-/

namespace AppleOne

namespace Board

theorem read_ram {board : Board} {address : UInt16} (inside : address.toNat < board.ram.size) :
    board.read address = .ok board.ram[address.toNat] board := dif_pos inside

end Board

namespace Machine

/-! ### Overlays -/

theorem overlay_image {ram image : Array UInt8} {start i : Nat} (fits : start + image.size ≤ ram.size)
    (inside : i < image.size) : (overlay ram image start)[start + i]? = image[i]? := by
  rw [Layout.getElem?_overlay fits (by omega), if_pos (Nat.le_add_right _ _), Nat.add_sub_cancel_left,
    Array.getElem?_eq_getElem inside, Option.getD_some]

theorem overlay_rest {ram image : Array UInt8} {start place : Nat} (fits : start + image.size ≤ ram.size)
    (outside : place < start ∨ start + image.size ≤ place) :
    (overlay ram image start)[place]? = ram[place]? := by
  by_cases within : place < ram.size
  · have missing : (if start ≤ place then image[place - start]? else none) = none := by
      split
      · exact Array.getElem?_eq_none (by omega)
      · rfl
    rw [Layout.getElem?_overlay fits within, missing, Option.getD_none, Layout.getElem?_eq_some_getD within]
  · have past := Nat.le_of_not_lt within
    rw [Array.getElem?_eq_none past, Array.getElem?_eq_none ((size_overlay fits).symm ▸ past)]

/-- What was taken from its own place changes nothing. -/
theorem overlay_extract {ram : Array UInt8} {start stop : Nat} (ordered : start ≤ stop)
    (fits : stop ≤ ram.size) : overlay ram (ram.extract start stop) start = ram := by
  have size : start + (ram.extract start stop).size = stop := by
    rw [Array.size_extract, Nat.min_eq_left fits]
    omega
  rw [overlay, size, Array.extract_append_extract, Nat.zero_min, Nat.max_eq_right ordered,
    Array.extract_append_extract, Nat.zero_min, Nat.max_eq_right fits, Array.extract_size]

/-! ### Loading -/

/-- The machine with an image in RAM from a place on, and with a line in the log. -/
structure Loaded (address : UInt16) (image : Array UInt8) (machine after : Machine) : Prop where
  same : after = { machine with board := { machine.board with
    ram := after.board.ram
    journal := machine.board.journal.note (.imageLoaded image.size address) } }
  size : after.ramSize = machine.ramSize
  held : ∀ i < image.size, after.board.ram[address.toNat + i]? = image[i]?
  rest : ∀ place, place < address.toNat ∨ address.toNat + image.size ≤ place →
    after.board.ram[place]? = machine.board.ram[place]?

structure Loads (machine : Machine) (address : UInt16) (image : Array UInt8) : Prop where
  outside : machine.ramSize ≤ address.toNat → (Command.loadImage address image).run machine =
    .ok (.refused (.outsideRam address machine.ramSize)) machine
  tooLarge : address.toNat < machine.ramSize → machine.ramSize < address.toNat + image.size →
    (Command.loadImage address image).run machine =
      .ok (.refused (.imageTooLarge image.size address machine.ramSize)) machine
  loaded : address.toNat < machine.ramSize → address.toNat + image.size ≤ machine.ramSize →
    ∃ after, (Command.loadImage address image).run machine = .ok .done after ∧
      Loaded address image machine after

variable {machine : Machine}

theorem loads (machine : Machine) (address : UInt16) (image : Array UInt8) :
    machine.Loads address image where
  outside past := by
    rw [Command.run, request, loadImage, if_pos past]
  tooLarge inside large := by
    rw [Command.run, request, loadImage, if_neg (Nat.not_le.mpr inside), if_pos large]
  loaded inside fits := by
    rw [Command.run, request, loadImage, if_neg (Nat.not_le.mpr inside), if_neg (Nat.not_lt.mpr fits)]
    exact ⟨_, rfl, rfl, size_overlay fits, fun _ => overlay_image fits, fun _ => overlay_rest fits⟩

/-! ### Saving -/

/-- The bytes that the bus shows from one address to another, both of them included. -/
structure Saved (start last : UInt16) (machine : Machine) (bytes : Array UInt8) : Prop where
  size : bytes.size = last.toNat - start.toNat + 1
  shown : ∀ address, start ≤ address → address ≤ last → ∃ value,
    (Command.peek address).run machine = .ok (.byte value) machine ∧
      bytes[address.toNat - start.toNat]? = some value
  again : (Command.loadImage start bytes).run machine = .ok .done
    { machine with board := { machine.board with
      journal := machine.board.journal.note (.imageLoaded bytes.size start) } }

structure Saves (machine : Machine) (start last : UInt16) : Prop where
  empty : last ≤ start → (Command.saveRegion start last).run machine =
    .ok (.refused (.emptyRegion start last)) machine
  outside : start < last → machine.ramSize ≤ last.toNat → (Command.saveRegion start last).run machine =
    .ok (.refused (.outsideRam last machine.ramSize)) machine
  saved : start < last → last.toNat < machine.ramSize → ∃ bytes,
    (Command.saveRegion start last).run machine = .ok (.bytes bytes) machine ∧
      Saved start last machine bytes

theorem peek_ram {address : UInt16} (inside : address.toNat < machine.board.ram.size) :
    (Command.peek address).run machine = .ok (.byte machine.board.ram[address.toNat]) machine := by
  obtain ⟨cpu, config, board⟩ := machine
  change EStateM.map Reply.byte (peek address) ⟨cpu, config, board⟩ = _
  rw [EStateM.map, peek, Board.read_ram inside]

theorem saveRegion_eq {start last : UInt16} (ordered : start < last)
    (inside : last.toNat < machine.ramSize) :
    machine.saveRegion start last = .ok (machine.board.ram.extract start.toNat (last.toNat + 1)) := by
  rw [saveRegion, if_neg (UInt16.not_le.mpr ordered), if_neg (Nat.not_le.mpr inside)]

theorem saved_extract {start last : UInt16} (ordered : start < last)
    (inside : last.toNat < machine.ramSize) :
    Saved start last machine (machine.board.ram.extract start.toNat (last.toNat + 1)) := by
  have below : start.toNat < last.toNat := ordered
  have fits : last.toNat + 1 ≤ machine.board.ram.size := inside
  have size : (machine.board.ram.extract start.toNat (last.toNat + 1)).size =
      last.toNat - start.toNat + 1 := by
    rw [Array.size_extract, Nat.min_eq_left fits]
    omega
  refine ⟨size, fun address first final => ?_, ?_⟩
  · have first : start.toNat ≤ address.toNat := first
    have final : address.toNat ≤ last.toNat := final
    have held : address.toNat < machine.board.ram.size := by omega
    have place : start.toNat + (address.toNat - start.toNat) = address.toNat := by omega
    refine ⟨_, peek_ram held, ?_⟩
    rw [Array.getElem?_extract, if_pos (by omega), place, Array.getElem?_eq_getElem held]
  · have start_lt : start.toNat < machine.ramSize := Nat.lt_trans below inside
    have sum : start.toNat + (machine.board.ram.extract start.toNat (last.toNat + 1)).size ≤
        machine.ramSize := by
      rw [size]
      omega
    rw [Command.run, request, loadImage, if_neg (Nat.not_le.mpr start_lt), if_neg (Nat.not_lt.mpr sum),
      overlay_extract (Nat.le_succ_of_le (Nat.le_of_lt below)) fits]

theorem saves (machine : Machine) (start last : UInt16) : machine.Saves start last where
  empty none := by
    rw [Command.run, query, saveRegion, if_pos none]
  outside ordered past := by
    rw [Command.run, query, saveRegion, if_neg (UInt16.not_le.mpr ordered), if_pos past]
  saved ordered inside := by
    rw [Command.run, query, saveRegion_eq ordered inside]
    exact ⟨_, rfl, saved_extract ordered inside⟩

/-! ### Sessions -/

theorem saved_of_agrees {layout : Layout} {events : List Event} (agrees : layout.Agrees events machine.board)
    {start last : UInt16} (ordered : start < last) (inside : last.toNat < layout.ramSize) : ∃ bytes,
    (Command.saveRegion start last).run machine = .ok (.bytes bytes) machine ∧
      ∀ address, start ≤ address → address ≤ last →
        bytes[address.toNat - start.toNat]? = some (lastStored events address.toNat) := by
  have within : last.toNat < machine.ramSize := Nat.lt_of_lt_of_eq inside agrees.size.symm
  obtain ⟨bytes, run, saved⟩ := (machine.saves start last).saved ordered within
  refine ⟨bytes, run, fun address first final => ?_⟩
  have below : address.toNat < layout.ramSize := Nat.lt_of_le_of_lt final inside
  have held : address.toNat < machine.board.ram.size := agrees.size ▸ below
  obtain ⟨value, peeked, found⟩ := saved.shown address first final
  rw [peek_ram held] at peeked
  injection peeked with same
  injection same with same
  rw [found, ← same, ← Array.getElem?_eq_getElem held, agrees.ram _ below]

/-- Images go in where they fit, regions come out as the bus shows them, and after any session a region is
what was last put at each of its places, by whatever means. -/
theorem images_overlay : (∀ machine address image, Loads machine address image) ∧
    (∀ machine start last, Saves machine start last) ∧
    ∀ config roms terminal journal start, build config roms terminal journal = .ok start → ∀ commands,
      (start.chronicle commands).machine = final (session commands start) ∧
      ∀ first last, first < last → last.toNat < start.ramSize → ∃ bytes,
        (Command.saveRegion first last).run (start.chronicle commands).machine =
          .ok (.bytes bytes) (start.chronicle commands).machine ∧
        ∀ address, first ≤ address → address ≤ last → bytes[address.toNat - first.toNat]? =
          some (lastStored (start.chronicle commands).events address.toNat) := by
  refine ⟨loads, saves, fun config roms terminal journal start built commands => ?_⟩
  refine ⟨machine_chronicle start commands, fun first last ordered inside => ?_⟩
  have agrees := Layout.agrees_build built
  have kept := (Layout.kept_agrees _).chronicle agrees commands
  exact saved_of_agrees kept ordered (Nat.lt_of_lt_of_eq inside agrees.size)

/-- Two images in four bytes of RAM, the second one over the end of the first and up to the top. -/
theorem images_overlay_top :
    let roms : Roms :=
      ⟨⟨.replicate 256 0xEA, Array.size_replicate⟩, ⟨.replicate 4096 0, Array.size_replicate⟩⟩
    let commands : List Command := [.loadImage 0 #[1, 2, 3], .loadImage 2 #[9, 8]]
    ∃ start bytes, build ⟨4, 64, true⟩ roms .recorder .initial = .ok start ∧
      (Command.saveRegion 1 3).run (final (session commands start)) =
        .ok (.bytes bytes) (final (session commands start)) ∧
      bytes[0]? = some 2 ∧ bytes[1]? = some 9 ∧ bytes[2]? = some 8 := by
  intro roms commands
  clear_value roms
  have room : (switchedOn ⟨4, 64, true⟩ roms .recorder .initial).board.ram.size ≤ Board.maxRam :=
    show 4 ≤ 0xD00F by decide
  have built : build ⟨4, 64, true⟩ roms .recorder .initial = .ok _ :=
    build_eq_ok_iff.mpr ⟨by decide, by decide, room, rfl⟩
  obtain ⟨same, regions⟩ := images_overlay.2.2 _ _ _ _ _ built commands
  have inside : 3 < (switchedOn ⟨4, 64, true⟩ roms .recorder .initial).reset.ramSize := by
    rw [reset_eq_restarted room]
    exact show 3 < 4 by decide
  have events : ((switchedOn ⟨4, 64, true⟩ roms .recorder .initial).reset.chronicle commands).events =
      [.image 0 #[1, 2, 3], .image 2 #[9, 8]] := by
    rw [reset_eq_restarted room]
    rfl
  obtain ⟨bytes, run, held⟩ := regions 1 3 (by decide) inside
  rw [events] at held
  rw [same] at run
  exact ⟨_, bytes, built, run, held 1 (by decide) (by decide), held 2 (by decide) (by decide),
    held 3 (by decide) (by decide)⟩

end Machine

end AppleOne
