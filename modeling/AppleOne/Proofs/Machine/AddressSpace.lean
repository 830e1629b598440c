import AppleOne.Proofs.Machine.Chronicle

/-!
The address space as the manual draws it: what a read brings is settled by the size of RAM, the images
and what has happened before.
-/

namespace AppleOne

/-! ### The manual -/

/-- The byte that an event puts at a place in RAM. -/
def Event.stored? (place : Nat) : Event → Option UInt8
  | .access (.write address value) => if address.toNat = place then some value else none
  | .image start bytes => if start.toNat ≤ place then bytes[place - start.toNat]? else none
  | .restored ram _ => ram[place]?
  | _ => none

/-- The byte that was last put at a place, or zero. -/
def lastStored (events : List Event) (place : Nat) : UInt8 :=
  (events.reverse.findSome? (·.stored? place)).getD 0

/-- The interface adapter: the key that waits, until when the display is busy, and the present time, both
in nanoseconds. -/
structure Adapter where
  key : Option UInt8
  readyAt : Option Nat
  now : Nat

namespace Adapter

def initial : Adapter := ⟨none, none, 0⟩

def see (adapter : Adapter) : Event → Adapter
  | .pressed code => { adapter with key := some (code &&& 0x7F) }
  | .restored _ key => { adapter with key := key.map (· &&& 0x7F) }
  | .clock time => { adapter with now := time.nanoseconds }
  | .access (.read address _) => if address = 0xD010 then { adapter with key := none } else adapter
  | .access (.write address _) =>
    if address = 0xD012 then
      { adapter with readyAt := some (adapter.now + if adapter.key.isSome then 0 else 1700) }
    else adapter
  | .image .. => adapter

def after (events : List Event) : Adapter := events.foldl see initial

/-- The registers from `D010` to `D013`. -/
def register (adapter : Adapter) (address : UInt16) : UInt8 :=
  if address = 0xD010 then adapter.key.elim 0 (· ||| 0x80)
  else if address = 0xD011 then if adapter.key.isSome then 0x80 else 0
  else if adapter.readyAt.any (adapter.now ≤ ·) then 0x80 else 0

end Adapter

/-- What is settled when a machine is built. -/
structure Layout where
  ramSize : Nat
  monitor : Array UInt8
  basic : Array UInt8

/-- What a read brings after some events. -/
def Layout.read (layout : Layout) (events : List Event) (address : UInt16) : UInt8 :=
  let place := address.toNat
  if place < layout.ramSize then lastStored events place
  else if 0xD010 ≤ place ∧ place ≤ 0xD013 then (Adapter.after events).register address
  else if 0xE000 ≤ place ∧ place ≤ 0xEFFF then layout.basic.getD (place - 0xE000) 0
  else if 0xFF00 ≤ place ∧ place ≤ 0xFFFB then layout.monitor.getD (place - 0xFF00) 0
  else if place = 0xFFFC then 0x00
  else if place = 0xFFFD then 0xFF
  else 0

/-! ### Agreement -/

theorem lastStored_concat (events : List Event) (event : Event) (place : Nat) :
    lastStored (events ++ [event]) place = (event.stored? place).getD (lastStored events place) := by
  rw [lastStored, List.reverse_append]
  change (List.findSome? _ (event :: events.reverse)).getD 0 = _
  rw [List.findSome?_cons]
  cases event.stored? place <;> rfl

theorem Adapter.after_concat (events : List Event) (event : Event) :
    after (events ++ [event]) = (after events).see event := by
  rw [after, List.foldl_append]
  rfl

/-- The adapter as far as a program can tell. -/
def Board.adapter (board : Board) : Adapter where
  key := board.pia.key
  readyAt := board.pia.readyAt.map (·.nanoseconds)
  now := board.time.nanoseconds

namespace Layout

variable {layout : Layout} {events : List Event} {board : Board}

/-- The reads among the events brought what they had to. -/
def Answered (layout : Layout) (events : List Event) : Prop :=
  ∀ before address value after, events = before ++ .access (.read address value) :: after →
    value = layout.read before address

theorem answered_nil : layout.Answered [] := by
  intro before address value after split
  simp at split

theorem Answered.concat {event : Event} (answered : layout.Answered events)
    (last : ∀ address value, event = .access (.read address value) →
      value = layout.read events address) :
    layout.Answered (events ++ [event]) := by
  intro before address value after split
  -- The read is the new event, or one of the earlier ones.
  rcases List.eq_nil_or_concat after with rfl | ⟨rest, final, rfl⟩
  · obtain ⟨rfl, same⟩ := List.append_inj' split rfl
    exact last address value (List.singleton_inj.mp same)
  · rw [List.concat_eq_append, ← List.cons_append, ← List.append_assoc] at split
    exact answered before address value rest (List.append_inj' split rfl).1

/-- A board that is in the state the events tell. -/
structure Agrees (layout : Layout) (events : List Event) (board : Board) : Prop where
  room : layout.ramSize ≤ Board.maxRam
  size : board.ram.size = layout.ramSize
  ram : ∀ place < layout.ramSize, board.ram[place]? = some (lastStored events place)
  monitor : board.roms.monitor.toArray = layout.monitor
  basic : board.roms.basic.toArray = layout.basic
  adapter : board.adapter = .after events
  answered : layout.Answered events

theorem Agrees.roms_read (agrees : layout.Agrees events board) {address : UInt16}
    (outside : layout.ramSize ≤ address.toNat) (uncovered : ¬Pia.covers address) :
    board.roms.read address = layout.read events address := by
  have uncovered : ¬(0xD010 ≤ address.toNat ∧ address.toNat ≤ 0xD013) := mt Pia.covers_iff.mpr uncovered
  simp only [Roms.read, Layout.read, if_neg (Nat.not_lt.mpr outside), if_neg uncovered,
    ← agrees.monitor, ← agrees.basic]
  split
  · rename_i inBasic
    have inside : address.toNat - 0xE000 < 4096 := by omega
    simp [Array.getD, inside]
  · split
    · rename_i inMonitor
      have inside : address.toNat - 0xFF00 < 256 := by omega
      simp [Array.getD, inside]
    · rfl

theorem Agrees.register (agrees : layout.Agrees events board) {address : UInt16}
    (covered : Pia.covers address) : board.shows address = layout.read events address := by
  have room := agrees.room
  have size := agrees.size
  have bounds := Pia.covers_iff.mp covered
  unfold Board.maxRam at room
  have outside : ¬address.toNat < board.ram.size := by omega
  have outside' : ¬address.toNat < layout.ramSize := by omega
  have busy : board.displayBusy = board.adapter.readyAt.any (board.adapter.now ≤ ·) := by
    rw [Board.displayBusy, Pia.busy, Board.adapter]
    cases board.pia.readyAt <;> rfl
  rw [Board.shows, dif_neg outside, Layout.read, if_neg outside', if_pos bounds, ← agrees.adapter,
    Adapter.register, busy]
  rcases Pia.register_cases covered with rfl | rfl | rfl | rfl <;> rfl

theorem Agrees.shows (agrees : layout.Agrees events board) (address : UInt16) :
    board.shows address = layout.read events address := by
  by_cases covered : Pia.covers address
  · exact agrees.register covered
  · by_cases inside : address.toNat < layout.ramSize
    · have inside' : address.toNat < board.ram.size := agrees.size ▸ inside
      have held := agrees.ram address.toNat inside
      rw [Array.getElem?_eq_getElem inside', Option.some.injEq] at held
      rw [Board.shows_ram inside', Layout.read, if_pos inside, held]
    · have outside := Nat.le_of_not_lt inside
      rw [Board.shows_rom (agrees.size ▸ outside) covered, agrees.roms_read outside covered]

/-! ### Every event keeps the agreement -/

theorem getElem?_eq_some_getD {ram : Array UInt8} {place : Nat} (inside : place < ram.size) :
    ram[place]? = some (ram.getD place 0) := by
  rw [Array.getD_eq_getD_getElem?, Array.getElem?_eq_getElem inside, Option.getD_some]

theorem getElem?_overlay {ram image : Array UInt8} {start place : Nat}
    (fits : start + image.size ≤ ram.size) (inside : place < ram.size) :
    (Machine.overlay ram image start)[place]? =
      some ((if start ≤ place then image[place - start]? else none).getD (ram.getD place 0)) := by
  have sizes : min start ram.size = start := by omega
  rw [Machine.overlay, Array.getElem?_append, Array.getElem?_append]
  simp only [Array.size_append, Array.size_extract, Array.getElem?_extract, Nat.sub_zero, sizes]
  -- Three pieces: what is left before the image, the image, and what is left past it.
  by_cases before : place < start
  · have within : place < start + image.size := by omega
    have notStarted : ¬start ≤ place := by omega
    rw [if_pos within, if_pos before, if_pos before, if_neg notStarted, Nat.zero_add,
      getElem?_eq_some_getD inside]
    rfl
  · have started : start ≤ place := by omega
    rw [if_neg before, if_pos started]
    by_cases within : place < start + image.size
    · have held : place - start < image.size := by omega
      rw [if_pos within, Array.getElem?_eq_getElem held]
      rfl
    · have past : image.size ≤ place - start := by omega
      have rest : place - (start + image.size) < ram.size - (start + image.size) := by omega
      have same : start + image.size + (place - (start + image.size)) = place := by omega
      rw [if_neg within, Nat.min_self, if_pos rest, same, Array.getElem?_eq_none past,
        getElem?_eq_some_getD inside]
      rfl

/-- What an event has to do to the board so that the two still agree. -/
theorem Agrees.concat (agrees : layout.Agrees events board) {event : Event} {after : Board}
    (ram : ∀ place < board.ram.size, after.ram[place]? =
      some ((event.stored? place).getD (board.ram.getD place 0)))
    (size : after.ram.size = board.ram.size) (roms : after.roms = board.roms)
    (adapter : after.adapter = board.adapter.see event)
    (answered : ∀ address value, event = .access (.read address value) →
      value = layout.read events address) : layout.Agrees (events ++ [event]) after where
  room := agrees.room
  size := size.trans agrees.size
  ram place inside := by
    rw [ram place (agrees.size ▸ inside), lastStored_concat, Array.getD_eq_getD_getElem?,
      agrees.ram place inside, Option.getD_some]
  monitor := roms ▸ agrees.monitor
  basic := roms ▸ agrees.basic
  adapter := by rw [adapter, agrees.adapter, Adapter.after_concat]
  answered := agrees.answered.concat answered

/-- An event that puts nothing into RAM. -/
theorem Agrees.concat_of_ram_eq (agrees : layout.Agrees events board) {event : Event} {after : Board}
    (stored : ∀ place < board.ram.size, event.stored? place = none) (ram : after.ram = board.ram)
    (roms : after.roms = board.roms) (adapter : after.adapter = board.adapter.see event)
    (answered : ∀ address value, event = .access (.read address value) →
      value = layout.read events address) : layout.Agrees (events ++ [event]) after := by
  refine agrees.concat (fun place inside => ?_) (by rw [ram]) roms adapter answered
  rw [stored place inside, Option.getD_none, ram, getElem?_eq_some_getD inside]

theorem Agrees.read (agrees : layout.Agrees events board) {address : UInt16} {value : UInt8}
    {after : Board} (done : board.read address = .ok value after) :
    layout.Agrees (events ++ [.access (.read address value)]) after := by
  rw [Board.read_eq (agrees.size ▸ agrees.room), agrees.shows] at done
  cases done
  have answered : ∀ address' value', Event.access (.read address (layout.read events address)) =
      .access (.read address' value') → value' = layout.read events address' := by
    rintro _ _ ⟨⟩
    rfl
  by_cases key : address = Pia.keyboardData
  · rw [if_pos key]
    refine agrees.concat_of_ram_eq (fun _ _ => rfl) rfl rfl ?_ answered
    rw [Adapter.see, if_pos (show address = 0xD010 from key)]
    rfl
  · rw [if_neg key]
    refine agrees.concat_of_ram_eq (fun _ _ => rfl) rfl rfl ?_ answered
    rw [Adapter.see, if_neg (show ¬address = 0xD010 from key)]

theorem Agrees.write (agrees : layout.Agrees events board) {address : UInt16} {value : UInt8}
    {after : Board} (done : board.write address value = .ok () after) :
    layout.Agrees (events ++ [.access (.write address value)]) after := by
  have room : board.ram.size ≤ Board.maxRam := agrees.size ▸ agrees.room
  by_cases inside : address.toNat < board.ram.size
  · rw [Board.write_ram inside] at done
    cases done
    refine agrees.concat (fun place within => ?_) (Array.size_set inside) rfl ?_ nofun
    · rw [Event.stored?, Array.getElem?_set, getElem?_eq_some_getD within]
      split <;> rfl
    -- RAM ends below the adapter, so a byte that was stored is none that was displayed.
    · have notDisplay : address ≠ 0xD012 := by
        rintro rfl
        have : 0xD012 < board.ram.size := inside
        unfold Board.maxRam at room
        omega
      exact (if_neg notDisplay).symm
  · have stored : ∀ place < board.ram.size,
        (Event.access (.write address value)).stored? place = none := by
      intro place within
      exact if_neg fun (same : address.toNat = place) => inside (same ▸ within)
    by_cases display : address = Pia.displayData
    · subst display
      rw [Board.write_display room] at done
      cases sum : board.time.add? board.pia.busyTime with
      | some ready =>
          rw [sum] at done
          cases done
          refine agrees.concat_of_ram_eq stored rfl rfl ?_ nofun
          rw [Adapter.see, if_pos (show Pia.displayData = 0xD012 from rfl)]
          have busy : board.pia.busyTime.nanoseconds =
              if board.adapter.key.isSome then 0 else 1700 := by
            rw [Pia.busyTime, apply_ite Duration.nanoseconds]
            rfl
          rw [← busy, ← show _ = board.adapter.now + _ from Duration.add?_eq_some_iff.mp sum]
          rfl
      | none =>
          rw [sum] at done
          cases done
    · rw [Board.write_elsewhere (Nat.le_of_not_lt inside) display] at done
      cases done
      exact agrees.concat_of_ram_eq stored rfl rfl
        (if_neg (show ¬address = 0xD012 from display)).symm nofun

theorem kept_agrees (layout : Layout) : Machine.Recording.Kept layout.Agrees where
  read agrees done := agrees.read done
  write agrees done := agrees.write done
  journal _ agrees :=
    ⟨agrees.room, agrees.size, agrees.ram, agrees.monitor, agrees.basic, agrees.adapter, agrees.answered⟩
  press code agrees := agrees.concat_of_ram_eq (fun _ _ => rfl) rfl rfl rfl nofun
  image agrees fits := by
    refine agrees.concat (fun place inside => ?_) (Machine.size_overlay fits) rfl rfl nofun
    rw [Event.stored?, getElem?_overlay fits inside]
  restore key agrees same := by
    refine agrees.concat (fun place inside => ?_) same rfl rfl nofun
    rw [Event.stored?, Array.getElem?_eq_getElem (same ▸ inside)]
    rfl
  clock agrees _ := agrees.concat_of_ram_eq (fun _ _ => rfl) rfl rfl rfl nofun

/-! ### Whole sessions -/

open Machine

/-- What the layout settles about a machine after some events. The log apart, a read takes at most a key
away, and a write acts on one byte of RAM, on the display or on nothing. -/
structure Governs (layout : Layout) (events : List Event) (machine : Machine) : Prop where
  answered : layout.Answered events
  read : ∀ address, machine.board.read address = .ok (layout.read events address)
    (if address = 0xD010 then machine.board.keyTaken else machine.board)
  writeRam : ∀ (address : UInt16) (value : UInt8) (inside : address.toNat < machine.board.ram.size),
    machine.board.write address value =
      .ok () { machine.board with ram := machine.board.ram.set address.toNat value }
  writeDisplay : ∀ value, machine.board.write 0xD012 value =
    match machine.board.time.add? machine.board.pia.busyTime with
    | some ready => .ok () (machine.board.displayed value ready)
    | none => .error .endOfTime machine.board
  writeElsewhere : ∀ (address : UInt16) (value : UInt8), layout.ramSize ≤ address.toNat →
    address ≠ 0xD012 → ∃ journal, machine.board.write address value =
      .ok () { machine.board with journal := journal }
  ramSize : machine.ramSize = layout.ramSize
  reset : machine.reset.cpu.pc = 0xFF00
  nmi : machine.cpu.due = some .nmi → ∃ after, step machine = .ok 7 after ∧
    after.cpu.pc = wordOf (layout.monitor.getD 0xFA 0) (layout.monitor.getD 0xFB 0)
  irq : machine.cpu.due = some .irq → ∃ after, step machine = .ok 7 after ∧ after.cpu.pc = 0
  softwareBreak : machine.cpu.due = none → layout.read events machine.cpu.pc = 0 →
    ∃ after, step machine = .ok 7 after ∧ after.cpu.pc = 0

theorem Agrees.governs {machine : Machine} (agrees : layout.Agrees events machine.board) :
    layout.Governs events machine := by
  have room : machine.board.ram.size ≤ Board.maxRam := agrees.size ▸ agrees.room
  have read address : machine.board.read address = .ok (layout.read events address)
      (if address = 0xD010 then machine.board.keyTaken else machine.board) := by
    rw [Board.read_eq room, agrees.shows]
    rfl
  exact {
    answered := agrees.answered
    read := read
    writeRam := fun _ value inside => Board.write_ram inside value
    writeDisplay := Board.write_display room
    writeElsewhere := fun _ value outside other =>
      ⟨_, Board.write_elsewhere (agrees.size ▸ outside) other value⟩
    ramSize := agrees.size
    reset := by rw [reset_eq_restarted room]; rfl
    nmi := fun due => by
      obtain ⟨board, done⟩ := step_enters room due
      refine ⟨_, done, machine.board.roms.word_nmi.trans ?_⟩
      rw [← agrees.monitor]
      simp [Array.getD]
    irq := fun due => by
      obtain ⟨board, done⟩ := step_enters room due
      exact ⟨_, done, machine.board.roms.word_irq⟩
    softwareBreak := fun due zero => by
      obtain ⟨board, done⟩ := step_breaks room due (zero ▸ read machine.cpu.pc)
      exact ⟨_, done, machine.board.roms.word_irq⟩ }

theorem agrees_build {config : Config} {roms : Roms} {terminal : Terminal} {journal : Log.Journal}
    {machine : Machine} (built : build config roms terminal journal = .ok machine) :
    Agrees ⟨config.ramSize.toNat, roms.monitor.toArray, roms.basic.toArray⟩ [] machine.board := by
  obtain ⟨-, -, room, rfl⟩ := build_eq_ok_iff.mp built
  have size : (Array.replicate config.ramSize.toNat (0 : UInt8)).size = config.ramSize.toNat :=
    Array.size_replicate
  have roomOn : (switchedOn config roms terminal journal).board.ram.size ≤ Board.maxRam :=
    Nat.le_trans (Nat.le_of_eq size) room
  rw [reset_eq_restarted roomOn]
  refine ⟨room, size, fun place inside => ?_, rfl, rfl, rfl, answered_nil⟩
  exact Array.getElem?_eq_some_iff.mpr
    ⟨Nat.lt_of_lt_of_eq inside size.symm, Array.getElem_replicate _⟩

theorem ofImages_eq {config : Config} {monitor basic : Array UInt8} {terminal : Terminal}
    {journal : Log.Journal} (monitorSize : monitor.size = 256) (basicSize : basic.size = 4096) :
    ofImages config monitor basic terminal journal =
      build config ⟨⟨monitor, monitorSize⟩, ⟨basic, basicSize⟩⟩ terminal journal := by
  rw [ofImages, Roms.ofImages, Roms.checkImage, dif_pos monitorSize, Roms.checkImage, dif_pos basicSize]
  rfl

/-- However a machine is driven, its layout governs it. -/
theorem governs_chronicle (config : Config) (monitor basic : Array UInt8) (terminal : Terminal)
    (journal : Log.Journal) (budget : config.cyclesPerTick ≠ 0)
    (most : config.cyclesPerTick ≤ maxTickBudget) (room : config.ramSize.toNat ≤ 0xD00F)
    (monitorSize : monitor.size = 256) (basicSize : basic.size = 4096) :
    ∃ start, ofImages config monitor basic terminal journal = .ok start ∧ ∀ commands,
      (start.chronicle commands).machine = final (session commands start) ∧
        Governs ⟨config.ramSize.toNat, monitor, basic⟩ (start.chronicle commands).events
          (start.chronicle commands).machine := by
  have built : build config ⟨⟨monitor, monitorSize⟩, ⟨basic, basicSize⟩⟩ terminal journal = .ok _ :=
    build_eq_ok_iff.mpr ⟨budget, most, room, rfl⟩
  refine ⟨_, (ofImages_eq monitorSize basicSize).trans built, fun commands => ?_⟩
  have agrees := (kept_agrees _).chronicle (agrees_build built) commands
  exact ⟨machine_chronicle _ commands, agrees.governs⟩

/-- As much RAM as there can be, written at its last place and one past it. -/
theorem governs_chronicle_full :
    (0xD00F : UInt64).toNat ≤ 0xD00F ∧ (Array.replicate 256 (0xEA : UInt8)).size = 256 ∧
    (Array.replicate 4096 (0 : UInt8)).size = 4096 ∧
    ∃ start, ofImages ⟨0xD00F, 64, true⟩ (.replicate 256 0xEA) (.replicate 4096 0) .recorder .initial =
        .ok start ∧
      Governs ⟨(0xD00F : UInt64).toNat, .replicate 256 0xEA, .replicate 4096 0⟩
        (start.chronicle [.poke 0xD00E 0x41, .poke 0xD00F 0x42, .nmi, .step]).events
        (start.chronicle [.poke 0xD00E 0x41, .poke 0xD00F 0x42, .nmi, .step]).machine := by
  have monitorSize : (Array.replicate 256 (0xEA : UInt8)).size = 256 := Array.size_replicate
  have basicSize : (Array.replicate 4096 (0 : UInt8)).size = 4096 := Array.size_replicate
  obtain ⟨start, built, governs⟩ := governs_chronicle ⟨0xD00F, 64, true⟩ _ _ .recorder .initial
    (by decide) (by decide) (by decide) monitorSize basicSize
  exact ⟨by decide, monitorSize, basicSize, start, built, (governs _).2⟩

end Layout

/-- Every machine that a host can reach is in a state that some events tell. -/
theorem Machine.Reachable.exists_agrees {machine : Machine} (reachable : machine.Reachable) :
    ∃ (layout : Layout) (events : List Event), layout.Agrees events machine.board := by
  induction reachable with
  | build built => exact ⟨_, [], Layout.agrees_build built⟩
  | @run machine after command reply _ done ih =>
      obtain ⟨layout, events, agrees⟩ := ih
      have kept := (Layout.kept_agrees layout).keeps_command command ⟨machine, events⟩ agrees
      rw [Recording.Holds, (Recording.records_command command).final_eq, done] at kept
      exact ⟨layout, _, kept⟩

theorem Machine.Reachable.ramSize_le {machine : Machine} (reachable : machine.Reachable) :
    machine.ramSize ≤ Board.maxRam := by
  obtain ⟨layout, events, agrees⟩ := reachable.exists_agrees
  exact Nat.le_trans (Nat.le_of_eq agrees.size) agrees.room

end AppleOne
